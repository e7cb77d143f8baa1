import Flowchart.Command.Run
import Flowchart.Proofs.Chart.Progress
/-! What a command does with one program: it is drawn, or its error is reported. -/
namespace Flowchart

/-- A program that parses is drawn; no layout fails. -/
theorem render_ok_of_parse {source : String} (options : RenderOptions) {program : Node}
    (parsed : options.config.lexis.parse source = .ok program) :
    ∃ svg, render source options = .ok svg := by
  obtain ⟨l, drawn⟩ := Context.ofProgram_ok options.config options.measure
    (Rules.isProgram_of_parse parsed)
  refine ⟨Svg.render l options.config, ?_⟩
  rw [render, Layout.ofSource, parsed]
  change ((Layout.ofProgram options.config options.measure program).mapError _ >>= _) = _
  rw [drawn]
  rfl

theorem render_ok_or_parse (source : String) (options : RenderOptions) :
    (∃ svg, render source options = .ok svg) ∨ ∃ e, render source options = .error (.parse e) := by
  cases parsed : options.config.lexis.parse source with
  | error e =>
      rw [render, Layout.ofSource, parsed]
      exact .inr ⟨e, rfl⟩
  | ok program => exact .inl (render_ok_of_parse options parsed)

namespace Command

def errorOfRender (source : String) : RenderError → CommandError
  | .parse e => .parse source e
  | .layout fault => .layout fault

theorem deedFor_svg (config : Config Float32) (metrics : Bool) (source : String)
    (output : Option String) :
    deedFor config (RenderOptions.measure ⟨config, metrics⟩) .svg source output =
      ((render source ⟨config, metrics⟩).mapError (errorOfRender source)).map
        (deliver · "" output) := by
  unfold deedFor render Layout.ofSource
  cases config.lexis.parse source with
  | error e => rfl
  | ok program =>
      change (Layout.ofProgram config _ program).mapError CommandError.layout >>= _ =
        (((Layout.ofProgram config _ program).mapError RenderError.layout >>= _).mapError _).map _
      cases Layout.ofProgram config (RenderOptions.measure ⟨config, metrics⟩) program <;> rfl

def carryOut (disk : Disk) (stdin : String) (a : Arguments) : Outcome :=
  let plan := Command.plan ⟨disk.read, disk.isDirectory, stdin⟩ a
  .perform plan.failure disk "" plan.deeds

variable {disk : Disk} {stdin : String} {words : List String} {a : Arguments}

theorem run_of_words (understood : Arguments.ofWords words = .ok a) :
    run disk stdin words = carryOut disk stdin a := by
  rw [run, understood]
  rfl

theorem carryOut_of_plan {plan : Plan}
    (planned : planFor ⟨disk.read, disk.isDirectory, stdin⟩ a = .ok plan) :
    carryOut disk stdin a = .perform plan.failure disk "" plan.deeds := by
  rw [carryOut, Command.plan, planned]

theorem carryOut_of_error {e : CommandError}
    (planned : planFor ⟨disk.read, disk.isDirectory, stdin⟩ a = .error e) :
    carryOut disk stdin a = ⟨1, "", "error: " ++ e.message ++ "\n", disk⟩ := by
  rw [carryOut, Command.plan, planned]
  rfl

end Command
end Flowchart
