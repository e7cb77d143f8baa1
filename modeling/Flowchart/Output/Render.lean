import Flowchart.Chart.Arrange
import Flowchart.Measure.Font
import Flowchart.Output.Svg
import Flowchart.Pseudocode.Parse
import Flowchart.Style.Data
/-!
From source text to a drawing in one call, and requests that carry their options as JSON text.
-/
namespace Flowchart

/-- What a drawing needs besides its source. -/
structure RenderOptions where
  config : Config Float32
  /-- Whether texts are measured with installed fonts. -/
  fontMetrics : Bool

/-- Why there is no drawing. A layout fails only on trees that no source gives. -/
inductive RenderError where
  | parse (error : ParseError)
  | layout (fault : LayoutFault)
deriving DecidableEq, Repr

namespace RenderOptions

def classic : RenderOptions := ⟨.classic, false⟩

def modern : RenderOptions := ⟨Theme.modern.apply .classic, false⟩

def ofTheme? (name : String) : Option RenderOptions :=
  (Theme.named? name).map fun theme => ⟨theme.apply .classic, false⟩

/-- The measurer that the options ask for; no installed font is known to it. -/
def measure (o : RenderOptions) : Measure Float32 :=
  if o.fontMetrics then Measure.inFonts [] else Measure.approx

end RenderOptions

def Layout.ofSource (source : String) (config : Config Float32) (measure : Measure Float32) :
    Except RenderError (Layout Float32) := do
  let program ← (config.lexis.parse source).mapError .parse
  (Layout.ofProgram config measure program).mapError .layout

def render (source : String) (options : RenderOptions) : Except RenderError String := do
  let layout ← Layout.ofSource source options.config options.measure
  .ok (Svg.render layout options.config)

end Flowchart
