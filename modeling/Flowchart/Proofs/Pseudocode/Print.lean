import Flowchart.Proofs.Pseudocode.Check
import Flowchart.Proofs.Pseudocode.Lexing
/-! Printing a tree, one line a node. -/
namespace Flowchart

/-- The text of a line: its keyword and its content, or its content alone. -/
def NodeKind.lineText (kind : NodeKind) (content : String) : String :=
  if kind = .text then content
  else if content = "" then kind.word
  else kind.word ++ " " ++ content

/-- What the content of a line must be to be read back. -/
structure NodeKind.Printable (kind : NodeKind) (content : String) : Prop where
  trimmed : Text.trim content.toList = content.toList
  oneLine : '\n' ∉ content.toList
  ended : content.toList.getLast? ≠ some '\\'
  /-- A text says something, its first word is no keyword, and it is no comment. -/
  text : kind = .text → content ≠ "" ∧
    NodeKind.ofKeyword? (.ofList (Text.splitWord content.toList).1) = none ∧
      content.toList.head? ≠ some '#'

namespace Node

/-- The lines of siblings, from a number on. The block below line `n` is indented by `run n`. -/
def print (run : Nat → String) (nesting : List String) (number : Nat) : List Node → List Line
  | [] => []
  | ⟨kind, _, content, children⟩ :: rest =>
    ⟨number, nesting, kind.lineText content⟩ ::
      (print run (nesting ++ [run number]) (number + 1) children ++
        print run nesting (number + 1 + countAll children) rest)

def renumber (number : Nat) : List Node → List Node
  | [] => []
  | ⟨kind, _, content, children⟩ :: rest =>
    ⟨kind, number, content, renumber (number + 1) children⟩ ::
      renumber (number + 1 + countAll children) rest

def Printable : List Node → Prop
  | [] => True
  | ⟨kind, _, content, children⟩ :: rest =>
    kind.Printable content ∧ Printable children ∧ Printable rest

def source (run : Nat → String) (statements : List Node) : String :=
  .ofList ((print run [] 1 statements).flatMap fun l => l.written ++ ['\n'])

end Node

namespace NodeKind

theorem word_clean (kind : NodeKind) : kind.word.toList ≠ [] ∧
    kind.word.toList.head? ≠ some '#' ∧
      ∀ c ∈ kind.word.toList, Text.isBlank c = false ∧ c ≠ '\n' ∧ c ≠ '\\' := by
  have hletters : kind.word.toList.all (fun c => !Text.isBlank c && c != '\n' && c != '\\') = true := by
    cases kind <;> decide
  refine ⟨by cases kind <;> decide, by cases kind <;> decide, fun c hc => ?_⟩
  simpa [and_assoc] using List.all_eq_true.mp hletters c hc

theorem mem_keywords {kind : NodeKind} (hp : kind ≠ .program) (ht : kind ≠ .text) :
    kind ∈ keywords := by
  cases kind <;> first | exact absurd rfl hp | exact absurd rfl ht | decide

theorem lineText_keyword {kind : NodeKind} (ht : kind ≠ .text) (content : String) :
    (kind.lineText content).toList =
      kind.word.toList ++ if content = "" then [] else ' ' :: content.toList := by
  unfold lineText
  rw [if_neg ht]
  split <;> simp

theorem head?_lineText {kind : NodeKind} {content : String} (h : kind.Printable content) :
    (kind.lineText content).toList.head? ≠ some '#' := by
  by_cases ht : kind = .text
  · rw [lineText, if_pos ht]
    exact (h.text ht).2.2
  · obtain ⟨hne, hhead, -⟩ := word_clean kind
    rw [lineText_keyword ht, List.head?_append_of_ne_nil _ hne]
    exact hhead

theorem plain_lineText {x : Lexis} (hx : x.comment = ['#']) {kind : NodeKind} {content : String}
    (h : kind.Printable content) : x.Plain (kind.lineText content).toList := by
  have hcomment : ¬ x.comment <+: (kind.lineText content).toList := by
    intro hpre
    obtain ⟨rest, hrest⟩ := hpre
    rw [hx] at hrest
    exact head?_lineText h (by rw [← hrest]; rfl)
  obtain ⟨hne, -, hword⟩ := word_clean kind
  by_cases ht : kind = .text
  · obtain rfl := ht
    have hcontent : content.toList ≠ [] := mt String.toList_eq_nil_iff.mp (h.text rfl).1
    exact ⟨hcontent, h.trimmed, h.oneLine, h.ended, .inr hcomment⟩
  · have htext := lineText_keyword ht content
    have hlast : ∀ c ∈ (kind.lineText content).toList.getLast?,
        Text.isBlank c = false ∧ c ≠ '\\' := by
      intro c hc
      rw [htext] at hc
      split at hc
      · rw [List.append_nil] at hc
        exact ⟨(hword c (List.mem_of_getLast? hc)).1, (hword c (List.mem_of_getLast? hc)).2.2⟩
      · next hcontent =>
          rw [List.append_cons, List.getLast?_append_of_ne_nil _
            (mt String.toList_eq_nil_iff.mp hcontent)] at hc
          refine ⟨(Text.trim_eq_self.mp h.trimmed).2 c hc, ?_⟩
          rintro rfl
          exact h.ended hc
    refine ⟨?_, Text.trim_eq_self.mpr ⟨?_, fun c hc => (hlast c hc).1⟩, ?_, ?_, .inr hcomment⟩
    · rw [htext]
      exact List.append_ne_nil_of_left_ne_nil hne _
    · intro c hc
      rw [htext, List.head?_append_of_ne_nil _ hne] at hc
      exact (hword c (List.mem_of_mem_head? hc)).1
    · rw [htext]
      intro hn
      rcases List.mem_append.mp hn with hn | hn
      · exact (hword _ hn).2.1 rfl
      · split at hn
        · cases hn
        · rcases List.mem_cons.mp hn with hn | hn
          · cases hn
          · exact h.oneLine hn
    · intro hl
      exact (hlast _ hl).2 rfl

theorem nodeOf_lineText {kind : NodeKind} {content : String} (hp : kind ≠ .program)
    (h : kind.Printable content) (number : Nat) (nesting : List String) :
    Tree.nodeOf ⟨number, nesting, kind.lineText content⟩ = ⟨kind, number, content, []⟩ := by
  unfold Tree.nodeOf
  by_cases ht : kind = .text
  · obtain rfl := ht
    simp [lineText, (h.text rfl).2.1, h.trimmed]
  · have hkeyword := ofKeyword?_word kind (mem_keywords hp ht)
    obtain ⟨hne, -, hword⟩ := word_clean kind
    have hblank : ∀ c ∈ kind.word.toList, Text.isBlank c = false := fun c hc => (hword c hc).1
    have hsplit : Text.splitWord (kind.lineText content).toList =
        (kind.word.toList, content.toList) := by
      rw [lineText_keyword ht]
      split
      · next hcontent => rw [List.append_nil, Text.splitWord_word hblank, hcontent]; rfl
      · next hcontent =>
          exact Text.splitWord_append hblank hne h.trimmed
            (mt String.toList_eq_nil_iff.mp hcontent)
    simp [hsplit, hkeyword]

end NodeKind
end Flowchart
