import Flowchart.Proofs.Pseudocode.Shape
import Flowchart.Proofs.Pseudocode.Trail
/-! The rules and the grammar. Siblings of a tidy tree keep the rules just when the grammar derives
them at the place that their parent and the sibling before them fix. -/
namespace Flowchart.Rules
open Flowchart.Tree (Tidy)

def scopeOf (ancestors : List NodeKind) : Scope where
  leave := ancestors.any fun k => k.isLoop || k == .switch
  resume := ancestors.any NodeKind.isLoop

def placeAfter : Option NodeKind → Place
  | some .ifTest | some .elifTest => .chain
  | some .doLoop => .closing
  | some .tryBlock => .firstHandler
  | some .except => .handlers
  | _ => .block

/-- The place below a parent after a sibling. -/
def placeBelow (parent : NodeKind) (previous : Option NodeKind) : Place :=
  match parent, previous with
  | .switch, none => .firstCase
  | .switch, some _ => .cases
  | _, _ => placeAfter previous

structure Demands (parent : NodeKind) (previous : Option NodeKind) (nodes : List Node) : Prop where
  closing : previous = some .doLoop → nodes.head?.map Node.kind = some .whileLoop
  handler : previous = some .tryBlock → nodes.head?.map Node.kind = some .except
  cases : parent = .switch → (previous = none → nodes ≠ []) ∧ ∀ node ∈ nodes, node.kind = .case

theorem check_eq_ok {ancestors : List NodeKind} {node : Node} (h : check ancestors node = .ok ()) :
    checkBlock node = .ok () ∧ checkScope ancestors node = .ok () ∧
      checkPlaces node.kind none node.children = .ok () ∧
      checkAll (node.kind :: ancestors) node.children = .ok () := by
  obtain ⟨kind, line, content, children⟩ := node
  rw [check_eq] at h
  obtain ⟨⟨⟩, hblock, h⟩ := exists_of_bind_eq_ok h
  obtain ⟨⟨⟩, hscope, h⟩ := exists_of_bind_eq_ok h
  obtain ⟨⟨⟩, hplaces, h⟩ := exists_of_bind_eq_ok h
  exact ⟨hblock, hscope, hplaces, h⟩

theorem checkAll_cons {ancestors : List NodeKind} {node : Node} {rest : List Node}
    (h : checkAll ancestors (node :: rest) = .ok ()) :
    check ancestors node = .ok () ∧ checkAll ancestors rest = .ok () := by
  rw [checkAll_eq] at h
  obtain ⟨⟨⟩, hnode, h⟩ := exists_of_bind_eq_ok h
  exact ⟨hnode, h⟩

theorem checkPlaces_cons {parent : NodeKind} {previous : Option NodeKind} {node : Node}
    {rest : List Node} (h : checkPlaces parent previous (node :: rest) = .ok ()) :
    checkPlace parent previous (rest.head?.map Node.kind) node = .ok () ∧
      checkPlaces parent (some node.kind) rest = .ok () := by
  unfold checkPlaces at h
  obtain ⟨⟨⟩, hnode, h⟩ := exists_of_bind_eq_ok h
  exact ⟨hnode, h⟩

theorem ok_of_ite {p : Prop} [Decidable p] {e : ParseError}
    (h : (if p then Except.ok () else .error e) = .ok ()) : p := by
  by_cases hp : p
  · exact hp
  · rw [if_neg hp] at h
    cases h

theorem demands_of_checkBlock {node : Node} (h : checkBlock node = .ok ()) :
    Demands node.kind none node.children := by
  refine ⟨nofun, nofun, fun hkind => ?_⟩
  unfold checkBlock at h
  rw [hkind] at h
  dsimp only at h
  split at h
  · cases h
  · next hne =>
      refine ⟨fun _ => by simpa using hne, fun child hmem => ?_⟩
      split at h
      · cases h
      · next hnone => simpa using List.find?_eq_none.mp hnone child hmem

theorem demands_of_checkPlace {parent : NodeKind} {previous : Option NodeKind} {node : Node}
    {rest : List Node} (hd : Demands parent previous (node :: rest))
    (h : checkPlace parent previous (rest.head?.map Node.kind) node = .ok ()) :
    Demands parent (some node.kind) rest := by
  refine ⟨fun hkind => ?_, fun hkind => ?_, fun hp => ⟨nofun, fun child hmem => ?_⟩⟩
  · rw [Option.some.injEq] at hkind
    unfold checkPlace at h
    rw [hkind] at h
    exact ok_of_ite h
  · rw [Option.some.injEq] at hkind
    unfold checkPlace at h
    rw [hkind] at h
    exact ok_of_ite h
  · exact (hd.cases hp).2 child (List.mem_cons_of_mem _ hmem)

theorem placeBelow_eq {parent : NodeKind} (hp : parent ≠ .switch) :
    placeBelow parent = placeAfter := by
  funext previous
  unfold placeBelow
  split
  · exact absurd rfl hp
  · exact absurd rfl hp
  · rfl

theorem grammar_after {previous : Option NodeKind} {s : Scope} {nodes : List Node}
    (hdo : previous ≠ some .doLoop) (htry : previous ≠ some .tryBlock)
    (h : Grammar .block s nodes) : Grammar (placeAfter previous) s nodes := by
  unfold placeAfter
  split
  · exact .chainEnd h
  · exact .chainEnd h
  · exact absurd rfl hdo
  · exact absurd rfl htry
  · exact .lastHandler h
  · exact h

def isStatement : NodeKind → Bool
  | .program | .elifTest | .elseBlock | .case | .except => false
  | _ => true

theorem grammar_statement {ancestors : List NodeKind} {kind : NodeKind} {line : Nat}
    {content : String} {children rest : List Node} (hkind : isStatement kind = true)
    (hblock : checkBlock ⟨kind, line, content, children⟩ = .ok ())
    (hscope : checkScope ancestors ⟨kind, line, content, children⟩ = .ok ())
    (htext : kind = .text → children = [])
    (below : Grammar (placeBelow kind none) (scopeOf (kind :: ancestors)) children)
    (after : Grammar (placeAfter (some kind)) (scopeOf ancestors) rest) :
    Grammar .block (scopeOf ancestors) (⟨kind, line, content, children⟩ :: rest) := by
  have leaf (hleaf : kind = .breakJump ∨ kind = .continueJump ∨ kind = .pass) :
      children = [] := by
    cases children with
    | nil => rfl
    | cons child others => rcases hleaf with rfl | rfl | rfl <;> cases hblock
  cases kind with
  | program => cases hkind
  | elifTest => cases hkind
  | elseBlock => cases hkind
  | case => cases hkind
  | except => cases hkind
  | forLoop => cases hblock
  | text =>
      obtain rfl := htext rfl
      exact .text after
  | pass =>
      obtain rfl := leaf (.inr (.inr rfl))
      exact .pass after
  | breakJump =>
      obtain rfl := leaf (.inl rfl)
      exact .breakJump (ok_of_ite hscope) after
  | continueJump =>
      obtain rfl := leaf (.inr (.inl rfl))
      exact .continueJump (ok_of_ite hscope) after
  | ifTest => exact .ifTest below after
  | whileLoop => exact .whileLoop below after
  | doLoop => exact .doLoop below after
  | switch => exact .switch below after
  | tryBlock => exact .tryBlock below after

theorem grammar_sibling {parent : NodeKind} {previous next : Option NodeKind}
    {ancestors : List NodeKind} {kind : NodeKind} {line : Nat} {content : String} {children rest : List Node}
    (hp : parent ≠ .switch) (htry : previous ≠ some .tryBlock)
    (hs : ¬ isStatement kind = true) (hkind : kind ≠ .program)
    (hplace : checkPlace parent previous next ⟨kind, line, content, children⟩ = .ok ())
    (below : Grammar (placeBelow kind none) (scopeOf (kind :: ancestors)) children)
    (after : Grammar (placeAfter (some kind)) (scopeOf ancestors) rest) :
    Grammar (placeAfter previous) (scopeOf ancestors) (⟨kind, line, content, children⟩ :: rest) := by
  have chain (h : followsTest previous = true) : placeAfter previous = .chain := by
    simp only [followsTest, Bool.or_eq_true, beq_iff_eq] at h
    rcases h with rfl | rfl <;> rfl
  cases kind with
  | program => exact absurd rfl hkind
  | elifTest =>
      rw [chain (ok_of_ite hplace)]
      exact .elifTest below after
  | elseBlock =>
      rw [chain (ok_of_ite hplace)]
      exact .elseBlock below after
  | case => exact absurd (ok_of_ite hplace) hp
  | except =>
      obtain rfl := (ok_of_ite hplace).resolve_left htry
      exact .nextHandler (.except below after)
  | _ => exact absurd rfl hs

/-- Tidy siblings that keep the rules are those that the grammar derives. -/
theorem grammar_of_check {parent : NodeKind} {previous : Option NodeKind}
    {ancestors : List NodeKind} {nodes : List Node} (tidy : Tidy previous nodes)
    (hd : Demands parent previous nodes) (places : checkPlaces parent previous nodes = .ok ())
    (all : checkAll ancestors nodes = .ok ()) :
    Grammar (placeBelow parent previous) (scopeOf ancestors) nodes := by
  induction tidy generalizing parent ancestors with
  | @nil previous =>
      by_cases hp : parent = .switch
      · subst hp
        cases previous with
        | none => exact absurd rfl ((hd.cases rfl).1 rfl)
        | some kind => exact .lastCase
      · rw [placeBelow_eq hp]
        exact grammar_after (fun h => nomatch hd.closing h) (fun h => nomatch hd.handler h) .nil
  | @cons previous kind line content children rest hkind htext hclosing _ _ ihc ihr =>
      obtain ⟨hnode, hall⟩ := checkAll_cons all
      obtain ⟨hplace, hplaces⟩ := checkPlaces_cons places
      obtain ⟨hblock, hscope, hinner, hbelow⟩ := check_eq_ok hnode
      have below := ihc (demands_of_checkBlock hblock) hinner hbelow
      have after := ihr (demands_of_checkPlace hd hplace) hplaces hall
      dsimp only at below after
      by_cases hp : parent = .switch
      · subst hp
        obtain rfl : kind = .case := (hd.cases rfl).2 _ List.mem_cons_self
        have first : Grammar .firstCase (scopeOf ancestors)
            (⟨.case, line, content, children⟩ :: rest) := .firstCase below after
        cases previous with
        | none => exact first
        | some k => exact .nextCase first
      · rw [placeBelow_eq hp] at after ⊢
        by_cases hdo : previous = some .doLoop
        · obtain rfl : kind = .whileLoop := Option.some.inj (hd.closing hdo)
          obtain rfl := hclosing rfl hdo
          subst hdo
          exact .closing after
        · by_cases htry : previous = some .tryBlock
          · obtain rfl : kind = .except := Option.some.inj (hd.handler htry)
            subst htry
            exact .except below after
          · by_cases hs : isStatement kind = true
            · exact grammar_after hdo htry
                (grammar_statement hs hblock hscope htext below after)
            · exact grammar_sibling hp htry hs hkind hplace below after

/-- What the parser returns is a program, whatever the source. -/
theorem isProgram_of_parse {x : Lexis} {source : String} {program : Node}
    (h : x.parse source = .ok program) : program.IsProgram := by
  obtain ⟨lines, -, h⟩ := exists_of_bind_eq_ok h
  obtain ⟨built, hbuild, h⟩ := exists_of_bind_eq_ok h
  obtain ⟨⟨⟩, hcheck, h⟩ := exists_of_bind_eq_ok h
  cases h
  obtain ⟨statements, rfl, tidy⟩ := Tree.tidy_of_build hbuild
  obtain ⟨-, -, hplaces, hall⟩ := check_eq_ok hcheck
  have demands : Demands .program none statements := ⟨nofun, nofun, nofun⟩
  exact ⟨statements, rfl, grammar_of_check tidy demands hplaces hall⟩

/-- What a sibling needs before it, or above it, to stand at a place. -/
def Admits (parent : NodeKind) (previous : Option NodeKind) : Place → Prop
  | .block | .closing => True
  | .chain => followsTest previous = true
  | .firstCase | .cases => parent = .switch
  | .firstHandler | .handlers => previous = some .tryBlock ∨ previous = some .except

def Keep (parent : NodeKind) (previous : Option NodeKind) (ancestors : List NodeKind)
    (nodes : List Node) : Prop :=
  checkPlaces parent previous nodes = .ok () ∧ checkAll ancestors nodes = .ok ()

theorem keep_cons {parent : NodeKind} {previous : Option NodeKind} {ancestors : List NodeKind}
    {node : Node} {rest : List Node}
    (hplace : checkPlace parent previous (rest.head?.map Node.kind) node = .ok ())
    (hblock : checkBlock node = .ok ()) (hscope : checkScope ancestors node = .ok ())
    (below : Keep node.kind none (node.kind :: ancestors) node.children)
    (after : Keep parent (some node.kind) ancestors rest) :
    Keep parent previous ancestors (node :: rest) := by
  obtain ⟨kind, line, content, children⟩ := node
  have hcheck : check ancestors ⟨kind, line, content, children⟩ = .ok () :=
    (check_eq ..).trans (bind_eq_ok hblock (bind_eq_ok hscope (bind_eq_ok below.1 below.2)))
  exact ⟨bind_eq_ok hplace after.1, (checkAll_eq ..).trans (bind_eq_ok hcheck after.2)⟩

theorem cases_of_grammar {place : Place} {s : Scope} {nodes : List Node}
    (h : Grammar place s nodes) (hplace : place = .firstCase ∨ place = .cases) :
    ∀ node ∈ nodes, node.kind = .case := by
  induction h with
  | firstCase _ _ _ ih =>
      intro node hmem
      rcases List.mem_cons.mp hmem with rfl | hrest
      · rfl
      · exact ih (.inr rfl) node hrest
  | nextCase _ ih => exact ih (.inl rfl)
  | lastCase => nofun
  | _ => simp at hplace

theorem checkBlock_switch {s : Scope} {line : Nat} {content : String} {cases : List Node}
    (h : Grammar .firstCase s cases) : checkBlock ⟨.switch, line, content, cases⟩ = .ok () := by
  have hkind := cases_of_grammar h (.inl rfl)
  have hfind : cases.find? (·.kind != .case) = none :=
    List.find?_eq_none.mpr fun node hmem => by simp [hkind node hmem]
  cases h with
  | firstCase hbody hrest => simp only [checkBlock, List.isEmpty_cons, hfind]; rfl

/-- Siblings that the grammar derives keep the rules. -/
theorem keep_of_grammar {place : Place} {s : Scope} {nodes : List Node}
    (h : Grammar place s nodes) {parent : NodeKind} {previous : Option NodeKind}
    {ancestors : List NodeKind} (hs : s = scopeOf ancestors)
    (hplace : Admits parent previous place) : Keep parent previous ancestors nodes := by
  induction h generalizing parent previous ancestors with
  | nil => exact ⟨rfl, rfl⟩
  | text _ ih => exact keep_cons rfl rfl rfl ⟨rfl, rfl⟩ (ih hs trivial)
  | pass _ ih => exact keep_cons rfl rfl rfl ⟨rfl, rfl⟩ (ih hs trivial)
  | breakJump hleave _ ih =>
      subst hs
      exact keep_cons rfl rfl (if_pos hleave) ⟨rfl, rfl⟩ (ih rfl trivial)
  | continueJump hresume _ ih =>
      subst hs
      exact keep_cons rfl rfl (if_pos hresume) ⟨rfl, rfl⟩ (ih rfl trivial)
  | ifTest _ _ ihb ihr => exact keep_cons rfl rfl rfl (ihb hs trivial) (ihr hs rfl)
  | whileLoop _ _ ihb ihr => exact keep_cons rfl rfl rfl (ihb rfl trivial) (ihr hs trivial)
  | doLoop _ hrest ihb ihr =>
      refine keep_cons (if_pos ?_) rfl rfl (ihb rfl trivial) (ihr hs trivial)
      cases hrest
      rfl
  | switch hcases _ ihb ihr =>
      subst hs
      exact keep_cons rfl (checkBlock_switch hcases) rfl (ihb rfl rfl) (ihr rfl trivial)
  | tryBlock _ hrest ihb ihr =>
      refine keep_cons (if_pos ?_) rfl rfl (ihb hs trivial) (ihr hs (.inl rfl))
      cases hrest
      rfl
  | elifTest _ _ ihb ihr => exact keep_cons (if_pos hplace) rfl rfl (ihb hs trivial) (ihr hs rfl)
  | elseBlock _ _ ihb ihr =>
      exact keep_cons (if_pos hplace) rfl rfl (ihb hs trivial) (ihr hs trivial)
  | chainEnd _ ih => exact ih hs trivial
  | closing _ ih => exact keep_cons rfl rfl rfl ⟨rfl, rfl⟩ (ih hs trivial)
  | firstCase _ _ ihb ihr =>
      exact keep_cons (if_pos hplace) rfl rfl (ihb hs trivial) (ihr hs hplace)
  | nextCase _ ih => exact ih hs hplace
  | lastCase => exact ⟨rfl, rfl⟩
  | except _ _ ihb ihr =>
      exact keep_cons (if_pos hplace) rfl rfl (ihb hs trivial) (ihr hs (.inr rfl))
  | nextHandler _ ih => exact ih hs hplace
  | lastHandler _ ih => exact ih hs trivial

end Flowchart.Rules
