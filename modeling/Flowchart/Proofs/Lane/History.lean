import Flowchart.Lane.Pool
import Flowchart.Proofs.Lane.Canonical
/-! What was asked of each set of a desk. Names that stand for one set share one log; a detached copy
starts with the log of its source and goes on alone. Main statement: after any run, each name shows
the one canonical form of its log. -/
namespace Flowchart
open Scalar (isNumber)

/-- What was asked of a set: its floor and the requests made since. -/
structure Log (α : Type) where
  floor : Option α
  requests : List (α × α)

/-- A position is asked for by some request. -/
def Log.Asks {α : Type} [Scalar α] (l : Log α) (x : α) : Prop :=
  ∃ q ∈ l.requests, RangeSet.Asked l.floor q.1 q.2 x

/-- Logs by marks, and the mark of each name. -/
structure Ledger (α : Type) where
  count : Nat
  mark : String → Option Nat
  log : Nat → Log α

namespace Ledger
variable {α : Type} [Scalar α]

def empty : Ledger α := ⟨0, fun _ => none, fun _ => ⟨Scalar.least, []⟩⟩

def of (l : Ledger α) (name : String) : Log α :=
  match l.mark name with
  | some k => l.log k
  | none => ⟨Scalar.least, []⟩

def start (l : Ledger α) (name : String) (new : Log α) : Ledger α :=
  ⟨l.count + 1, Function.update l.mark name (some l.count), Function.update l.log l.count new⟩

def note (l : Ledger α) (name : String) (requests : List (α × α)) : Ledger α :=
  match l.mark name with
  | some k =>
    { l with log := Function.update l.log k ⟨(l.log k).floor, (l.log k).requests ++ requests⟩ }
  | none => l

def update (l : Ledger α) (shown : String → List (Span α)) : RangeInput α → Ledger α
  | .create name floor => l.start name ⟨floor.orElse fun _ => Scalar.least, []⟩
  | .share name source =>
    match l.mark source with
    | some k => { l with mark := Function.update l.mark name (some k) }
    | none => l
  | .detach name source => l.start name (l.of source)
  | .reserve name start size => l.note name [(start, size)]
  | .fold name other => l.note name (RangeSet.requests (shown other))

def record : Ledger α → RangeDesk α → List (RangeInput α) → Ledger α
  | l, _, [] => l
  | l, d, input :: rest => record (l.update (fun name => (d.ranges name).spans) input) (d.update input) rest

end Ledger

def RangeInput.ask {α : Type} (request : String × α × α) : RangeInput α :=
  .reserve request.1 request.2.1 request.2.2

/-- A set is the canonical form of a log. -/
structure Settled {α : Type} [Scalar α] (r : RangeSet α) (l : Log α) : Prop where
  canonical : RangeSet.Canonical r
  floor : r.floor = l.floor
  holds : ∀ x, r.Holds x ↔ l.Asks x

section Settled
variable {α : Type} [Scalar α]

theorem settled_new (floor : Option α) : Settled ⟨floor, []⟩ ⟨floor, []⟩ where
  canonical := RangeSet.canonical_nil floor
  floor := rfl
  holds x := by simp [RangeSet.Holds, Log.Asks]

variable [LawfulScalar α]

theorem Settled.reserveAll {r : RangeSet α} {l : Log α} (h : Settled r l)
    (requests : List (α × α)) :
    Settled (r.reserveAll requests) ⟨l.floor, l.requests ++ requests⟩ := by
  obtain ⟨hcanonical, hfloor, hholds⟩ := RangeSet.reserveAll_spec h.canonical requests
  refine ⟨hcanonical, hfloor.trans h.floor, fun x => ?_⟩
  rw [hholds, h.holds, h.floor]
  simp only [Log.Asks, List.mem_append, or_and_right, exists_or]

theorem Settled.same {r r' : RangeSet α} {l l' : Log α} (h : Settled r l) (h' : Settled r' l')
    (hasks : ∀ x, l.Asks x ↔ l'.Asks x) : List.Forall₂ RangeSet.Same r.spans r'.spans :=
  RangeSet.Agree.same (fun x => (h.holds x).trans ((hasks x).trans (h'.holds x).symm))
    h.canonical.toCoalesced h'.canonical.toCoalesced

end Settled

theorem find?_rebind {β : Type} (entries : List (String × β)) (name : String) (v : β) :
    (fun other => (((name, v) :: entries.filter (·.1 != name)).find? (·.1 == other)).map Prod.snd) =
      Function.update (fun other => (entries.find? (·.1 == other)).map Prod.snd) name (some v) := by
  funext other
  by_cases hsame : other = name
  · subst hsame
    simp
  · have hskip : (name == other) = false := beq_eq_false_iff_ne.mpr (Ne.symm hsame)
    rw [Function.update_of_ne hsame, List.find?_cons, hskip, List.find?_filter]
    refine congrArg (fun p => (entries.find? p).map Prod.snd) ?_
    funext entry
    by_cases hentry : entry.1 = other <;> simp [hentry, hsame]

theorem RangeDesk.handle?_bind {α : Type} (d : RangeDesk α) (name : String) (h : Handle) :
    (d.bind name h).handle? = Function.update d.handle? name (some h) :=
  find?_rebind d.names name h

/-- Names stand for the same sets in both, and each set is settled. -/
structure Follows {α : Type} [Scalar α] (l : Ledger α) (d : RangeDesk α) : Prop where
  marks : d.handle? = l.mark
  count : d.pool.sets.length = l.count
  given : ∀ name k, l.mark name = some k → k < l.count
  kept : ∀ k < l.count, Settled (d.pool.get k) (l.log k)

namespace Follows
variable {α : Type} [Scalar α] {l : Ledger α} {d : RangeDesk α}

theorem empty : Follows (α := α) .empty .empty := ⟨rfl, rfl, nofun, nofun⟩

theorem shown (h : Follows l d) (name : String) : Settled (d.ranges name) (l.of name) := by
  unfold RangeDesk.ranges Ledger.of
  rw [h.marks]
  cases hmark : l.mark name with
  | none => exact settled_new Scalar.least
  | some k => exact h.kept k (h.given name k hmark)

theorem store (h : Follows l d) (name : String) {r : RangeSet α} {new : Log α}
    (hnew : Settled r new) : Follows (l.start name new) (d.store name r) where
  marks := by
    unfold RangeDesk.store Ledger.start
    rw [RangeDesk.handle?_bind]
    dsimp only [Pool.add]
    rw [h.count, ← h.marks]
    rfl
  count := by
    change (d.pool.sets ++ [r]).length = l.count + 1
    rw [List.length_append, h.count, List.length_singleton]
  given other k hk := by
    change Function.update l.mark name (some l.count) other = some k at hk
    by_cases hsame : other = name
    · subst hsame
      rw [Function.update_self, Option.some.injEq] at hk
      exact hk ▸ Nat.lt_succ_self _
    · rw [Function.update_of_ne hsame] at hk
      exact Nat.lt_succ_of_lt (h.given other k hk)
  kept k hk := by
    change Settled ((d.pool.add r).2.get k) (Function.update l.log l.count new k)
    rcases Nat.lt_succ_iff_lt_or_eq.mp hk with hlt | rfl
    · rw [Function.update_of_ne hlt.ne, Pool.get_add_of_lt _ _ (h.count ▸ hlt)]
      exact h.kept k hlt
    · rw [Function.update_self, ← h.count]
      exact (Pool.get_add_self d.pool r).symm ▸ hnew

theorem share (h : Follows l d) (name : String) {source : String} {k : Nat}
    (hk : l.mark source = some k) :
    Follows { l with mark := Function.update l.mark name (some k) } (d.bind name k) where
  marks := by rw [RangeDesk.handle?_bind, h.marks]
  count := h.count
  given other j hj := by
    change Function.update l.mark name (some k) other = some j at hj
    by_cases hsame : other = name
    · subst hsame
      rw [Function.update_self, Option.some.injEq] at hj
      exact hj ▸ h.given source k hk
    · rw [Function.update_of_ne hsame] at hj
      exact h.given other j hj
  kept := h.kept

variable [LawfulScalar α]

theorem modify (h : Follows l d) (name : String) (requests : List (α × α)) :
    Follows (l.note name requests) (d.modify name fun r => r.reserveAll requests) := by
  unfold RangeDesk.modify Ledger.note
  rw [h.marks]
  cases hmark : l.mark name with
  | none => exact h
  | some k =>
      have hk := h.given name k hmark
      refine ⟨h.marks, (List.length_set ..).trans h.count, h.given, fun j hj => ?_⟩
      dsimp only
      by_cases hsame : j = k
      · subst hsame
        rw [Function.update_self, Pool.get_set_self _ _ (h.count ▸ hk)]
        exact (h.kept j hk).reserveAll requests
      · rw [Function.update_of_ne hsame, Pool.get_set_of_ne _ _ (Ne.symm hsame)]
        exact h.kept j hj

theorem update (h : Follows l d) (input : RangeInput α) :
    Follows (l.update (fun name => (d.ranges name).spans) input) (d.update input) := by
  cases input with
  | create name floor =>
      cases floor with
      | none => exact h.store name (settled_new Scalar.least)
      | some f => exact h.store name (settled_new (some f))
  | share name source =>
      unfold Ledger.update RangeDesk.update
      dsimp only
      rw [h.marks]
      cases hmark : l.mark source with
      | none => exact h
      | some k => exact h.share name hmark
  | detach name source => exact h.store name (h.shown source)
  | reserve name start size => exact h.modify name [(start, size)]
  | fold name other =>
      have hfold := h.modify name (RangeSet.requests (d.ranges other).spans)
      simp only [← RangeSet.fold_eq] at hfold
      exact hfold

theorem replay (h : Follows l d) (inputs : List (RangeInput α)) :
    Follows (l.record d inputs) (d.replay inputs) := by
  induction inputs generalizing l d with
  | nil => exact h
  | cons input rest ih => exact ih (h.update input)

end Follows

section Order
variable {α : Type} [Scalar α]

theorem RangeDesk.replay_append (d : RangeDesk α) (inputs more : List (RangeInput α)) :
    d.replay (inputs ++ more) = (d.replay inputs).replay more := by
  induction inputs generalizing d with
  | nil => rfl
  | cons input rest ih => exact ih (d.update input)

theorem Ledger.record_ask (l : Ledger α) (d : RangeDesk α) (requests : List (String × α × α)) :
    (l.record d (requests.map .ask)).mark = l.mark ∧
      ∀ k, ((l.record d (requests.map .ask)).log k).floor = (l.log k).floor ∧
        ∀ q, q ∈ ((l.record d (requests.map .ask)).log k).requests ↔
          q ∈ (l.log k).requests ∨ ∃ name, (name, q) ∈ requests ∧ l.mark name = some k := by
  induction requests generalizing l d with
  | nil => exact ⟨rfl, fun k => ⟨rfl, fun q => (or_iff_left (by simp)).symm⟩⟩
  | cons request rest ih =>
      obtain ⟨hmark, hlog⟩ := ih (l.note request.1 [request.2]) (d.update (.ask request))
      have hstep : (l.note request.1 [request.2]).mark = l.mark ∧
          ∀ k, ((l.note request.1 [request.2]).log k).floor = (l.log k).floor ∧
            ∀ q, q ∈ ((l.note request.1 [request.2]).log k).requests ↔
              q ∈ (l.log k).requests ∨ q = request.2 ∧ l.mark request.1 = some k := by
        unfold Ledger.note
        cases hname : l.mark request.1 with
        | none => exact ⟨rfl, fun k => ⟨rfl, fun q => by simp⟩⟩
        | some j =>
            refine ⟨rfl, fun k => ?_⟩
            by_cases hk : k = j
            · subst hk
              simp
            · simp [Function.update_of_ne hk, Ne.symm hk]
      obtain ⟨hsame, hnoted⟩ := hstep
      refine ⟨hmark.trans hsame, fun k => ⟨(hlog k).1.trans (hnoted k).1, fun q => ?_⟩⟩
      refine ((hlog k).2 q).trans ?_
      rw [(hnoted k).2, hsame, or_assoc]
      refine or_congr_right ⟨?_, ?_⟩
      · rintro (⟨rfl, hk⟩ | ⟨name, hmem, hk⟩)
        · exact ⟨request.1, List.mem_cons_self, hk⟩
        · exact ⟨name, List.mem_cons_of_mem _ hmem, hk⟩
      · rintro ⟨name, hmem, hk⟩
        rcases List.mem_cons.mp hmem with rfl | hrest
        · exact .inl ⟨rfl, hk⟩
        · exact .inr ⟨name, hrest, hk⟩

/-- Reservations made in another order ask for the same. -/
theorem Ledger.asks_perm (l : Ledger α) (d : RangeDesk α) {requests requests' : List (String × α × α)}
    (h : requests.Perm requests') (name : String) (x : α) :
    ((l.record d (requests.map .ask)).of name).Asks x ↔
      ((l.record d (requests'.map .ask)).of name).Asks x := by
  obtain ⟨hmark, hlog⟩ := l.record_ask d requests
  obtain ⟨hmark', hlog'⟩ := l.record_ask d requests'
  unfold Ledger.of
  rw [hmark, hmark']
  cases l.mark name with
  | none => rfl
  | some k =>
      simp only [Log.Asks, (hlog k).1, (hlog' k).1, (hlog k).2, (hlog' k).2, h.mem_iff]

end Order

/-- Whatever is done with a family of names, in single precision and with any arguments: what each
name shows is finite, in order, without contact and above its floor, it is exactly what was asked for
through the names that share it, and further reservations may come in any order. -/
theorem replay_ranges_canonical (inputs : List (RangeInput Float32)) (name : String) :
    let shown := (RangeDesk.empty.replay inputs).ranges name
    let asked := (Ledger.empty.record .empty inputs).of name
    (RangeSet.Canonical shown ∧ shown.floor = asked.floor ∧ ∀ x, shown.Holds x ↔ asked.Asks x) ∧
      ∀ requests requests' : List (String × Float32 × Float32), requests.Perm requests' →
        List.Forall₂ RangeSet.Same
          ((RangeDesk.empty.replay (inputs ++ requests.map .ask)).ranges name).spans
          ((RangeDesk.empty.replay (inputs ++ requests'.map .ask)).ranges name).spans := by
  have hrun := Follows.empty.replay inputs
  obtain ⟨hcanonical, hfloor, hholds⟩ := hrun.shown name
  refine ⟨⟨hcanonical, hfloor, hholds⟩, fun requests requests' hperm => ?_⟩
  rw [RangeDesk.replay_append, RangeDesk.replay_append]
  exact ((hrun.replay _).shown name).same ((hrun.replay _).shown name)
    (Ledger.asks_perm _ _ hperm name)

def Sample.sharedRun : List (RangeInput Float32) :=
  [.create "a" (some 1), .share "b" "a", .reserve "b" 0 2, .detach "c" "a", .reserve "c" 5 1,
    .reserve "a" (0 / 0) 1, .fold "b" "b"]

/-- The sharing names show one range, and two more requests may be swapped. -/
theorem replay_ranges_canonical_shared :
    ((RangeDesk.empty.replay Sample.sharedRun).ranges "a").spans == [⟨1, 2⟩] ∧
      ([("a", 4, 1), ("b", 2, 1)] : List (String × Float32 × Float32)).Perm
        [("b", 2, 1), ("a", 4, 1)] ∧
      List.Forall₂ RangeSet.Same
        ((RangeDesk.empty.replay
          (Sample.sharedRun ++ [("a", 4, 1), ("b", 2, 1)].map .ask)).ranges "a").spans
        ((RangeDesk.empty.replay
          (Sample.sharedRun ++ [("b", 2, 1), ("a", 4, 1)].map .ask)).ranges "a").spans :=
  ⟨by decide +kernel, .swap .., (replay_ranges_canonical Sample.sharedRun "a").2 _ _ (.swap ..)⟩

end Flowchart
