import Flowchart.Chart.StrandDesk
import Flowchart.Proofs.Lane.Cover
import Flowchart.Proofs.Lane.History
/-! Bands that strands take side by side, in any order. A root and each loop body open a scope, a pair of
lanes that the strands in it share; the bookings tell what was taken in each scope. Main statement: a band
is clear of all it has to dodge, and what a loop body takes is seen in no scope around it. -/
namespace Flowchart
open Function (update)

/-- The scopes of the strands and the bands taken in them. `origin` is the strand from which a loop body
was entered, `around` lists a scope and those around it. -/
structure Bookings where
  count : Nat
  scope : String → Option Nat
  origin : String → Option String
  around : Nat → List Nat
  west : Nat → List (Span ℚ)
  east : Nat → List (Span ℚ)

namespace Bookings

def root (name : String) : Bookings where
  count := 1
  scope := update (fun _ => none) name (some 0)
  origin _ := none
  around _ := [0]
  west _ := []
  east _ := []

/-- What was taken in the western lane that a strand uses. -/
def westOf (b : Bookings) (name : String) : List (Span ℚ) := (b.scope name).elim [] b.west

/-- What was taken in the eastern lane that a strand uses. -/
def eastOf (b : Bookings) (name : String) : List (Span ℚ) := (b.scope name).elim [] b.east

def beside (b : Bookings) (name source : String) : Bookings :=
  { b with
    scope := update b.scope name (b.scope source)
    origin := update b.origin name none }

/-- A loop body: nothing is taken west of it, and east of it what its source sees by then. -/
def enter (b : Bookings) (name source : String) : Bookings where
  count := b.count + 1
  scope := update b.scope name (some b.count)
  origin := update b.origin name (some source)
  around := update b.around b.count (b.count :: (b.scope source).elim [] b.around)
  west := update b.west b.count []
  east := update b.east b.count (b.eastOf source)

/-- Takes bands in the scope of a strand. -/
def take (b : Bookings) (name : String) (west east : List (Span ℚ)) : Bookings :=
  match b.scope name with
  | some k =>
    { b with
      west := update b.west k (b.west k ++ west)
      east := update b.east k (b.east k ++ east) }
  | none => b

/-- The bookings after an input and its answer. -/
def note (b : Bookings) : StrandInput ℚ → StrandAnswer ℚ → Bookings
  | .fork name source, _ => b.beside name source
  | .switchHolder name source, _ => b.beside name source
  | .loopBody name source _, _ => b.enter name source
  | .reclaim name body, _ => b.take name (b.westOf body) (b.eastOf body)
  | .takeBand name _ size, .position y => b.take name [⟨y, y + size⟩] []
  | .takeExit name _ size east, .position y =>
    b.take name [⟨y, y + size⟩] (if east then [⟨y, y + size⟩] else [])
  | _, _ => b

/-- What callers may ask for: new names for new strands, a loop body given back to where it was entered
from, and bands of some size from the reach of the strand on. -/
def Allows (b : Bookings) (d : StrandDesk ℚ) : StrandInput ℚ → Prop
  | .fork name source => d.seat? name = none ∧ (d.seat? source).isSome
  | .switchHolder name source => d.seat? name = none ∧ (d.seat? source).isSome
  | .loopBody name source _ => d.seat? name = none ∧ (d.seat? source).isSome
  | .reclaim name body => b.origin body = some name
  | .takeBand name start size => (∃ c ∈ d.strand? name, c.reach ≤ start) ∧ 0 < size
  | .takeExit name start size _ => (∃ c ∈ d.strand? name, c.reach ≤ start) ∧ 0 < size
  | _ => False

/-- A strand is in a scope or in one that lies in it. -/
def Inside (b : Bookings) (k : Nat) (name : String) : Prop := ∃ j ∈ b.scope name, k ∈ b.around j

end Bookings

/-- The strand that an allowed input is about. -/
def StrandInput.actor? {α : Type} : StrandInput α → Option String
  | .fork _ source => some source
  | .switchHolder _ source => some source
  | .loopBody _ source _ => some source
  | .reclaim name _ => some name
  | .takeBand name _ _ => some name
  | .takeExit name _ _ _ => some name
  | _ => none

/-- The desks that allowed inputs lead to from a single root, with their bookings. -/
inductive Served : Bookings → StrandDesk ℚ → Prop where
  | root (name : String) (pad : ℚ) (debug : Bool) :
      Served (.root name) (StrandDesk.empty.seatNew name (.root pad debug))
  | step {b : Bookings} {d e : StrandDesk ℚ} (input : StrandInput ℚ) {answer : StrandAnswer ℚ} :
      Served b d → b.Allows d input → d.update input = .ok (answer, e) →
      Served (b.note input answer) e

/-- A lane holds exactly some bands. -/
structure Booked (r : RangeSet ℚ) (bands : List (Span ℚ)) : Prop where
  canonical : RangeSet.Canonical r
  cover : r.cover = ⋃ s ∈ bands, Set.Ico s.start s.stop

section Booked
variable {r other : RangeSet ℚ} {bands more : List (Span ℚ)}

theorem booked_nil (floor : Option ℚ) : Booked ⟨floor, []⟩ [] where
  canonical := RangeSet.canonical_nil floor
  cover := by
    ext y
    simp [RangeSet.cover, RangeSet.Holds]

theorem Booked.disjoint (h : Booked r bands) {band : Set ℚ} (hclear : Disjoint band r.cover) :
    ∀ s ∈ bands, Disjoint band (Set.Ico s.start s.stop) := fun s hs =>
  hclear.mono_right (h.cover ▸ Set.subset_iUnion₂_of_subset s hs subset_rfl)

theorem Booked.reserve (h : Booked r bands) {start : ℚ} (hfloor : ∀ f ∈ r.floor, f ≤ start)
    (size : ℚ) : Booked (r.reserve start size) (bands ++ [⟨start, start + size⟩]) where
  canonical := RangeSet.canonical_reserve h.canonical start size
  cover := by
    have habove : {y | y ∈ Set.Ico start (start + size) ∧ ∀ f ∈ r.floor, f ≤ y} =
        Set.Ico start (start + size) := by
      ext y
      exact and_iff_left_of_imp fun hy f hf => (hfloor f hf).trans hy.1
    rw [RangeSet.cover_reserve h.canonical, habove, h.cover]
    simp only [List.mem_append, List.mem_singleton, Set.iUnion_or, Set.iUnion_union_distrib,
      Set.iUnion_iUnion_eq_left]

theorem Booked.fold (h : Booked r bands) (hother : Booked other more)
    (hfloor : ∀ f ∈ r.floor, ∀ y ∈ other.cover, f ≤ y) : Booked (r.fold other) (bands ++ more) where
  canonical := (RangeSet.fold_spec h.canonical other).1
  cover := by
    have habove : {y | y ∈ other.cover ∧ ∀ f ∈ r.floor, f ≤ y} = other.cover := by
      ext y
      exact and_iff_left_of_imp fun hy f hf => hfloor f hf y hy
    rw [RangeSet.cover_fold h.canonical, habove, h.cover, hother.cover]
    simp only [List.mem_append, Set.iUnion_or, Set.iUnion_union_distrib]

end Booked

namespace StrandDesk
variable {α : Type} [Scalar α] {d : StrandDesk α}

def westLane (d : StrandDesk α) (k : Nat) : RangeSet α := d.pool.get (2 * k)

def eastLane (d : StrandDesk α) (k : Nat) : RangeSet α := d.pool.get (2 * k + 1)

omit [Scalar α] in
theorem seat?_put (d : StrandDesk α) (name : String) (s : Seat α) :
    (d.put name s).seat? = Function.update d.seat? name (some s) := find?_rebind d.seats name s

theorem lanes_save {s : Seat α} {k : Nat} (hwest : s.west = 2 * k) (heast : s.east = 2 * k + 1)
    (hk : 2 * k + 1 < d.pool.sets.length) (name : String) (c : Strand α) :
    (d.save name s c).westLane = Function.update d.westLane k c.lanes.west ∧
      (d.save name s c).eastLane = Function.update d.eastLane k c.lanes.east := by
  have hpool : (d.save name s c).pool = (d.pool.set (2 * k) c.lanes.west).set (2 * k + 1) c.lanes.east := by
    rw [← heast, ← hwest]
    rfl
  have hlength : 2 * k + 1 < (d.pool.set (2 * k) c.lanes.west).sets.length := by
    rw [Pool.set, List.length_set]
    exact hk
  constructor
  · funext j
    have hodd : 2 * k + 1 ≠ 2 * j := by omega
    unfold westLane
    rw [hpool, Pool.get_set_of_ne _ _ hodd]
    by_cases hj : j = k
    · subst hj
      rw [Function.update_self, Pool.get_set_self _ _ ((Nat.lt_succ_self _).trans hk)]
    · have hother : 2 * k ≠ 2 * j := by omega
      rw [Function.update_of_ne hj, Pool.get_set_of_ne _ _ hother]
  · funext j
    unfold eastLane
    rw [hpool]
    by_cases hj : j = k
    · subst hj
      rw [Function.update_self, Pool.get_set_self _ _ hlength]
    · have hother : 2 * k + 1 ≠ 2 * j + 1 := by omega
      have hodd : 2 * k ≠ 2 * j + 1 := by omega
      rw [Function.update_of_ne hj, Pool.get_set_of_ne _ _ hother, Pool.get_set_of_ne _ _ hodd]

theorem lanes_seatNew {count : Nat} (hcount : d.pool.sets.length = 2 * count) (name : String)
    (c : Strand α) :
    (∀ k < count, (d.seatNew name c).westLane k = d.westLane k ∧
        (d.seatNew name c).eastLane k = d.eastLane k) ∧
      (d.seatNew name c).westLane count = c.lanes.west ∧
      (d.seatNew name c).eastLane count = c.lanes.east := by
  have hpool : (d.seatNew name c).pool = ((d.pool.add c.lanes.west).2.add c.lanes.east).2 := rfl
  have hlength : (d.pool.add c.lanes.west).2.sets.length = 2 * count + 1 := by
    change (d.pool.sets ++ [c.lanes.west]).length = _
    rw [List.length_append, hcount, List.length_singleton]
  have hold : ∀ h : ℕ, h < 2 * count → (d.seatNew name c).pool.get h = d.pool.get h := by
    intro h hh
    have hfirst : h < (d.pool.add c.lanes.west).2.sets.length := by omega
    have hsecond : h < d.pool.sets.length := by omega
    rw [hpool, Pool.get_add_of_lt _ _ hfirst, Pool.get_add_of_lt _ _ hsecond]
  refine ⟨fun k hk => ⟨hold _ (by omega), hold _ (by omega)⟩, ?_, ?_⟩
  · have hnew : 2 * count < (d.pool.add c.lanes.west).2.sets.length := by omega
    unfold westLane
    rw [hpool, Pool.get_add_of_lt _ _ hnew, ← hcount]
    exact Pool.get_add_self d.pool c.lanes.west
  · unfold eastLane
    rw [hpool, ← hlength]
    exact Pool.get_add_self (d.pool.add c.lanes.west).2 c.lanes.east

end StrandDesk

def Sits (seat : Option (Seat ℚ)) (scope : Option Nat) : Prop :=
  seat.map (fun s => (s.west, s.east)) = scope.map fun k => (2 * k, 2 * k + 1)

/-- A strand reaches at least down to the floor of its western lane. -/
def AboveFloor (lane : Nat → RangeSet ℚ) (seat : Option (Seat ℚ)) (scope : Option Nat) : Prop :=
  ∀ s ∈ seat, ∀ k ∈ scope, ∀ f ∈ (lane k).floor, f ≤ s.strand.reach

/-- The strands of a scope use its lanes, which hold its bands. Scopes are numbered from the outside in,
and the floor of a loop body lies no higher than that of the scope around it. -/
structure Kept (b : Bookings) (d : StrandDesk ℚ) : Prop where
  count : d.pool.sets.length = 2 * b.count
  seated : ∀ name, Sits (d.seat? name) (b.scope name)
  given : ∀ name, ∀ k ∈ b.scope name, k < b.count
  west : ∀ k < b.count, Booked (d.westLane k) (b.west k)
  east : ∀ k < b.count, Booked (d.eastLane k) (b.east k) ∧ (d.eastLane k).floor = none
  reach : ∀ name, AboveFloor d.westLane (d.seat? name) (b.scope name)
  around : ∀ k < b.count, k ∈ b.around k ∧ ∀ j ∈ b.around k, j ≤ k
  origin : ∀ body, ∀ name ∈ b.origin body, ∃ k ∈ b.scope body, ∃ j ∈ b.scope name, j < k ∧
    ∃ g ∈ (d.westLane k).floor, ∀ f ∈ (d.westLane j).floor, f ≤ g

theorem update_both {ι β γ : Type} [DecidableEq ι] (P : ι → β → γ → Prop) {f : ι → β} {g : ι → γ} {i : ι}
    {v : β} {w : γ} (hself : P i v w) (hrest : ∀ j, j ≠ i → P j (f j) (g j)) (j : ι) :
    P j (update f i v j) (update g i w j) := by
  by_cases hj : j = i
  · subst hj
    rw [Function.update_self, Function.update_self]
    exact hself
  · rw [Function.update_of_ne hj, Function.update_of_ne hj]
    exact hrest j hj

namespace Kept
variable {b : Bookings} {d : StrandDesk ℚ} {name source : String} {s : Seat ℚ} {k : Nat}

theorem seat_spec (h : Kept b d) (hs : d.seat? name = some s) :
    ∃ k < b.count, b.scope name = some k ∧ s.west = 2 * k ∧ s.east = 2 * k + 1 := by
  have hseated := h.seated name
  rw [hs, Sits, Option.map_some] at hseated
  obtain ⟨k, hk, heq⟩ := Option.map_eq_some_iff.mp hseated.symm
  obtain ⟨hwest, heast⟩ := Prod.mk.inj heq
  exact ⟨k, h.given name k hk, hk, hwest.symm, heast.symm⟩

theorem save (h : Kept b d) (hs : d.seat? name = some s) (hk : b.scope name = some k)
    {c : Strand ℚ} {west east : List (Span ℚ)}
    (hwest : Booked c.lanes.west (b.west k ++ west)) (hfloor : c.lanes.west.floor = (d.westLane k).floor)
    (heast : Booked c.lanes.east (b.east k ++ east)) (hfree : c.lanes.east.floor = none)
    (hreach : s.strand.reach ≤ c.reach) : Kept (b.take name west east) (d.save name s c) := by
  obtain ⟨k', hcount, hk', hsw, hse⟩ := h.seat_spec hs
  obtain rfl := Option.some.inj (hk.symm.trans hk')
  have hin : 2 * k + 1 < d.pool.sets.length := by
    rw [h.count]
    omega
  obtain ⟨hwestLane, heastLane⟩ := StrandDesk.lanes_save hsw hse hin name c
  have hseat : (d.save name s c).seat? = Function.update d.seat? name (some { s with strand := c }) :=
    StrandDesk.seat?_put ..
  have hfloors : ∀ j, ((d.save name s c).westLane j).floor = (d.westLane j).floor := by
    intro j
    rw [hwestLane]
    by_cases hj : j = k
    · subst hj
      rw [Function.update_self, hfloor]
    · rw [Function.update_of_ne hj]
  have htake : b.take name west east =
      { b with
        west := update b.west k (b.west k ++ west)
        east := update b.east k (b.east k ++ east) } := by
    unfold Bookings.take
    rw [hk]
  rw [htake]
  constructor
  · exact ((List.length_set ..).trans (List.length_set ..)).trans h.count
  · intro other
    rw [hseat]
    by_cases hother : other = name
    · subst hother
      have hold := h.seated other
      rw [hs] at hold
      rw [Function.update_self]
      exact hold
    · rw [Function.update_of_ne hother]
      exact h.seated other
  · exact h.given
  · rw [hwestLane]
    exact update_both (fun j r bands => j < b.count → Booked r bands) (fun _ => hwest)
      fun j _ => h.west j
  · rw [heastLane]
    exact update_both (fun j r bands => j < b.count → Booked r bands ∧ r.floor = none)
      (fun _ => ⟨heast, hfree⟩) fun j _ => h.east j
  · intro other t ht j hj f hf
    rw [hfloors] at hf
    rw [hseat] at ht
    by_cases hother : other = name
    · subst hother
      rw [Function.update_self] at ht
      cases ht
      exact (h.reach other s hs j hj f hf).trans hreach
    · rw [Function.update_of_ne hother] at ht
      exact h.reach other t ht j hj f hf
  · exact h.around
  · intro body other hbody
    simp only [hfloors]
    exact h.origin body other hbody

theorem seatNew (h : Kept b d) (hnew : b.scope name = none) {c : Strand ℚ}
    {west east : List (Span ℚ)} (origin : Option String) {outer : List Nat}
    (houter : ∀ j ∈ outer, j < b.count)
    (hwest : Booked c.lanes.west west) (heast : Booked c.lanes.east east)
    (hfree : c.lanes.east.floor = none) (hreach : ∀ f ∈ c.lanes.west.floor, f ≤ c.reach)
    (horigin : ∀ source ∈ origin, ∃ j ∈ b.scope source,
      ∃ g ∈ c.lanes.west.floor, ∀ f ∈ (d.westLane j).floor, f ≤ g) :
    Kept
      { count := b.count + 1
        scope := update b.scope name (some b.count)
        origin := update b.origin name origin
        around := update b.around b.count (b.count :: outer)
        west := update b.west b.count west
        east := update b.east b.count east } (d.seatNew name c) := by
  obtain ⟨hold, hwestLane, heastLane⟩ := StrandDesk.lanes_seatNew h.count name c
  have hseat : (d.seatNew name c).seat? =
      Function.update d.seat? name (some ⟨c, 2 * b.count, 2 * b.count + 1⟩) := by
    refine (StrandDesk.seat?_put ..).trans ?_
    change Function.update d.seat? name
      (some ⟨c, d.pool.sets.length, (d.pool.sets ++ [c.lanes.west]).length⟩) = _
    rw [List.length_append, h.count, List.length_singleton]
  have hscope : ∀ other k, b.scope other = some k → other ≠ name := by
    rintro other k hk rfl
    cases hnew.symm.trans hk
  constructor
  · change ((d.pool.sets ++ [c.lanes.west]) ++ [c.lanes.east]).length = _
    rw [List.length_append, List.length_append, h.count]
    rfl
  · rw [hseat]
    exact update_both (fun _ => Sits) rfl fun other _ => h.seated other
  · intro other k hk
    dsimp only at hk
    by_cases hother : other = name
    · subst hother
      rw [Function.update_self] at hk
      cases hk
      exact Nat.lt_succ_self _
    · rw [Function.update_of_ne hother] at hk
      exact Nat.lt_succ_of_lt (h.given other k hk)
  · intro k hk
    dsimp only
    rcases Nat.lt_succ_iff_lt_or_eq.mp hk with hlt | rfl
    · rw [Function.update_of_ne hlt.ne, (hold k hlt).1]
      exact h.west k hlt
    · rw [Function.update_self, hwestLane]
      exact hwest
  · intro k hk
    dsimp only
    rcases Nat.lt_succ_iff_lt_or_eq.mp hk with hlt | rfl
    · rw [Function.update_of_ne hlt.ne, (hold k hlt).2]
      exact h.east k hlt
    · rw [Function.update_self, heastLane]
      exact ⟨heast, hfree⟩
  · rw [hseat]
    refine update_both (fun _ => AboveFloor (d.seatNew name c).westLane) ?_
      fun other _ t ht k hk f hf => ?_
    · rintro _ ⟨rfl⟩ _ ⟨rfl⟩
      rw [hwestLane]
      exact hreach
    · rw [(hold k (h.given other k hk)).1] at hf
      exact h.reach other t ht k hk f hf
  · intro k hk
    dsimp only
    rcases Nat.lt_succ_iff_lt_or_eq.mp hk with hlt | rfl
    · rw [Function.update_of_ne hlt.ne]
      exact h.around k hlt
    · rw [Function.update_self]
      refine ⟨List.mem_cons_self, fun j hj => ?_⟩
      rcases List.mem_cons.mp hj with rfl | hj
      · exact le_rfl
      · exact (houter j hj).le
  · intro body other hbody
    dsimp only at hbody ⊢
    by_cases hsame : body = name
    · subst hsame
      rw [Function.update_self] at hbody
      obtain ⟨j, hj, hfloor⟩ := horigin other hbody
      refine ⟨b.count, Function.update_self .., j, ?_, h.given other j hj, ?_⟩
      · rw [Function.update_of_ne (hscope other j hj)]
        exact hj
      · rw [hwestLane, (hold j (h.given other j hj)).1]
        exact hfloor
    · rw [Function.update_of_ne hsame] at hbody
      obtain ⟨k, hk, j, hj, hlt, hfloor⟩ := h.origin body other hbody
      refine ⟨k, ?_, j, ?_, hlt, ?_⟩
      · rw [Function.update_of_ne hsame]
        exact hk
      · rw [Function.update_of_ne (hscope other j hj)]
        exact hj
      · rw [(hold k (h.given body k hk)).1, (hold j (h.given other j hj)).1]
        exact hfloor

theorem seatBeside (h : Kept b d) (hnew : b.scope name = none) (hs : d.seat? source = some s)
    {c : Strand ℚ} (hreach : c.reach = s.strand.reach) :
    Kept (b.beside name source) (d.seatBeside name s c) := by
  obtain ⟨k, hcount, hk, hsw, hse⟩ := h.seat_spec hs
  have hseat : (d.seatBeside name s c).seat? =
      Function.update d.seat? name (some { s with strand := c }) := StrandDesk.seat?_put ..
  have hscope : ∀ other k, b.scope other = some k → other ≠ name := by
    rintro other k hk rfl
    cases hnew.symm.trans hk
  constructor
  · exact h.count
  · rw [hseat]
    refine update_both (fun _ => Sits) ?_ fun other _ => h.seated other
    have hold := h.seated source
    rwa [hs] at hold
  · intro other j hj
    unfold Bookings.beside at hj
    dsimp only at hj
    by_cases hother : other = name
    · subst hother
      rw [Function.update_self] at hj
      exact h.given source j hj
    · rw [Function.update_of_ne hother] at hj
      exact h.given other j hj
  · exact h.west
  · exact h.east
  · rw [hseat]
    refine update_both (fun _ => AboveFloor d.westLane) ?_ fun other _ => h.reach other
    rintro _ ⟨rfl⟩ j hj f hf
    exact (h.reach source s hs j hj f hf).trans_eq hreach.symm
  · exact h.around
  · intro body other hbody
    unfold Bookings.beside at hbody ⊢
    dsimp only at hbody ⊢
    by_cases hsame : body = name
    · subst hsame
      rw [Function.update_self] at hbody
      cases hbody
    · rw [Function.update_of_ne hsame] at hbody
      obtain ⟨k, hk, j, hj, hlt, hfloor⟩ := h.origin body other hbody
      refine ⟨k, ?_, j, ?_, hlt, hfloor⟩
      · rw [Function.update_of_ne hsame]
        exact hk
      · rw [Function.update_of_ne (hscope other j hj)]
        exact hj

theorem seat_of_scope (h : Kept b d) (hk : b.scope name = some k) :
    ∃ s, d.seat? name = some s ∧ k < b.count ∧ s.west = 2 * k ∧ s.east = 2 * k + 1 := by
  have hseated := h.seated name
  rw [hk, Sits, Option.map_some] at hseated
  obtain ⟨s, hs, heq⟩ := Option.map_eq_some_iff.mp hseated
  obtain ⟨hwest, heast⟩ := Prod.mk.inj heq
  exact ⟨s, hs, h.given name k hk, hwest, heast⟩

theorem scope_of_unseated (h : Kept b d) (hs : d.seat? name = none) : b.scope name = none := by
  have hseated := h.seated name
  rw [hs, Sits, Option.map_none] at hseated
  exact Option.map_eq_none_iff.mp hseated.symm

theorem load_lanes (hwest : s.west = 2 * k) (heast : s.east = 2 * k + 1) :
    (d.load s).lanes = ⟨d.westLane k, d.eastLane k⟩ := by
  unfold StrandDesk.load StrandDesk.westLane StrandDesk.eastLane
  rw [hwest, heast]

theorem strand?_save (h : Kept b d) (hs : d.seat? name = some s) (hk : b.scope name = some k)
    (c : Strand ℚ) {other : String} {j : Nat} (hj : b.scope other = some j) (hne : j ≠ k) :
    (d.save name s c).strand? other = d.strand? other := by
  obtain ⟨k', hcount, hk', hsw, hse⟩ := h.seat_spec hs
  obtain rfl := Option.some.inj (hk.symm.trans hk')
  obtain ⟨t, ht, -, htw, hte⟩ := h.seat_of_scope hj
  have hin : 2 * k + 1 < d.pool.sets.length := by
    rw [h.count]
    omega
  obtain ⟨hwest, heast⟩ := StrandDesk.lanes_save hsw hse hin name c
  have hother : other ≠ name := by
    rintro rfl
    exact hne (Option.some.inj (hj.symm.trans hk))
  have hseat : (d.save name s c).seat? other = d.seat? other := by
    refine (congrFun (StrandDesk.seat?_put ..) other).trans ?_
    exact Function.update_of_ne hother ..
  have hlanes : ((d.save name s c).load t).lanes = (d.load t).lanes := by
    rw [load_lanes htw hte, load_lanes htw hte, hwest, heast, Function.update_of_ne hne,
      Function.update_of_ne hne]
  unfold StrandDesk.strand?
  rw [hseat, ht]
  exact congrArg (fun lanes => some { t.strand with lanes }) hlanes

theorem strand?_seatNew (h : Kept b d) (hnew : b.scope name = none) (c : Strand ℚ) {other : String}
    {j : Nat} (hj : b.scope other = some j) : (d.seatNew name c).strand? other = d.strand? other := by
  obtain ⟨t, ht, hcount, htw, hte⟩ := h.seat_of_scope hj
  obtain ⟨hold, -⟩ := StrandDesk.lanes_seatNew h.count name c
  have hother : other ≠ name := by
    rintro rfl
    cases hnew.symm.trans hj
  have hseat : (d.seatNew name c).seat? other = d.seat? other := by
    refine (congrFun (StrandDesk.seat?_put ..) other).trans ?_
    exact Function.update_of_ne hother ..
  have hlanes : ((d.seatNew name c).load t).lanes = (d.load t).lanes := by
    rw [load_lanes htw hte, load_lanes htw hte, (hold j hcount).1, (hold j hcount).2]
  unfold StrandDesk.strand?
  rw [hseat, ht]
  exact congrArg (fun lanes => some { t.strand with lanes }) hlanes

theorem strand?_seatBeside (s : Seat ℚ) (c : Strand ℚ) {other : String} (hother : other ≠ name) :
    (d.seatBeside name s c).strand? other = d.strand? other := by
  have hseat : (d.seatBeside name s c).seat? other = d.seat? other := by
    refine (congrFun (StrandDesk.seat?_put ..) other).trans ?_
    exact Function.update_of_ne hother ..
  unfold StrandDesk.strand?
  rw [hseat]
  rfl

end Kept

/-- A band meets none of some others. -/
def Dodges (pos size : ℚ) (bands : List (Span ℚ)) : Prop :=
  ∀ s ∈ bands, Disjoint (Set.Ico pos (pos + size)) (Set.Ico s.start s.stop)

/-- What an answer to an input has to dodge. -/
def Bookings.Clear (b : Bookings) : StrandInput ℚ → StrandAnswer ℚ → Prop
  | .takeBand name _ size, answer => ∃ pos, answer = .position pos ∧ Dodges pos size (b.eastOf name)
  | .takeExit name _ size _, answer => ∃ pos, answer = .position pos ∧
      Dodges pos size (b.westOf name) ∧ Dodges pos size (b.eastOf name)
  | _, _ => True

/-- What follows from one input. -/
structure Answered (b : Bookings) (d : StrandDesk ℚ) (input : StrandInput ℚ)
    (answer : StrandAnswer ℚ) (e : StrandDesk ℚ) : Prop where
  answered : d.update input = .ok (answer, e)
  kept : Kept (b.note input answer) e
  clear : b.Clear input answer
  /-- Strands in other scopes than that of the actor stay as they are. -/
  others : ∀ name ∈ input.actor?, ∀ k ∈ b.scope name, ∀ other, ∀ j ∈ b.scope other, j ≠ k →
    e.strand? other = d.strand? other

namespace Kept
variable {b : Bookings} {d : StrandDesk ℚ} {name source body : String} {start size : ℚ}

theorem beside_outcome (h : Kept b d) (hnew : d.seat? name = none) {s : Seat ℚ}
    (hs : d.seat? source = some s) {input : StrandInput ℚ} {c : Strand ℚ}
    (hreach : c.reach = s.strand.reach) (hinput : input = .fork name source ∨ input = .switchHolder name source)
    (hupdate : d.update input = .ok (.done, d.seatBeside name s c)) :
    Answered b d input .done (d.seatBeside name s c) := by
  have hscope := h.scope_of_unseated hnew
  have hkept := h.seatBeside hscope hs hreach
  have hothers : ∀ other, ∀ j ∈ b.scope other,
      (d.seatBeside name s c).strand? other = d.strand? other := by
    intro other j hj
    refine strand?_seatBeside s c ?_
    rintro rfl
    cases hscope.symm.trans hj
  rcases hinput with rfl | rfl
  · exact ⟨hupdate, hkept, trivial, fun _ _ _ _ other j hj _ => hothers other j hj⟩
  · exact ⟨hupdate, hkept, trivial, fun _ _ _ _ other j hj _ => hothers other j hj⟩

theorem loopBody_outcome (h : Kept b d) (hnew : d.seat? name = none) {s : Seat ℚ}
    (hs : d.seat? source = some s) (kind : JumpTarget) :
    Answered b d (.loopBody name source kind) .done (d.seatNew name ((d.load s).loopBody kind)) := by
  have hscope := h.scope_of_unseated hnew
  obtain ⟨k, hk, hks, hsw, hse⟩ := h.seat_spec hs
  have hlanes : (d.load s).lanes = ⟨d.westLane k, d.eastLane k⟩ := load_lanes hsw hse
  have heast : ((d.load s).loopBody kind).lanes.east = d.eastLane k := by
    change (d.load s).lanes.east = _
    rw [hlanes]
  have heastOf : b.eastOf source = b.east k := by
    unfold Bookings.eastOf
    rw [hks]
    rfl
  have houter : ∀ j ∈ (b.scope source).elim [] b.around, j < b.count := by
    rw [hks]
    exact fun j hj => ((h.around k hk).2 j hj).trans_lt hk
  refine ⟨?_, ?_, trivial, fun _ _ _ _ other j hj _ => h.strand?_seatNew hscope _ hj⟩
  · simp only [StrandDesk.update, StrandDesk.strand?, hs, Option.map_some]
  · refine h.seatNew hscope (some source) houter (booked_nil _) ?_ ?_ ?_ ?_
    · rw [heast, heastOf]
      exact (h.east k hk).1
    · rw [heast]
      exact (h.east k hk).2
    · rintro f ⟨rfl⟩
      exact le_rfl
    · rintro _ ⟨rfl⟩
      exact ⟨k, hks, _, rfl, h.reach source s hs k hks⟩

theorem takeBand_outcome (h : Kept b d) {s : Seat ℚ} (hs : d.seat? name = some s)
    (hstart : s.strand.reach ≤ start) (hsize : 0 < size) :
    ∃ pos e, Answered b d (.takeBand name start size) (.position pos) e := by
  obtain ⟨k, hk, hks, hsw, hse⟩ := h.seat_spec hs
  have hlanes : (d.load s).lanes = ⟨d.westLane k, d.eastLane k⟩ := load_lanes hsw hse
  obtain ⟨heast, hfree⟩ := h.east k hk
  have hpos := RangeSet.start_le_firstFit (d.eastLane k) start size
  have hclear := RangeSet.firstFit_clear heast.canonical start hsize.le
  generalize hfound : (d.eastLane k).firstFit start size = pos at hpos hclear
  have hfloor : ∀ f ∈ (d.westLane k).floor, f ≤ pos := fun f hf =>
    (h.reach name s hs k hks f hf).trans (hstart.trans hpos)
  refine ⟨pos, d.save name s { d.load s with
    lanes := ⟨(d.westLane k).reserve pos size, d.eastLane k⟩
    reach := max (d.load s).reach (pos + size) }, ?_, ?_, ⟨pos, rfl, ?_⟩, ?_⟩
  · simp only [StrandDesk.update, StrandDesk.modify, hs, Strand.takeBand, Lanes.placeBand, hlanes,
      hfound]
  · refine h.save hs hks ((h.west k hk).reserve hfloor size) (RangeSet.floor_reserve ..) ?_ hfree
      (le_max_left _ _)
    rw [List.append_nil]
    exact heast
  · unfold Bookings.eastOf
    rw [hks]
    exact heast.disjoint hclear
  · rintro _ ⟨rfl⟩ k' hk' other j hj hne
    obtain rfl := Option.some.inj (hks.symm.trans hk')
    exact h.strand?_save hs hks _ hj hne

theorem takeExit_outcome (h : Kept b d) {s : Seat ℚ} (hs : d.seat? name = some s)
    (hstart : s.strand.reach ≤ start) (hsize : 0 < size) (east : Bool) :
    ∃ pos e, Answered b d (.takeExit name start size east) (.position pos) e := by
  obtain ⟨k, hk, hks, hsw, hse⟩ := h.seat_spec hs
  have hlanes : (d.load s).lanes = ⟨d.westLane k, d.eastLane k⟩ := load_lanes hsw hse
  have hwest := h.west k hk
  obtain ⟨heast, hfree⟩ := h.east k hk
  obtain ⟨pos, hfound⟩ := Option.isSome_iff_exists.mp
    (RangeSet.commonFit?_isSome (RangeSet.stops_exact (d.westLane k).spans)
      (RangeSet.stops_exact (d.eastLane k).spans) start size)
  obtain ⟨hpos, hclearWest, hclearEast⟩ :=
    RangeSet.commonFit?_clear hwest.canonical heast.canonical hsize.le hfound
  have hfloor : ∀ f ∈ (d.westLane k).floor, f ≤ pos := fun f hf =>
    (h.reach name s hs k hks f hf).trans (hstart.trans hpos)
  refine ⟨pos, d.save name s { d.load s with
    lanes := ⟨(d.westLane k).reserve pos size,
      if east then (d.eastLane k).reserve pos size else d.eastLane k⟩
    reach := max (d.load s).reach (pos + size) }, ?_, ?_, ⟨pos, rfl, ?_, ?_⟩, ?_⟩
  · simp only [StrandDesk.update, hs, Strand.takeExit, Lanes.placeExit?, hlanes, hfound,
      Option.map_some]
    rfl
  · refine h.save hs hks (hwest.reserve hfloor size) (RangeSet.floor_reserve ..) ?_ ?_
      (le_max_left _ _)
    · cases east with
      | false => exact (List.append_nil _).symm ▸ heast
      | true =>
          refine heast.reserve (fun f hf => ?_) size
          rw [hfree] at hf
          cases hf
    · cases east with
      | false => exact hfree
      | true => exact (RangeSet.floor_reserve ..).trans hfree
  · unfold Bookings.westOf
    rw [hks]
    exact hwest.disjoint hclearWest
  · unfold Bookings.eastOf
    rw [hks]
    exact heast.disjoint hclearEast
  · rintro _ ⟨rfl⟩ k' hk' other j hj hne
    obtain rfl := Option.some.inj (hks.symm.trans hk')
    exact h.strand?_save hs hks _ hj hne

/-- Nothing is taken in a lane above its floor. -/
theorem floor_le {r : RangeSet ℚ} (hr : RangeSet.Canonical r) {f : ℚ} (hf : f ∈ r.floor) {y : ℚ}
    (hy : y ∈ r.cover) : f ≤ y := by
  obtain ⟨s, hs, hstart, -⟩ := hy
  exact (hr.above f hf (beq_self_eq_true _) s hs).trans hstart

theorem reclaim_outcome (h : Kept b d) (horigin : b.origin body = some name) :
    ∃ e, Answered b d (.reclaim name body) .done e := by
  obtain ⟨k, hk, j, hj, -, g, hg, hfloors⟩ := h.origin body name horigin
  obtain ⟨s, hs, hjcount, hsw, hse⟩ := h.seat_of_scope hj
  obtain ⟨t, ht, hkcount, htw, hte⟩ := h.seat_of_scope hk
  have hlanes : (d.load s).lanes = ⟨d.westLane j, d.eastLane j⟩ := load_lanes hsw hse
  have hbody : (d.load t).lanes = ⟨d.westLane k, d.eastLane k⟩ := load_lanes htw hte
  have hwest := (h.west j hjcount).fold (h.west k hkcount) fun f hf y hy =>
    (hfloors f hf).trans (floor_le (h.west k hkcount).canonical hg hy)
  have heast := (h.east j hjcount).1.fold (h.east k hkcount).1 fun f hf => by
    rw [(h.east j hjcount).2] at hf
    cases hf
  have hwestOf : b.westOf body = b.west k := by
    unfold Bookings.westOf
    rw [Option.mem_def.mp hk]
    rfl
  have heastOf : b.eastOf body = b.east k := by
    unfold Bookings.eastOf
    rw [Option.mem_def.mp hk]
    rfl
  refine ⟨d.save name s ((d.load s).reclaim (d.load t)), ?_, ?_, trivial, ?_⟩
  · simp only [StrandDesk.update, StrandDesk.strand?, StrandDesk.modify, ht, hs, Option.map_some]
  · have hwestLane : ((d.load s).reclaim (d.load t)).lanes.west =
        (d.westLane j).fold (d.westLane k) := by
      change (d.load s).lanes.west.fold (d.load t).lanes.west = _
      rw [hlanes, hbody]
    have heastLane : ((d.load s).reclaim (d.load t)).lanes.east =
        (d.eastLane j).fold (d.eastLane k) := by
      change (d.load s).lanes.east.fold (d.load t).lanes.east = _
      rw [hlanes, hbody]
    refine h.save hs hj (hwestLane ▸ hwestOf ▸ hwest) ?_ (heastLane ▸ heastOf ▸ heast) ?_
      (le_max_left _ _)
    · rw [hwestLane]
      exact (RangeSet.fold_spec (h.west j hjcount).canonical _).2.2.1
    · rw [heastLane]
      exact (RangeSet.fold_spec (h.east j hjcount).1.canonical _).2.2.1.trans (h.east j hjcount).2
  · rintro _ ⟨rfl⟩ k' hk' other i hi hne
    obtain rfl := Option.some.inj (hj.symm.trans hk')
    exact h.strand?_save hs hj _ hi hne

/-- Every allowed input is answered, and what it takes is clear of what it has to dodge. -/
theorem step (h : Kept b d) {input : StrandInput ℚ} (hallows : b.Allows d input) :
    ∃ answer e, Answered b d input answer e := by
  have hload : ∀ {name : String} {start : ℚ}, (∃ c ∈ d.strand? name, c.reach ≤ start) →
      ∃ s, d.seat? name = some s ∧ s.strand.reach ≤ start := by
    rintro name start ⟨c, hc, hreach⟩
    obtain ⟨s, hs, rfl⟩ := Option.map_eq_some_iff.mp hc
    exact ⟨s, hs, hreach⟩
  cases input with
  | fork name source =>
      obtain ⟨hnew, hsource⟩ := hallows
      obtain ⟨s, hs⟩ := Option.isSome_iff_exists.mp hsource
      refine ⟨_, d.seatBeside name s (d.load s).fork, h.beside_outcome hnew hs rfl (.inl rfl) ?_⟩
      simp only [StrandDesk.update, hs]
  | switchHolder name source =>
      obtain ⟨hnew, hsource⟩ := hallows
      obtain ⟨s, hs⟩ := Option.isSome_iff_exists.mp hsource
      refine ⟨_, d.seatBeside name s (d.load s).switchHolder,
        h.beside_outcome hnew hs rfl (.inr rfl) ?_⟩
      simp only [StrandDesk.update, hs]
  | loopBody name source kind =>
      obtain ⟨hnew, hsource⟩ := hallows
      obtain ⟨s, hs⟩ := Option.isSome_iff_exists.mp hsource
      exact ⟨_, _, h.loopBody_outcome hnew hs kind⟩
  | reclaim name body => exact ⟨_, h.reclaim_outcome hallows⟩
  | takeBand name start size =>
      obtain ⟨hstart, hsize⟩ := hallows
      obtain ⟨s, hs, hreach⟩ := hload hstart
      obtain ⟨pos, e, hout⟩ := h.takeBand_outcome hs hreach hsize
      exact ⟨_, e, hout⟩
  | takeExit name start size east =>
      obtain ⟨hstart, hsize⟩ := hallows
      obtain ⟨s, hs, hreach⟩ := hload hstart
      obtain ⟨pos, e, hout⟩ := h.takeExit_outcome hs hreach hsize east
      exact ⟨_, e, hout⟩
  | root | absorb | startBelow | trunkTo | headingOf | noteJump | draw | setTargets | setAlive =>
      exact hallows.elim

theorem empty :
    Kept ⟨0, fun _ => none, fun _ => none, fun _ => [0], fun _ => [], fun _ => []⟩ .empty where
  count := rfl
  seated _ := rfl
  given _ _ hk := nomatch hk
  west k hk := (Nat.not_lt_zero k hk).elim
  east k hk := (Nat.not_lt_zero k hk).elim
  around k hk := (Nat.not_lt_zero k hk).elim
  reach _ _ hs := nomatch hs
  origin _ _ hname := nomatch hname

theorem root (name : String) (pad : ℚ) (debug : Bool) :
    Kept (.root name) (StrandDesk.empty.seatNew name (.root pad debug)) := by
  have hroot : Kept _ (StrandDesk.empty.seatNew name (.root pad debug)) :=
    Kept.empty.seatNew rfl none (List.forall_mem_nil _) (booked_nil none) (booked_nil none) rfl
      (fun _ hf => nomatch hf) fun _ hsource => nomatch hsource
  dsimp only at hroot
  rw [Function.update_eq_self 0 fun _ => [], Function.update_eq_self 0 fun _ => [0],
    Function.update_eq_self name fun _ => none] at hroot
  exact hroot

end Kept

theorem Served.kept {b : Bookings} {d : StrandDesk ℚ} (h : Served b d) : Kept b d := by
  induction h with
  | root name pad debug => exact .root name pad debug
  | step _ _ hallows hupdate ih =>
      obtain ⟨answer, e, hout⟩ := ih.step hallows
      have hsame := hout.answered.symm.trans hupdate
      cases hsame
      exact hout.kept

/-- In exact arithmetic, after any allowed run: a strand sees the bands booked in its scope and no others,
two strands share their lanes if and only if they are in one scope, and a loop body is a scope apart from
that of the strand it was entered from. Every further input is answered; the band of an exit dodges
all bands of its scope and that of content all eastern ones; and nothing a strand in a loop body does changes
what a strand outside that body sees. -/
theorem served_bands_clear {b : Bookings} {d : StrandDesk ℚ} (h : Served b d) :
    (∀ name, ∀ c ∈ d.strand? name,
      c.lanes.west.cover = ⋃ s ∈ b.westOf name, Set.Ico s.start s.stop ∧
        c.lanes.east.cover = ⋃ s ∈ b.eastOf name, Set.Ico s.start s.stop) ∧
      (∀ name, ∀ s ∈ d.seat? name, ∀ other, ∀ t ∈ d.seat? other,
        (s.west = t.west ↔ b.scope name = b.scope other) ∧
          (s.east = t.east ↔ b.scope name = b.scope other)) ∧
      (∀ body, ∀ name ∈ b.origin body, ∃ k, b.Inside k body ∧ ¬ b.Inside k name) ∧
      ∀ input, b.Allows d input → ∃ answer e, d.update input = .ok (answer, e) ∧
        b.Clear input answer ∧
        ∀ k, ∀ actor ∈ input.actor?, b.Inside k actor →
          ∀ other, (d.strand? other).isSome → ¬ b.Inside k other → e.strand? other = d.strand? other := by
  have hkept := h.kept
  refine ⟨fun name c hc => ?_, fun name s hs other t ht => ?_, fun body name horigin => ?_,
    fun input hallows => ?_⟩
  · obtain ⟨s, hs, rfl⟩ := Option.map_eq_some_iff.mp hc
    obtain ⟨k, hk, hks, hsw, hse⟩ := hkept.seat_spec hs
    rw [Kept.load_lanes hsw hse]
    unfold Bookings.westOf Bookings.eastOf
    rw [hks]
    exact ⟨(hkept.west k hk).cover, (hkept.east k hk).1.cover⟩
  · obtain ⟨k, -, hks, hsw, hse⟩ := hkept.seat_spec hs
    obtain ⟨j, -, hjt, htw, hte⟩ := hkept.seat_spec ht
    have heven : 2 * k = 2 * j ↔ k = j := by omega
    have hodd : 2 * k + 1 = 2 * j + 1 ↔ k = j := by omega
    rw [hks, hjt, hsw, hse, htw, hte, Option.some.injEq]
    exact ⟨heven, hodd⟩
  · obtain ⟨k, hk, j, hj, hlt, -⟩ := hkept.origin body name horigin
    have haround := (hkept.around k (hkept.given body k hk)).1
    refine ⟨k, ⟨k, hk, haround⟩, ?_⟩
    rintro ⟨i, hi, hmem⟩
    obtain rfl := Option.mem_unique hj hi
    exact absurd ((hkept.around j (hkept.given name j hj)).2 k hmem) (not_le.mpr hlt)
  · obtain ⟨answer, e, hout⟩ := hkept.step hallows
    refine ⟨answer, e, hout.answered, hout.clear, ?_⟩
    rintro k actor hactor ⟨j, hj, hinside⟩ other hseated houtside
    obtain ⟨c, hc⟩ := Option.isSome_iff_exists.mp hseated
    obtain ⟨s, hs, -⟩ := Option.map_eq_some_iff.mp hc
    obtain ⟨i, -, hi, -⟩ := hkept.seat_spec hs
    refine hout.others actor hactor j hj other i hi ?_
    rintro rfl
    exact houtside ⟨i, hi, hinside⟩

/-- Content of a loop body dodges a line that an arm beside the loop sent east before. -/
theorem served_bands_clear_body : ∃ b d, Served b d ∧ b.Allows d (.takeBand "body" 0 4) ∧
    b.eastOf "body" = [⟨0, 10⟩] ∧ ∃ pos e, d.update (.takeBand "body" 0 4) = .ok (.position pos, e) ∧
      Dodges pos 4 (b.eastOf "body") := by
  have hroot := Served.root "main" 5 false
  have harm := hroot.step (.fork "arm" "main") ⟨rfl, rfl⟩ rfl
  have hexit := harm.step (.takeExit "arm" 0 10 true) ⟨⟨_, rfl, le_rfl⟩, by norm_num⟩ rfl
  have hbody := hexit.step (.loopBody "body" "main" .whileLoop) ⟨rfl, rfl⟩ rfl
  refine ⟨_, _, hbody, ⟨⟨_, rfl, le_rfl⟩, by norm_num⟩, by decide +kernel, ?_⟩
  obtain ⟨answer, e, hanswer, ⟨pos, rfl, hclear⟩, -⟩ := (served_bands_clear hbody).2.2.2
    (.takeBand "body" 0 4) ⟨⟨_, rfl, le_rfl⟩, by norm_num⟩
  exact ⟨pos, e, hanswer, hclear⟩

end Flowchart
