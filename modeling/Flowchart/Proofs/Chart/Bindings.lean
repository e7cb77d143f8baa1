import Flowchart.Proofs.Chart.Story
/-! Every jump that control reaches is led by one connector, and every point in a story is told of
once. -/
namespace Flowchart

namespace Story
variable {s t body cases : Story} {r : Around}

/-- The jumps that the connectors of a story lead to their constructs. -/
def led (s : Story) : List Departure := s.connectors.flatMap Connector.led

/-- Pending jumps of one kind, which the surroundings of a story take. -/
def pending (r : Around) (j : Jump) (points : List Origin) : List Departure :=
  points.map fun o => ⟨j, o, r.taker j⟩

/-- Each jump of a story leaves it for the construct around it that takes its kind, or is led to the
construct within it that does. -/
def Balanced (r : Around) (s : Story) : Prop :=
  (s.jumps : Multiset Departure) =
    (pending r .leave s.leaving : Multiset Departure) + pending r .resume s.resuming + s.led

theorem pending_append (r : Around) (j : Jump) (points more : List Origin) :
    pending r j (points ++ more) = pending r j points ++ pending r j more := List.map_append

theorem pending_leftBy (r : Around) (j : Jump) (points : List (Jump × Origin)) :
    pending r j (leftBy j points) =
      (points.filter (·.1 == j)).map fun p => ⟨p.1, p.2, r.taker p.1⟩ := by
  unfold pending leftBy
  rw [List.map_map]
  refine List.map_congr_left fun p hp => ?_
  obtain rfl : p.1 = j := beq_iff_eq.mp (List.mem_filter.mp hp).2
  rfl

theorem balanced_of (r : Around) (tokens : List Token) (points : List (Jump × Origin)) :
    (of r tokens points).Balanced r := by
  have hkinds : ∀ p : Jump × Origin, (p.1 == .resume) = !(p.1 == .leave) := by
    rintro ⟨j, o⟩
    cases j <;> rfl
  unfold Balanced led of
  dsimp only
  rw [pending_leftBy, pending_leftBy, List.flatMap_nil, Multiset.coe_nil, add_zero,
    Multiset.coe_add, ← List.map_append]
  refine Multiset.coe_eq_coe.mpr (List.Perm.map _ ?_)
  simp only [hkinds]
  exact (List.filter_append_perm _ points).symm

theorem balanced_blank (r : Around) : blank.Balanced r := rfl

theorem balanced_caption (r : Around) (content : String) : (caption content).Balanced r := rfl

theorem Balanced.append (hs : s.Balanced r) (ht : t.Balanced r) : (s.append t).Balanced r := by
  unfold Balanced led at *
  unfold Story.append
  dsimp only
  rw [List.flatMap_append, pending_append, pending_append, ← Multiset.coe_add, ← Multiset.coe_add,
    ← Multiset.coe_add, ← Multiset.coe_add, hs, ht]
  abel

theorem Balanced.followedBy (hs : s.Balanced r) (ht : t.Balanced r) :
    (s.followedBy t).Balanced r := by
  unfold Story.followedBy
  split
  · exact hs.append ht
  · exact hs

theorem Balanced.beside (hs : s.Balanced r) (ht : t.Balanced r) : (s.beside t).Balanced r :=
  hs.append ht

theorem balanced_decision (a : Address) (content : String)
    (yesJump noJump : Option (Jump × Direction)) {yes no : Story} (hyes : yes.Balanced r)
    (hno : no.Balanced r) : (decision r a content yesJump noJump yes no).Balanced r := by
  have htest : ∀ exits, (test r a content exits).Balanced r := fun exits => balanced_of r _ _
  unfold decision
  split
  · split
    · exact (htest _).append hno
    · exact htest _
  · exact (htest _).append hno
  · exact (htest _).append hyes
  · exact (htest _).append (hyes.beside hno)

theorem led_ifNeeded (k : Connector) : k.ifNeeded.flatMap Connector.led = k.led := by
  unfold Connector.ifNeeded
  split
  · next hnone =>
      have horigins := List.isEmpty_iff.mp hnone
      have hjumps : k.jumps = [] := by
        unfold Connector.origins at horigins
        split at horigins
        · exact (List.append_eq_nil_iff.mp horigins).1
        · exact (List.append_eq_nil_iff.mp horigins).2
      rw [Connector.led, hjumps]
      rfl
  · exact List.append_nil k.led

theorem balanced_whileLoop {toward : Direction} {a : Address} (content : String)
    (h : body.Balanced (.inLoop toward a)) : (whileLoop a content body).Balanced r := by
  unfold Balanced led at *
  unfold whileLoop
  dsimp only
  rw [List.flatMap_append, List.flatMap_append, led_ifNeeded, List.flatMap_singleton, h,
    ← Multiset.coe_add, ← Multiset.coe_add]
  change _ = 0 + 0 + (_ + (pending (.inLoop toward a) .resume body.resuming : Multiset Departure) +
    (pending (.inLoop toward a) .leave body.leaving : Multiset Departure))
  abel

theorem balanced_doLoop {toward : Direction} {a : Address} (content : String)
    (h : body.Balanced (.inLoop toward a)) : (doLoop a body content).Balanced r := by
  unfold Balanced led at *
  unfold doLoop
  dsimp only
  rw [List.flatMap_append, List.flatMap_append, List.flatMap_append, led_ifNeeded,
    led_ifNeeded, List.flatMap_singleton, h, ← Multiset.coe_add, ← Multiset.coe_add,
    ← Multiset.coe_add]
  change _ = 0 + 0 + (_ + (pending (.inLoop toward a) .resume body.resuming : Multiset Departure) +
    0 + (pending (.inLoop toward a) .leave body.leaving : Multiset Departure))
  abel

theorem balanced_switch {a : Address} (content : String) (h : cases.Balanced (r.inSwitch a)) :
    (switch a content cases).Balanced r := by
  unfold Balanced led at *
  unfold switch
  dsimp only
  rw [List.flatMap_append, led_ifNeeded, h, ← Multiset.coe_add]
  change _ = 0 + (pending (r.inSwitch a) .resume cases.resuming : Multiset Departure) +
    (_ + (pending (r.inSwitch a) .leave cases.leaving : Multiset Departure))
  abel

end Story

mutual

theorem Statement.story_balanced (r : Around) (a : Address) (s : Statement) :
    (s.story r a).Balanced r := by
  match s with
  | .text content => exact Story.balanced_caption r content
  | .pass => exact Story.balanced_blank r
  | .jump j => exact Story.balanced_of r [.turn a] [(j, .turn a)]
  | .flaw fault => exact Story.balanced_blank r
  | .decision test yes no =>
      exact Story.balanced_decision a test _ _ (Statement.storyAll_balanced r _ 0 yes)
        (Statement.storyAll_balanced r _ 0 no)
  | .whileLoop test body =>
      exact Story.balanced_whileLoop test (Statement.storyAll_balanced (.inLoop .west a) a 0 body)
  | .doLoop body test =>
      exact Story.balanced_doLoop test (Statement.storyAll_balanced (.inLoop .east a) a 0 body)
  | .switch subject cases =>
      exact Story.balanced_switch subject (Statement.storyBranches_balanced (r.inSwitch a) a 0 cases)
  | .tryBlock body handlers =>
      exact (Statement.storyAll_balanced r _ 0 body).beside
        (Statement.storyBranches_balanced r _ 0 handlers)

/-- Every jump of a block is led once, and by the innermost construct that takes its kind. -/
theorem Statement.storyAll_balanced (r : Around) (a : Address) (number : Nat)
    (b : List Statement) : (Statement.storyAll r a number b).Balanced r := by
  match b with
  | [] => exact Story.balanced_blank r
  | s :: rest =>
      exact (Statement.story_balanced r _ s).followedBy
        (Statement.storyAll_balanced r a (number + 1) rest)

theorem Statement.storyBranches_balanced (r : Around) (a : Address) (number : Nat)
    (bs : List (String × List Statement)) :
    (Statement.storyBranches r a number bs).Balanced r := by
  match bs with
  | [] => exact Story.balanced_blank r
  | (label, block) :: rest =>
      exact (Statement.storyAll_balanced r _ 0 block).beside
        (Statement.storyBranches_balanced r a (number + 1) rest)

end

/-- Where the jumps of a story leave. -/
def Story.departed (s : Story) : List Origin := s.jumps.map Departure.origin

/-- The tests and ends of trunks among tokens. -/
def Story.places (tokens : List Token) : List Origin := tokens.filterMap Token.place?

/-- A connector for which no place is told of twice. Besides jumps it brings together at most the east
side of the test of a `while`, the end of its body, or the west side of the test of a `do`. -/
structure Connector.Proper (k : Connector) : Prop where
  told : (Story.places k.told).Nodup
  own : k.own = [] ∨ k.role = .out ∧ k.own = [.side k.site .east] ∨
    k.role = .back ∧ k.own = [.turn k.site] ∨ k.role = .again ∧ k.own = [.side k.site .west]

namespace Story
variable {P Q : Origin → Prop} {s t body cases : Story}

/-- The jumps and the places of a story are all of one kind, none occurs twice, and its connectors are
proper. -/
structure Within (P : Origin → Prop) (s : Story) : Prop where
  jumps : ∀ o ∈ s.departed, P o
  jumpsOnce : s.departed.Nodup
  places : ∀ o ∈ places s.tokens, P o
  placesOnce : (Story.places s.tokens).Nodup
  proper : ∀ k ∈ s.connectors, k.Proper

theorem places_append (tokens more : List Token) : places (tokens ++ more) = places tokens ++ places more :=
  List.filterMap_append

theorem departed_append (s t : Story) : (s.append t).departed = s.departed ++ t.departed :=
  List.map_append

theorem Within.mono (h : s.Within P) (hPQ : ∀ o, P o → Q o) : s.Within Q :=
  ⟨fun o ho => hPQ o (h.jumps o ho), h.jumpsOnce, fun o ho => hPQ o (h.places o ho), h.placesOnce,
    h.proper⟩

theorem nodup_append {l m : List Origin} (hl : ∀ o ∈ l, P o) (hm : ∀ o ∈ m, Q o)
    (hparts : ∀ o, P o → ¬ Q o) (hl' : l.Nodup) (hm' : m.Nodup) : (l ++ m).Nodup :=
  List.nodup_append.mpr ⟨hl', hm', fun o ho o' ho' heq => hparts o (hl o ho) (heq ▸ hm o' ho')⟩

theorem Within.append (hs : s.Within P) (ht : t.Within Q) (hparts : ∀ o, P o → ¬ Q o) :
    (s.append t).Within fun o => P o ∨ Q o where
  jumps o ho := by
    rw [departed_append] at ho
    exact (List.mem_append.mp ho).imp (hs.jumps o) (ht.jumps o)
  jumpsOnce := by
    rw [departed_append]
    exact nodup_append hs.jumps ht.jumps hparts hs.jumpsOnce ht.jumpsOnce
  places o ho := by
    rw [Story.append, places_append] at ho
    exact (List.mem_append.mp ho).imp (hs.places o) (ht.places o)
  placesOnce := by
    rw [Story.append, places_append]
    exact nodup_append hs.places ht.places hparts hs.placesOnce ht.placesOnce
  proper k hk := (List.mem_append.mp hk).elim (hs.proper k) (ht.proper k)

theorem Within.followedBy (hs : s.Within P) (ht : t.Within Q) (hparts : ∀ o, P o → ¬ Q o) :
    (s.followedBy t).Within fun o => P o ∨ Q o := by
  unfold Story.followedBy
  split
  · exact hs.append ht hparts
  · exact hs.mono fun _ => .inl

theorem Within.beside (hs : s.Within P) (ht : t.Within Q) (hparts : ∀ o, P o → ¬ Q o) :
    (s.beside t).Within fun o => P o ∨ Q o := by
  obtain ⟨h₁, h₂, h₃, h₄, h₅⟩ := hs.append ht hparts
  exact ⟨h₁, h₂, h₃, h₄, h₅⟩

def AtTest (a : Address) (o : Origin) : Prop := ∃ d, o = .side a d

def Inner (a : Address) (number : Nat) (o : Origin) : Prop :=
  ∃ n, number ≤ n ∧ (n :: a) <:+ o.address

theorem within_blank (P : Origin → Prop) : blank.Within P :=
  ⟨nofun, List.nodup_nil, nofun, List.nodup_nil, nofun⟩

theorem within_caption (content : String) (P : Origin → Prop) : (caption content).Within P :=
  ⟨nofun, List.nodup_nil, nofun, List.nodup_nil, nofun⟩

theorem within_test (r : Around) (a : Address) (content : String) (exits : List (Jump × Direction))
    (h : (exits.map Prod.snd).Nodup) : (test r a content exits).Within (AtTest a) := by
  have hjumps : (test r a content exits).departed = exits.map fun e => .side a e.2 := by
    unfold departed test of
    rw [List.map_map, List.map_map]
    rfl
  refine ⟨fun o ho => ?_, ?_, fun o ho => ?_, List.nodup_singleton _, nofun⟩
  · rw [hjumps] at ho
    obtain ⟨e, -, rfl⟩ := List.mem_map.mp ho
    exact ⟨e.2, rfl⟩
  · rw [hjumps]
    have hsides := h.map (f := Origin.side a) fun d e hde => (Origin.side.inj hde).2
    rwa [List.map_map] at hsides
  · exact ⟨.south, List.mem_singleton.mp ho⟩

theorem atTest_not_inner {a : Address} {number : Nat} {o : Origin} (h : AtTest a o) :
    ¬ Inner a number o := by
  rintro ⟨n, -, hsuffix⟩
  obtain ⟨d, rfl⟩ := h
  have hlength := hsuffix.length_le
  change a.length + 1 ≤ a.length at hlength
  exact absurd hlength (Nat.not_succ_le_self _)

theorem inner_unique {a : Address} {m n : Nat} {o : Origin} (hm : (m :: a) <:+ o.address)
    (hn : (n :: a) <:+ o.address) : m = n := by
  have hboth := List.suffix_of_suffix_length_le hm hn (le_refl (a.length + 1))
  exact (List.cons.inj (hboth.eq_of_length rfl)).1

theorem AtTest.suffix {a : Address} {o : Origin} (h : AtTest a o) : a <:+ o.address := by
  obtain ⟨d, rfl⟩ := h
  exact List.suffix_refl a

theorem Inner.suffix {a : Address} {number : Nat} {o : Origin} (h : Inner a number o) :
    a <:+ o.address := by
  obtain ⟨n, -, hsuffix⟩ := h
  exact (List.suffix_cons n a).trans hsuffix

theorem Inner.widen {a : Address} {m : Nat} {o : Origin} (h : (m :: a) <:+ o.address) {number : Nat}
    (hm : number ≤ m) : Inner a number o := ⟨m, hm, h⟩

theorem eq_of_ifNeeded {k other : Connector} (h : k ∈ other.ifNeeded) : k = other := by
  unfold Connector.ifNeeded at h
  split at h
  · cases h
  · exact List.mem_singleton.mp h

theorem within_decision (r : Around) (a : Address) (content : String)
    (yesJump noJump : Option (Jump × Direction)) {yes no : Story}
    (hyes : yes.Within (Inner (0 :: a) 0)) (hno : no.Within (Inner (1 :: a) 0)) :
    (decision r a content yesJump noJump yes no).Within fun o => a <:+ o.address := by
  have harm : ∀ {m : Nat} {arm : Story}, arm.Within (Inner (m :: a) 0) → arm.Within (Inner a 0) :=
    fun h => h.mono fun o ho => .widen ho.suffix (Nat.zero_le _)
  have hbelow : ∀ {exits : List (Jump × Direction)} {arm : Story}, (exits.map Prod.snd).Nodup →
      arm.Within (Inner a 0) → ((test r a content exits).append arm).Within fun o => a <:+ o.address :=
    fun hexits h => ((within_test r a content _ hexits).append h fun o => atTest_not_inner).mono
      fun o ho => ho.elim AtTest.suffix Inner.suffix
  unfold decision
  split
  · next j k =>
      split
      · exact hbelow (List.nodup_singleton j.2) (harm hno)
      · next hparts =>
          have hexits : ([j, k].map Prod.snd).Nodup := by
            simpa using hparts
          obtain ⟨h₁, h₂, h₃, h₄, h₅⟩ := (within_test r a content [j, k] hexits).mono fun o =>
            AtTest.suffix
          exact ⟨h₁, h₂, h₃, h₄, h₅⟩
  · next j => exact hbelow (List.nodup_singleton j.2) (harm hno)
  · next k => exact hbelow (List.nodup_singleton k.2) (harm hyes)
  · refine hbelow List.nodup_nil (((hyes.beside hno) fun o h₀ h₁ => ?_).mono fun o ho => ?_)
    · exact absurd (inner_unique h₀.suffix h₁.suffix) Nat.zero_ne_one
    · exact ho.elim (fun h => .widen h.suffix (Nat.zero_le _))
        fun h => .widen h.suffix (Nat.zero_le _)

theorem within_whileLoop (a : Address) (content : String) (h : body.Within (Inner a 0)) :
    (whileLoop a content body).Within fun o => a <:+ o.address := by
  have hfall : (of .outermost (if body.alive then [.turn a] else []) []).Within fun o => o = .turn a := by
    cases body.alive with
    | true => exact ⟨nofun, List.nodup_nil, fun o => List.mem_singleton.mp, List.nodup_singleton _, nofun⟩
    | false => exact ⟨nofun, List.nodup_nil, nofun, List.nodup_nil, nofun⟩
  have hall := ((within_test .outermost a content [] List.nodup_nil).append h fun o => atTest_not_inner).append
    hfall fun o ho hturn => by
      subst hturn
      rcases ho with ⟨d, hd⟩ | ⟨n, -, hsuffix⟩
      · cases hd
      · exact absurd hsuffix.length_le (Nat.not_succ_le_self _)
  have hsuffix := hall.mono (Q := fun o => a <:+ o.address) fun o ho => by
    rcases ho with (ho | ho) | rfl
    · exact ho.suffix
    · exact ho.suffix
    · exact List.suffix_refl a
  refine ⟨fun o ho => (h.jumps o ho).suffix, h.jumpsOnce, hsuffix.places, hsuffix.placesOnce,
    fun k hk => ?_⟩
  rcases List.mem_append.mp hk with hk | hk
  · rcases List.mem_append.mp hk with hk | hk
    · exact h.proper k hk
    · rw [eq_of_ifNeeded hk]
      refine ⟨hsuffix.placesOnce, ?_⟩
      dsimp only
      split
      · exact .inr (.inr (.inl ⟨rfl, rfl⟩))
      · exact .inl rfl
  · rw [List.mem_singleton.mp hk]
    exact ⟨hsuffix.placesOnce, .inr (.inl ⟨rfl, rfl⟩)⟩

theorem within_doLoop (a : Address) (content : String) (h : body.Within (Inner a 0)) :
    (doLoop a body content).Within fun o => a <:+ o.address := by
  have hall := h.append (within_test .outermost a content [] List.nodup_nil) fun o ho htest =>
    atTest_not_inner htest ho
  have hsuffix := hall.mono (Q := fun o => a <:+ o.address) fun o ho =>
    ho.elim Inner.suffix AtTest.suffix
  refine ⟨fun o ho => (h.jumps o ho).suffix, h.jumpsOnce, hsuffix.places, hsuffix.placesOnce,
    fun k hk => ?_⟩
  simp only [doLoop, List.mem_append, List.mem_singleton] at hk
  rcases hk with ((hk | hk) | rfl) | hk
  · exact h.proper k hk
  · rw [eq_of_ifNeeded hk]
    exact ⟨h.placesOnce, .inl rfl⟩
  · exact ⟨hsuffix.placesOnce, .inr (.inr (.inr ⟨rfl, rfl⟩))⟩
  · rw [eq_of_ifNeeded hk]
    exact ⟨hsuffix.placesOnce, .inl rfl⟩

theorem within_switch (a : Address) (content : String) (h : cases.Within (Inner a 0)) :
    (switch a content cases).Within fun o => a <:+ o.address := by
  have hall := (within_test .outermost a content [] List.nodup_nil).append h fun o => atTest_not_inner
  have hsuffix := hall.mono (Q := fun o => a <:+ o.address) fun o ho =>
    ho.elim AtTest.suffix Inner.suffix
  refine ⟨fun o ho => (h.jumps o ho).suffix, h.jumpsOnce, hsuffix.places, hsuffix.placesOnce,
    fun k hk => ?_⟩
  rcases List.mem_append.mp hk with hk | hk
  · exact h.proper k hk
  · rw [eq_of_ifNeeded hk]
    exact ⟨hsuffix.placesOnce, .inl rfl⟩

end Story

mutual

theorem Statement.story_within (r : Around) (a : Address) (s : Statement) :
    (s.story r a).Within fun o => a <:+ o.address := by
  match s with
  | .text content => exact Story.within_caption content _
  | .pass => exact Story.within_blank _
  | .flaw fault => exact ⟨nofun, List.nodup_nil, nofun, List.nodup_nil, nofun⟩
  | .jump j =>
      have hself : ∀ o ∈ [Origin.turn a], a <:+ o.address := by
        intro o ho
        rw [List.mem_singleton.mp ho]
        exact List.suffix_refl a
      exact ⟨hself, List.nodup_singleton _, hself, List.nodup_singleton _, nofun⟩
  | .decision test yes no =>
      exact Story.within_decision r a test _ _ (Statement.storyAll_within r _ 0 yes)
        (Statement.storyAll_within r _ 0 no)
  | .whileLoop test body =>
      exact Story.within_whileLoop a test (Statement.storyAll_within (.inLoop .west a) a 0 body)
  | .doLoop body test =>
      exact Story.within_doLoop a test (Statement.storyAll_within (.inLoop .east a) a 0 body)
  | .switch subject cases =>
      exact Story.within_switch a subject (Statement.storyBranches_within (r.inSwitch a) a 0 cases)
  | .tryBlock body handlers =>
      have hbody := Statement.storyAll_within r (0 :: a) 0 body
      have hhandlers := Statement.storyBranches_within r (1 :: a) 0 handlers
      refine (hbody.beside hhandlers fun o h₀ h₁ => ?_).mono fun o ho => ?_
      · exact absurd (Story.inner_unique h₀.suffix h₁.suffix) Nat.zero_ne_one
      · exact ho.elim (fun h => (List.suffix_cons 0 a).trans h.suffix)
          fun h => (List.suffix_cons 1 a).trans h.suffix

theorem Statement.storyAll_within (r : Around) (a : Address) (number : Nat)
    (b : List Statement) :
    (Statement.storyAll r a number b).Within (Story.Inner a number) := by
  match b with
  | [] => exact Story.within_blank _
  | s :: rest =>
      refine ((Statement.story_within r (number :: a) s).followedBy
        (Statement.storyAll_within r a (number + 1) rest) fun o hs hrest => ?_).mono
          fun o ho => ?_
      · obtain ⟨n, hn, hsuffix⟩ := hrest
        exact absurd (Story.inner_unique hs hsuffix) (Nat.ne_of_lt hn)
      · rcases ho with ho | ⟨n, hn, hsuffix⟩
        · exact ⟨number, le_rfl, ho⟩
        · exact ⟨n, Nat.le_of_succ_le hn, hsuffix⟩

theorem Statement.storyBranches_within (r : Around) (a : Address) (number : Nat)
    (bs : List (String × List Statement)) :
    (Statement.storyBranches r a number bs).Within (Story.Inner a number) := by
  match bs with
  | [] => exact ⟨nofun, List.nodup_nil, nofun, List.nodup_nil, nofun⟩
  | (label, block) :: rest =>
      refine ((Statement.storyAll_within r (number :: a) 0 block).beside
        (Statement.storyBranches_within r a (number + 1) rest) fun o hblock hrest => ?_).mono
          fun o ho => ?_
      · obtain ⟨n, hn, hsuffix⟩ := hrest
        exact absurd (Story.inner_unique hblock.suffix hsuffix) (Nat.ne_of_lt hn)
      · rcases ho with ho | ⟨n, hn, hsuffix⟩
        · exact ⟨number, le_rfl, ho.suffix⟩
        · exact ⟨n, Nat.le_of_succ_le hn, hsuffix⟩

end

def Scope.admits (scope : Scope) : Jump → Bool
  | .leave => scope.leave
  | .resume => scope.resume

namespace Story
variable {j : Jump} {s t : Story} {r : Around}

/-- Where the jumps of one kind leave a story. -/
def left (j : Jump) (s : Story) : List Origin :=
  match j with
  | .leave => s.leaving
  | .resume => s.resuming

theorem left_append (j : Jump) (s t : Story) : (s.append t).left j = s.left j ++ t.left j := by
  cases j <;> rfl

theorem left_append_nil (hs : s.left j = []) (ht : t.left j = []) : (s.append t).left j = [] := by
  rw [left_append, hs, ht, List.append_nil]

theorem left_followedBy (hs : s.left j = []) (ht : t.left j = []) : (s.followedBy t).left j = [] := by
  unfold followedBy
  split
  · exact left_append_nil hs ht
  · exact hs

theorem left_beside (hs : s.left j = []) (ht : t.left j = []) : (s.beside t).left j = [] := by
  have hboth := left_append_nil hs ht
  cases j <;> exact hboth

theorem left_test (a : Address) (content : String) {exits : List (Jump × Direction)}
    (h : ∀ e ∈ exits, e.1 ≠ j) : (test r a content exits).left j = [] := by
  have hleft : (test r a content exits).left j = leftBy j (exits.map fun e => (e.1, .side a e.2)) := by
    cases j <;> rfl
  rw [hleft, leftBy, List.filter_eq_nil_iff.mpr, List.map_nil]
  intro p hp heq
  obtain ⟨e, he, rfl⟩ := List.mem_map.mp hp
  exact h e he (beq_iff_eq.mp heq)

theorem left_decision (a : Address) (content : String) {yesJump noJump : Option (Jump × Direction)}
    {yes no : Story} (hyesJump : ∀ e ∈ yesJump, e.1 ≠ j) (hnoJump : ∀ e ∈ noJump, e.1 ≠ j)
    (hyes : yes.left j = []) (hno : no.left j = []) :
    (decision r a content yesJump noJump yes no).left j = [] := by
  have hone : ∀ {e : Jump × Direction}, e.1 ≠ j → (test r a content [e]).left j = [] :=
    fun he => left_test a content fun e' he' => by
      rw [List.mem_singleton.mp he']
      exact he
  unfold decision
  split
  · next e f =>
      split
      · exact left_append_nil (hone (hyesJump e rfl)) hno
      · have hboth : (test r a content [e, f]).left j = [] := by
          refine left_test a content fun e' he' => ?_
          rcases List.mem_cons.mp he' with rfl | he'
          · exact hyesJump _ rfl
          · rw [List.mem_singleton.mp he']
            exact hnoJump f rfl
        cases j <;> exact hboth
  · next e => exact left_append_nil (hone (hyesJump e rfl)) hno
  · next f => exact left_append_nil (hone (hnoJump f rfl)) hyes
  · exact left_append_nil (left_test a content nofun) (left_beside hyes hno)

theorem left_storyAll {b : List Statement}
    (h : ∀ t ∈ b, ∀ r a, (Statement.story r a t).left j = []) (r : Around) (a : Address)
    (number : Nat) : (Statement.storyAll r a number b).left j = [] := by
  induction b generalizing number with
  | nil => cases j <;> rfl
  | cons s rest ih =>
      exact left_followedBy (h s List.mem_cons_self r _)
        (ih (fun t ht => h t (List.mem_cons_of_mem _ ht)) (number + 1))

theorem left_storyBranches {bs : List (String × List Statement)}
    (h : ∀ b ∈ bs, ∀ t ∈ b.2, ∀ r a, (Statement.story r a t).left j = []) (r : Around)
    (a : Address) (number : Nat) : (Statement.storyBranches r a number bs).left j = [] := by
  induction bs generalizing number with
  | nil => cases j <;> rfl
  | cons branch rest ih =>
      exact left_beside (left_storyAll (h branch List.mem_cons_self) r _ 0)
        (ih (fun b hb => h b (List.mem_cons_of_mem _ hb)) (number + 1))

end Story

theorem Around.admits_soleJump {scope : Scope} {r : Around} {block : Block}
    (h : ∀ t ∈ block, t.Fits scope) {e : Jump × Direction} (he : e ∈ r.soleJump block) :
    scope.admits e.1 = true := by
  obtain ⟨k, hk, rfl⟩ := Option.map_eq_some_iff.mp he
  unfold Block.soleJump? at hk
  split at hk
  · cases hk
    cases h _ List.mem_cons_self with
    | leave hscope => exact hscope
    | resume hscope => exact hscope
  · cases hk

theorem Statement.Fits.left_story {scope : Scope} {t : Statement} (h : t.Fits scope) {j : Jump}
    (hj : scope.admits j = false) (r : Around) (a : Address) : (t.story r a).left j = [] := by
  induction h generalizing r a with
  | text => cases j <;> rfl
  | pass => cases j <;> rfl
  | leave hscope =>
      cases j with
      | leave => exact absurd (hscope.symm.trans hj) nofun
      | resume => rfl
  | resume hscope =>
      cases j with
      | leave => rfl
      | resume => exact absurd (hscope.symm.trans hj) nofun
  | @decision scope test yes no hyes hno ihyes ihno =>
      have hparts : ∀ {block : Block}, (∀ t ∈ block, t.Fits scope) →
          ∀ e ∈ r.soleJump block, e.1 ≠ j := by
        rintro block hblock e he rfl
        exact absurd ((Around.admits_soleJump hblock he).symm.trans hj) nofun
      exact Story.left_decision a test (hparts hyes) (hparts hno)
        (Story.left_storyAll (fun t ht => ihyes t ht hj) r _ 0)
        (Story.left_storyAll (fun t ht => ihno t ht hj) r _ 0)
  | whileLoop => cases j <;> rfl
  | doLoop => cases j <;> rfl
  | @switch scope subject cases hcases ih =>
      cases j with
      | leave => rfl
      | resume =>
          exact Story.left_storyBranches (j := .resume) (fun b hb t ht => ih b hb t ht hj) _ a 0
  | @tryBlock scope body handlers hbody hhandlers ihbody ihhandlers =>
      exact Story.left_beside (Story.left_storyAll (fun t ht => ihbody t ht hj) r _ 0)
        (Story.left_storyBranches (fun b hb t ht => ihhandlers b hb t ht hj) r _ 0)

theorem Story.left_ofProgram {program : Node} (h : program.IsProgram) (j : Jump) :
    (ofProgram program).left j = [] := by
  obtain ⟨statements, rfl, hgrammar⟩ := h
  refine left_storyAll (fun t ht r a => ?_) .outermost [] 0
  have hfits : t.Fits .outermost := fits_of_grammar hgrammar t ht
  refine hfits.left_story ?_ r a
  cases j <;> rfl

end Flowchart
