import Flowchart.Proofs.Chart.Story
import Flowchart.Proofs.Shape.Moved
/-! Drawings that tell a story. Each token of the story is a leaf of the drawing, and the points at
which jumps leave it are ends of trunks and sides of tests among those leaves. -/
namespace Flowchart
variable {α : Type} [Scalar α]

def Placed.stop? (p : Placed α) : Option (α × α) :=
  match p.shape with
  | .path line => line.vertices.getLast?.map fun v => (p.x + v.1, p.y + v.2)
  | .point _ | .text _ | .rect _ | .frame _ | .diamond _ | .group .. => none

/-- The sides of a test are those of its group, at whose corner the outline lies. -/
def Context.side (x : Context α) (content : String) (p : Placed α) (d : Direction) : α × α :=
  let size := (x.diamond content).bounds
  match d with
  | .east => (p.x + size.width, p.y + size.height / 2.0)
  | .west => (p.x, p.y + size.height / 2.0)
  | .south => (p.x + size.width / 2.0, p.y + size.height)

/-- A leaf that shows a token: the caption of a node, the outline of a test, a piece of trunk that
goes straight down. -/
def Token.Shows (x : Context α) (p : Placed α) : Token → Prop
  | .caption content => ∃ text, p.shape = .text text ∧ text.content = content ∧ text.isLabel = false
  | .test _ content => ∃ outline text, p.shape = .diamond outline ∧
      (x.diamond content).children = [.diamond outline, text]
  | .turn _ => ∃ top length, p.shape = .path (Path.down 0 top length)

inductive Origin.At (x : Context α) (told : List (Token × Placed α)) : Origin → α × α → Prop
  | turn {a p point} : (.turn a, p) ∈ told → p.stop? = some point → At x told (.turn a) point
  | side {a content p d} : (.test a content, p) ∈ told →
      At x told (.side a d) (x.side content p d)

structure Retold (x : Context α) (tokens : List Token) (leaves : List (Placed α))
    (told : List (Token × Placed α)) : Prop where
  tokens : told.map Prod.fst = tokens
  shown : ∀ e ∈ told, e.1.Shows x e.2
  drawn : Scalar.Exact α → (told.map Prod.snd).Sublist leaves

/-- There is one point for each origin, and it lies there. -/
def Noted (x : Context α) (told : List (Token × Placed α)) (origins : List Origin)
    (points : List (α × α)) : Prop :=
  List.Forall₂ (fun o point => Scalar.Exact α → o.At x told point) origins points

/-- The leaves of a shape, in the coordinates of its parent. A placeholder shows nothing. -/
def Shape.visible (s : Shape α) : List (Placed α) :=
  (s.leaves 0 0).filter fun p => !p.shape.isPlaceholder

def Group.visible (g : Group α) : List (Placed α) :=
  (Shape.leavesAll 0 0 g.children).filter fun p => !p.shape.isPlaceholder

/-- A stroke that draws a connector: it brings together a point for each of its origins, where the
drawing that it is drawn into shows them. -/
inductive Connector.Drawn (x : Context α) (k : Connector) : Stroke α → Prop
  | route {told points lane target drawing} : Retold x k.told (Group.visible drawing) told →
      Noted x told k.origins points → k.Drawn x (.route k.role points lane target drawing)

namespace Group

theorem visible_push (g : Group α) (s : Shape α) : (g.push s).visible = g.visible ++ s.visible := by
  have hpush := collect_push
    (fun shapes => (Shape.leavesAll 0 0 shapes).filter fun p => !p.shape.isPlaceholder)
    (fun shapes others => by rw [Shape.leavesAll_append, List.filter_append]) (fun t ht => ?_) g s
  · rwa [Shape.leavesAll, Shape.leavesAll, List.append_nil] at hpush
  · cases t with
    | point p => simp [Shape.leavesAll, Shape.leaves, ht]
    | _ => cases ht

theorem visible_shift (h : Scalar.Exact α) {g : Group α} (hx : g.x = 0) (hy : g.y = 0) (dx dy : α) :
    (g.shift dx dy).toShape.visible = g.visible.map (·.shift dx dy) := by
  unfold Shape.visible visible toShape shift
  rw [Shape.leaves, hx, hy, h.zero_add (0 + dx), h.zero_add (0 + dy), Shape.leavesAll_shift h,
    List.filter_map]
  rfl

end Group

namespace Scalar.Exact

theorem getLast?_down (h : Scalar.Exact α) (top bottom : α) :
    (Path.down 0 top (bottom - top)).vertices.getLast? = some (0, bottom) := by
  unfold Path.down Path.vertical Path.push Path.start
  split
  · next hzero =>
      have hlength : bottom - top = 0 := h.eq_of_beq _ _ hzero
      have hend := h.add_sub top bottom
      rw [hlength, h.add_zero] at hend
      rw [← hend]
      rfl
  · have hend := h.add_sub top bottom
    change some ((0 : α), top + (bottom - top)) = _
    rw [hend]

end Scalar.Exact

theorem Placed.stop?_shift (h : Scalar.Exact α) {p : Placed α} {point : α × α}
    (hp : p.stop? = some point) (dx dy : α) :
    (p.shift dx dy).stop? = some (point.1 + dx, point.2 + dy) := by
  unfold stop? at hp ⊢
  unfold shift
  split at hp
  · next line hline =>
      obtain ⟨v, hv, rfl⟩ := Option.map_eq_some_iff.mp hp
      dsimp only
      rw [hline]
      dsimp only
      rw [hv, Option.map_some, h.add_right_comm p.x, h.add_right_comm p.y]
  all_goals cases hp

theorem Context.side_shift (h : Scalar.Exact α) (x : Context α) (content : String) (p : Placed α)
    (dx dy : α) (d : Direction) : x.side content (p.shift dx dy) d =
      ((x.side content p d).1 + dx, (x.side content p d).2 + dy) := by
  unfold side Placed.shift
  cases d <;> dsimp only <;> simp only [h.add_right_comm p.x, h.add_right_comm p.y]

def moveTold (told : List (Token × Placed α)) (dx dy : α) : List (Token × Placed α) :=
  told.map fun e => (e.1, e.2.shift dx dy)

section
variable {x : Context α} {told more : List (Token × Placed α)} {tokens tokens' : List Token}
  {leaves leaves' : List (Placed α)} {origins origins' : List Origin} {points points' : List (α × α)}

theorem Retold.nil (x : Context α) (leaves : List (Placed α)) : Retold x [] leaves [] :=
  ⟨rfl, nofun, fun _ => List.nil_sublist _⟩

theorem Retold.append (h : Retold x tokens leaves told) (k : Retold x tokens' leaves' more) :
    Retold x (tokens ++ tokens') (leaves ++ leaves') (told ++ more) where
  tokens := by rw [List.map_append, h.tokens, k.tokens]
  shown e he := (List.mem_append.mp he).elim (h.shown e) (k.shown e)
  drawn exact := by
    rw [List.map_append]
    exact (h.drawn exact).append (k.drawn exact)

theorem Retold.mono (h : Retold x tokens leaves told) (hleaves : leaves.Sublist leaves') :
    Retold x tokens leaves' told := ⟨h.tokens, h.shown, fun exact => (h.drawn exact).trans hleaves⟩

theorem Retold.move (h : Retold x tokens leaves told) {dx dy : α}
    (hleaves : Scalar.Exact α → leaves' = leaves.map (·.shift dx dy)) :
    Retold x tokens leaves' (moveTold told dx dy) where
  tokens := by
    unfold moveTold
    rw [List.map_map]
    exact h.tokens
  shown e he := by
    obtain ⟨e', he', rfl⟩ := List.mem_map.mp he
    have hshown := h.shown e' he'
    unfold Token.Shows at hshown ⊢
    exact hshown
  drawn exact := by
    have hmoved := (h.drawn exact).map (·.shift dx dy)
    rw [List.map_map] at hmoved
    unfold moveTold
    rw [hleaves exact, List.map_map]
    exact hmoved

theorem Origin.At.mono {o : Origin} {point : α × α} (h : o.At x told point) (hsub : told ⊆ more) :
    o.At x more point := by
  cases h with
  | turn hmem hstop => exact .turn (hsub hmem) hstop
  | side hmem => exact .side (hsub hmem)

theorem Origin.At.move (exact : Scalar.Exact α) {o : Origin} {point : α × α} (h : o.At x told point)
    (dx dy : α) : o.At x (moveTold told dx dy) (point.1 + dx, point.2 + dy) := by
  cases h with
  | turn hmem hstop =>
      exact .turn (List.mem_map_of_mem hmem) (Placed.stop?_shift exact hstop dx dy)
  | @side a content p d hmem =>
      rw [← x.side_shift exact]
      exact .side (List.mem_map_of_mem hmem)

theorem Noted.mono (h : Noted x told origins points) (hsub : told ⊆ more) :
    Noted x more origins points := h.imp fun _ _ hat exact => (hat exact).mono hsub

theorem Noted.isEmpty (h : Noted x told origins points) : points.isEmpty = origins.isEmpty := by
  cases h <;> rfl

theorem Noted.append (h : Noted x told origins points) (k : Noted x more origins' points') :
    Noted x (told ++ more) (origins ++ origins') (points ++ points') :=
  List.rel_append (h.mono (List.subset_append_left _ _)) (k.mono (List.subset_append_right _ _))

theorem Noted.move (h : Noted x told origins points) (dx : α) :
    Noted x (moveTold told dx 0) origins (points.map fun p => (p.1 + dx, p.2)) := by
  refine List.forall₂_map_right_iff.mpr (h.imp fun o point hat exact => ?_)
  have hmoved := (hat exact).move exact dx 0
  rwa [exact.add_zero] at hmoved

end

/-- What a strand has drawn, the points of its pending jumps, and its connectors. -/
structure Account (α : Type) where
  leaves : List (Placed α)
  breaks : List (α × α)
  continues : List (α × α)
  routes : List (Stroke α)

namespace Account

def append (u v : Account α) : Account α where
  leaves := u.leaves ++ v.leaves
  breaks := u.breaks ++ v.breaks
  continues := u.continues ++ v.continues
  routes := u.routes ++ v.routes

/-- An account tells a story if the leaves show its tokens, the points lie where its jumps leave, and
its connectors are drawn one by one. -/
def Tells (x : Context α) (s : Story) (u : Account α) : Prop :=
  ∃ told, Retold x s.tokens u.leaves told ∧ Noted x told s.leaving u.breaks ∧
    Noted x told s.resuming u.continues ∧ List.Forall₂ (Connector.Drawn x) s.connectors u.routes

variable {x : Context α} {s t : Story} {u v : Account α}

theorem Tells.append (h : u.Tells x s) (k : v.Tells x t) : (u.append v).Tells x (s.append t) := by
  obtain ⟨told, htold, hbreaks, hcontinues, hroutes⟩ := h
  obtain ⟨more, hmore, hbreaks', hcontinues', hroutes'⟩ := k
  exact ⟨told ++ more, htold.append hmore, hbreaks.append hbreaks', hcontinues.append hcontinues',
    List.rel_append hroutes hroutes'⟩

theorem Tells.mono (h : u.Tells x s) {leaves : List (Placed α)} (hleaves : u.leaves.Sublist leaves) :
    Tells x s { u with leaves } := by
  obtain ⟨told, htold, hrest⟩ := h
  exact ⟨told, htold.mono hleaves, hrest⟩

theorem Tells.move (h : u.Tells x s) {dx : α} {leaves : List (Placed α)}
    (hleaves : Scalar.Exact α → leaves = u.leaves.map (·.shift dx 0)) :
    Tells x s ⟨leaves, u.breaks.map fun p => (p.1 + dx, p.2), u.continues.map fun p => (p.1 + dx, p.2),
      u.routes⟩ := by
  obtain ⟨told, htold, hbreaks, hcontinues, hroutes⟩ := h
  exact ⟨moveTold told dx 0, htold.move hleaves, hbreaks.move dx, hcontinues.move dx, hroutes⟩

end Account

end Flowchart
