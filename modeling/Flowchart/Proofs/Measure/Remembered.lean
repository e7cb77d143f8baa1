import Mathlib.Data.List.Basic
import Flowchart.Measure.Font
/-! What a measurer remembers never shows. A face knows nothing but advances of its font, and a
measurer nothing but what its database answers, so every text has the size that it has without any
memory, whatever was measured before. -/
namespace Flowchart.Measure

namespace Face

/-- What is known of a character is what the font says. -/
def Faithful (face : Face) : Prop :=
  ∀ c advance, face.lookup c = some advance → advance = face.font.glyph? c

theorem faithful_start (font : Font) : Faithful ⟨font, []⟩ := nofun

theorem learn_font (face : Face) (c : Char) : (face.learn c).font = face.font := by
  unfold learn
  split <;> rfl

theorem lookup_cons (font : Font) (seen : List (Char × Option Nat)) (c d : Char)
    (advance : Option Nat) :
    lookup ⟨font, (c, advance) :: seen⟩ d = if c = d then some advance else lookup ⟨font, seen⟩ d := by
  by_cases same : c = d <;> simp [lookup, same]

theorem learn_faithful {face : Face} (h : face.Faithful) (c : Char) : (face.learn c).Faithful := by
  unfold learn
  split
  · exact h
  · intro d advance known
    rw [lookup_cons] at known
    split at known
    · next same =>
        cases known
        exact same ▸ rfl
    · exact h d advance known

theorem known_learn {face : Face} {c : Char} (d : Char) (h : (face.lookup c).isSome) :
    ((face.learn d).lookup c).isSome := by
  unfold learn
  split
  · exact h
  · rw [lookup_cons]
    split
    · rfl
    · exact h

theorem known_learn_self {face : Face} {c : Char} (h : isAscii c = false) :
    ((face.learn c).lookup c).isSome := by
  unfold learn
  split
  · next known => simpa [h] using known
  · simp [lookup]

theorem learnAll_font (face : Face) (text : List Char) : (text.foldl learn face).font = face.font := by
  induction text generalizing face with
  | nil => rfl
  | cons c rest ih => exact (ih _).trans (face.learn_font c)

theorem learnAll_faithful {face : Face} (h : face.Faithful) (text : List Char) :
    (text.foldl learn face).Faithful := by
  induction text generalizing face with
  | nil => exact h
  | cons c rest ih => exact ih (learn_faithful h c)

theorem known_learnAll {face : Face} {c : Char} (text : List Char) (h : (face.lookup c).isSome) :
    ((text.foldl learn face).lookup c).isSome := by
  induction text generalizing face with
  | nil => exact h
  | cons d rest ih => exact ih (known_learn d h)

theorem known_of_mem {face : Face} {text : List Char} {c : Char} (mem : c ∈ text)
    (h : isAscii c = false) : ((text.foldl learn face).lookup c).isSome := by
  induction text generalizing face with
  | nil => cases mem
  | cons d rest ih =>
      rcases List.mem_cons.mp mem with rfl | mem
      · exact known_learnAll rest (known_learn_self h)
      · exact ih mem

theorem glyph?_eq {face : Face} (h : face.Faithful) {c : Char}
    (known : isAscii c = false → (face.lookup c).isSome) : face.glyph? c = face.font.glyph? c := by
  unfold glyph?
  split
  · rfl
  · next beyond =>
      obtain ⟨advance, found⟩ := Option.isSome_iff_exists.mp (known (eq_false_of_ne_true beyond))
      rw [found, ← h c advance found]
      rfl

/-- A face measures as its font does, and learns nothing but what that says. -/
theorem width_spec {face : Face} (h : face.Faithful) (size : Float32) (text : List Char) :
    (face.width size text).1 = withFont face.font size text ∧
      (face.width size text).2.font = face.font ∧ (face.width size text).2.Faithful := by
  refine ⟨?_, learnAll_font face _, learnAll_faithful h _⟩
  unfold width withFont
  dsimp only
  congr 1
  refine List.map_congr_left fun c mem => ?_
  have learnt := glyph?_eq (learnAll_faithful h (expandTabs text)) (c := c)
    (known_of_mem (List.mem_of_mem_filter mem))
  rw [learnt, learnAll_font]

end Face

namespace Measurer

/-- Every list of families that was asked for is remembered with the font that it resolves to. -/
structure Sound (db : Database) (m : Measurer) : Prop where
  database : m.database = db
  fonts : ∀ key found, m.known? key = some found → found.map Face.font = db (familyList key)
  faces : ∀ key face, m.known? key = some (some face) → face.Faithful

theorem sound_fresh (db : Database) : Sound db (fresh db) := ⟨rfl, nofun, nofun⟩

theorem known?_remember (m : Measurer) (key asked : String) (found : Option Face) :
    (m.remember key found).known? asked = if key = asked then some found else m.known? asked := by
  unfold remember known?
  by_cases same : key = asked
  · simp [same]
  · have others : (m.faces.filter (·.1 != key)).find? (·.1 == asked) =
        m.faces.find? (·.1 == asked) := by
      rw [List.find?_filter]
      congr 1
      funext entry
      by_cases eq : entry.1 = asked
      · simp [eq, Ne.symm same]
      · simp [eq]
    simp [same, others]

theorem face?_spec {db : Database} {m : Measurer} (h : m.Sound db) (key : String) :
    (m.face? key).map Face.font = db (familyList key) ∧
      ∀ face, m.face? key = some face → face.Faithful := by
  unfold face?
  cases known : m.known? key with
  | some found =>
      refine ⟨h.fonts key found known, fun face eq => h.faces key face ?_⟩
      rw [known, ← eq]
  | none =>
      dsimp only
      rw [h.database]
      cases db (familyList key) with
      | none => exact ⟨rfl, nofun⟩
      | some font =>
          refine ⟨rfl, fun face eq => ?_⟩
          cases eq
          exact Face.faithful_start font

theorem remember_sound {db : Database} {m : Measurer} (h : m.Sound db) {key : String}
    {found : Option Face} (font : found.map Face.font = db (familyList key))
    (faithful : ∀ face, found = some face → face.Faithful) : (m.remember key found).Sound db := by
  refine ⟨h.database, fun asked other known => ?_, fun asked face known => ?_⟩
  · rw [known?_remember] at known
    split at known
    · next same =>
        cases known
        exact same ▸ font
    · exact h.fonts asked other known
  · rw [known?_remember] at known
    split at known
    · exact faithful face (Option.some.inj known)
    · exact h.faces asked face known

/-- One measurement gives the size that the database gives, and remembers what that answered. -/
theorem measure_spec {db : Database} {m : Measurer} (h : m.Sound db) (text : String) (style : Attrs) :
    (m.measure text style).1 = inDatabase db text style ∧ (m.measure text style).2.Sound db := by
  unfold measure inDatabase
  dsimp only
  split
  · exact ⟨rfl, h⟩
  · obtain ⟨font, faithful⟩ := face?_spec h (familyQuery (fontFamily style))
    cases found : m.face? (familyQuery (fontFamily style)) with
    | none =>
        rw [found] at font
        rw [resolve, ← font]
        exact ⟨rfl, remember_sound h font nofun⟩
    | some face =>
        rw [found] at font
        obtain ⟨width, sameFont, learnt⟩ :=
          face.width_spec (faithful face found) (fontSize style) text.toList
        rw [resolve, ← font]
        refine ⟨?_, remember_sound h ?_ ?_⟩
        · simp only [width, Option.map_some]
        · rw [← font, Option.map_some, Option.map_some, sameFont]
        · intro other eq
          cases eq
          exact learnt

theorem measureAll_spec {db : Database} {m : Measurer} (h : m.Sound db)
    (asked : List (String × Attrs)) :
    (m.measureAll asked).1 = asked.map (fun q => inDatabase db q.1 q.2) ∧
      (m.measureAll asked).2.Sound db := by
  induction asked generalizing m with
  | nil => exact ⟨rfl, h⟩
  | cons q rest ih =>
      obtain ⟨size, sound⟩ := measure_spec h q.1 q.2
      obtain ⟨sizes, last⟩ := ih sound
      exact ⟨List.cons_eq_cons.mpr ⟨size, sizes⟩, last⟩

end Measurer

theorem approxWidth_singleton (c : Char) (size : Float32) : approxWidth [c] size = widthFactor c * size := by
  -- the sum of one width adds it to a negative zero
  have sum : (-0.0 : Float32) + widthFactor c = widthFactor c := by
    unfold widthFactor
    split <;> decide +kernel
  change (-0.0 + widthFactor c) * size = widthFactor c * size
  rw [sum]

/-- A character is as wide as its advance; one without a usable glyph has its approximate width. -/
theorem glyphWidth_glyph? (font : Font) (size : Float32) (c : Char) :
    glyphWidth font size c (font.glyph? c) =
      match font.advances.find? (·.1 = c) with
      | some (_, units) =>
        if c.toNat < 128 ∧ units = 0 then widthFactor c * size
        else Decimal.singleOfInt units * (size / Decimal.singleOfInt (max font.unitsPerEm 1))
      | none => widthFactor c * size := by
  have found : font.advance? c = (font.advances.find? (·.1 = c)).map Prod.snd := rfl
  rw [← approxWidth_singleton, Font.glyph?, found]
  cases font.advances.find? (·.1 = c) with
  | none => split <;> rfl
  | some entry =>
      obtain ⟨_, units⟩ := entry
      by_cases ascii : isAscii c = true
      · have small : c.toNat < 128 := of_decide_eq_true ascii
        rcases units.eq_zero_or_pos with rfl | positive
        · simp [Option.filter, ascii, small, glyphWidth]
        · simp [Option.filter, ascii, positive, Nat.ne_of_gt positive, glyphWidth]
      · have large : ¬c.toNat < 128 := of_decide_eq_false (eq_false_of_ne_true ascii)
        simp [ascii, large, glyphWidth]

/-- Whatever a measurer measured before, it measures a text as a fresh one does. In a font the width
is the sum of the advances, scaled to the size of the type, with a tab as four spaces and newlines
left out. A character that the font does not have, or an ASCII character that it has without an
advance, is as wide as its factor says. -/
theorem measure_after_any (db : Database) (earlier : List (String × Attrs)) (text : String)
    (style : Attrs) :
    (((Measurer.fresh db).measureAll earlier).2.measure text style).1 =
      ((Measurer.fresh db).measure text style).1 ∧
    ((Measurer.fresh db).measure text style).1 =
      (if text = "" then ⟨0, fontSize style * 1.2⟩
      else match db (familyList (familyQuery (fontFamily style))) with
        | some font =>
          let shown := (text.toList.flatMap fun c =>
            if c = '\t' then [' ', ' ', ' ', ' '] else [c]).filter (· != '\n')
          let widths := shown.map fun c =>
            match font.advances.find? (·.1 = c) with
            | some (_, units) =>
              if c.toNat < 128 ∧ units = 0 then widthFactor c * fontSize style
              else Decimal.singleOfInt units *
                (fontSize style / Decimal.singleOfInt (max font.unitsPerEm 1))
            | none => widthFactor c * fontSize style
          ⟨widths.foldl (· + ·) (-0.0), fontSize style * 1.2⟩
        | none => approx text style) ∧
    approx text style =
      ⟨(text.toList.map widthFactor).foldl (· + ·) (-0.0) * fontSize style, fontSize style * 1.2⟩ := by
  have start := Measurer.sound_fresh db
  have fresh := (Measurer.measure_spec start text style).1
  have used := (Measurer.measure_spec (Measurer.measureAll_spec start earlier).2 text style).1
  refine ⟨used.trans fresh.symm, fresh.trans ?_, rfl⟩
  unfold inDatabase
  rw [resolve]
  cases db (familyList (familyQuery (fontFamily style))) with
  | none => simp only [String.isEmpty_iff, lineHeight]
  | some font =>
      simp only [String.isEmpty_iff, lineHeight, withFont, expandTabs, total, glyphWidth_glyph?,
        beq_iff_eq]

/-- A letter, a tab, an accented letter, a newline, a character that the font lacks, and one that it has
without an advance. The accented letter is already known from an earlier text. -/
theorem measure_after_any_mixed :
    let db := Database.ofFonts [⟨["Mono"], 1024, [('a', 640), (' ', 256), ('é', 512), ('b', 0)]⟩]
    let style := Attrs.ofList [("font-family", " Missing, 'Mono'"), ("font-size", "16px")]
    (((Measurer.fresh db).measureAll [("é", style), ("", style)]).2.measure "a\té\n…b" style).1 =
      ⟨52.736, 16 * 1.2⟩ := by
  intro db style
  obtain ⟨same, size, -⟩ := measure_after_any db [("é", style), ("", style)] "a\té\n…b" style
  rw [same, size]
  decide +kernel

end Flowchart.Measure
