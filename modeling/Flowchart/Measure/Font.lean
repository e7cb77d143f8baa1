import Flowchart.Measure.Approx
/-!
Text sizes from the advances of real fonts. A list of family names is resolved to a font by a
database, which is not looked into here; what no font has is measured approximately. A measurer
remembers the faces and the advances that it has looked up, which never shows in what it answers.
-/
namespace Flowchart.Measure

/-- A font: the names of its family, its units, and the advances of the characters it has. -/
structure Font where
  families : List String
  unitsPerEm : Nat
  advances : List (Char × Nat)
deriving DecidableEq, Repr

def isAscii (c : Char) : Bool := c.toNat < 128

namespace Font

def isUsable (f : Font) : Bool := 16 ≤ f.unitsPerEm && f.unitsPerEm ≤ 16384

def advance? (f : Font) (c : Char) : Option Nat := (f.advances.find? (·.1 == c)).map Prod.snd

/-- The advance that a character is drawn with. An ASCII character of no advance counts as one that
the font does not have. -/
def glyph? (f : Font) (c : Char) : Option Nat :=
  if isAscii c then (f.advance? c).filter (0 < ·) else f.advance? c

end Font

/-- A family that is asked for: of a generic kind, or by its name. -/
inductive Family where
  | serif
  | sansSerif
  | monospace
  | cursive
  | fantasy
  | named (name : String)
deriving DecidableEq, Repr

namespace Family

def ofName (name : List Char) : Family :=
  let plain := String.ofList name
  match String.ofList (name.map Char.toLower) with
  | "serif" => .serif
  | "sans-serif" | "system-ui" | "-apple-system" | "ui-sans-serif" => .sansSerif
  | "monospace" | "ui-monospace" => .monospace
  | "cursive" => .cursive
  | "fantasy" => .fantasy
  | _ => .named plain

def name : Family → String
  | .serif => "Times New Roman"
  | .sansSerif => "Arial"
  | .monospace => "Courier New"
  | .cursive => "Comic Sans MS"
  | .fantasy => "Impact"
  | .named name => name

end Family

/-- The families of a comma-separated list, without blanks and quotes around the names. -/
def familyList (list : String) : List Family :=
  let names := (Text.split ',' list.toList).map fun part =>
    Text.strip '\'' (Text.strip '"' (Text.trim part))
  match names.filter (!·.isEmpty) with
  | [] => [.sansSerif]
  | named => named.map Family.ofName

/-- The list under which a style's fonts are looked up. -/
def familyQuery (family : String) : String :=
  let trimmed := Text.trim family.toList
  if trimmed.isEmpty then "sans-serif" else .ofList trimmed

/-- A font database: the usable font, if there is one, that a list of families resolves to. -/
abbrev Database := List Family → Option Font

/-- The database of some fonts: the first family in a list that any font has decides, and gives
nothing if its font is not usable. -/
def Database.ofFonts (fonts : List Font) : Database := fun families =>
  let found := families.findSome? fun family =>
    fonts.find? fun f => f.families.contains family.name
  found.filter Font.isUsable

def resolve (db : Database) (style : Attrs) : Option Font :=
  db (familyList (familyQuery (fontFamily style)))

def expandTabs (text : List Char) : List Char :=
  text.flatMap fun c => if c == '\t' then [' ', ' ', ' ', ' '] else [c]

def glyphWidth (f : Font) (size : Float32) (c : Char) (advance : Option Nat) : Float32 :=
  match advance with
  | some units => Decimal.singleOfInt units * (size / Decimal.singleOfInt (max f.unitsPerEm 1))
  | none => approxWidth [c] size

def withFont (f : Font) (size : Float32) (text : List Char) : Float32 :=
  total (((expandTabs text).filter (· != '\n')).map fun c => glyphWidth f size c (f.glyph? c))

/-- The size of a text in the fonts of a database. -/
def inDatabase (db : Database) : Measure Float32 := fun text style =>
  let size := fontSize style
  if text.isEmpty then ⟨0, size * lineHeight⟩
  else match resolve db style with
    | some f => ⟨withFont f size text.toList, size * lineHeight⟩
    | none => approx text style

def inFonts (fonts : List Font) : Measure Float32 := inDatabase (.ofFonts fonts)

/-- A resolved face with the advances of the characters beyond ASCII that were asked for. -/
structure Face where
  font : Font
  seen : List (Char × Option Nat)
deriving DecidableEq, Repr

/-- A measurer with the faces it has resolved so far, found or not, by the lists asked for. -/
structure Measurer where
  database : Database
  faces : List (String × Option Face)

namespace Face

def lookup (face : Face) (c : Char) : Option (Option Nat) :=
  (face.seen.find? (·.1 == c)).map Prod.snd

def learn (face : Face) (c : Char) : Face :=
  if isAscii c || (face.lookup c).isSome then face
  else { face with seen := (c, face.font.glyph? c) :: face.seen }

def glyph? (face : Face) (c : Char) : Option Nat :=
  if isAscii c then face.font.glyph? c else (face.lookup c).join

/-- The width of a text, and the face with its characters learnt. -/
def width (face : Face) (size : Float32) (text : List Char) : Float32 × Face :=
  let text := expandTabs text
  let learnt := text.foldl learn face
  let shown := text.filter (· != '\n')
  (total (shown.map fun c => glyphWidth face.font size c (learnt.glyph? c)), learnt)

end Face

namespace Measurer

def fresh (db : Database) : Measurer := ⟨db, []⟩

def start (fonts : List Font) : Measurer := fresh (.ofFonts fonts)

def known? (m : Measurer) (key : String) : Option (Option Face) :=
  (m.faces.find? (·.1 == key)).map Prod.snd

def remember (m : Measurer) (key : String) (face : Option Face) : Measurer :=
  { m with faces := (key, face) :: m.faces.filter (·.1 != key) }

def face? (m : Measurer) (key : String) : Option Face :=
  match m.known? key with
  | some face => face
  | none => (m.database (familyList key)).map fun font => ⟨font, []⟩

def measure (m : Measurer) (text : String) (style : Attrs) : Size Float32 × Measurer :=
  let size := fontSize style
  if text.isEmpty then (⟨0, size * lineHeight⟩, m)
  else
    let key := familyQuery (fontFamily style)
    match m.face? key with
    | some face =>
      let (width, face) := face.width size text.toList
      (⟨width, size * lineHeight⟩, m.remember key (some face))
    | none => (approx text style, m.remember key none)

def measureAll (m : Measurer) : List (String × Attrs) → List (Size Float32) × Measurer
  | [] => ([], m)
  | (text, style) :: rest =>
    let (size, m) := m.measure text style
    let (sizes, m) := measureAll m rest
    (size :: sizes, m)

end Measurer
end Flowchart.Measure
