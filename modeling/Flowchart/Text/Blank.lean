/-!
Blank characters, trimming and lines. Texts are taken as lists of characters, so that each
function is a recursion on the text it reads.
-/
namespace Flowchart.Text

/-- The characters with the Unicode property White_Space. -/
def isBlank (c : Char) : Bool :=
  let n := c.toNat
  (0x09 ≤ n && n ≤ 0x0D) || n == 0x20 || n == 0x85 || n == 0xA0 || n == 0x1680
    || (0x2000 ≤ n && n ≤ 0x200A) || n == 0x2028 || n == 0x2029 || n == 0x202F || n == 0x205F
    || n == 0x3000

def dropEndWhile (p : Char → Bool) (s : List Char) : List Char :=
  (s.reverse.dropWhile p).reverse

def trimStart (s : List Char) : List Char := s.dropWhile isBlank

def trimEnd (s : List Char) : List Char := dropEndWhile isBlank s

def trim (s : List Char) : List Char := trimEnd (trimStart s)

/-- The lines of a text. A line feed ends a line and takes one carriage return before it along;
the last line needs no end. -/
def lines : List Char → List (List Char)
  | [] => []
  | '\n' :: rest => [] :: lines rest
  | '\r' :: '\n' :: rest => [] :: lines rest
  | c :: rest =>
    match lines rest with
    | [] => [[c]]
    | line :: others => (c :: line) :: others

/-- The first word of a text and what follows it, trimmed. -/
def splitWord (s : List Char) : List Char × List Char :=
  let text := trim s
  (text.takeWhile (!isBlank ·), trim (text.dropWhile (!isBlank ·)))

/-- The parts of a text between the separators. -/
def split (separator : Char) : List Char → List (List Char)
  | [] => [[]]
  | c :: rest =>
    if c == separator then [] :: split separator rest
    else match split separator rest with
      | [] => [[c]]
      | part :: others => (c :: part) :: others

theorem split_ne_nil (separator : Char) (s : List Char) : split separator s ≠ [] := by
  induction s with
  | nil => simp [split]
  | cons c rest ih =>
    unfold split
    split
    · simp
    · split <;> simp

def strip (mark : Char) (s : List Char) : List Char :=
  dropEndWhile (· == mark) (s.dropWhile (· == mark))

def dropStart? : List Char → List Char → Option (List Char)
  | [], s => some s
  | _ :: _, [] => none
  | p :: ps, c :: cs => if p == c then dropStart? ps cs else none

theorem dropStart?_eq_some_iff {start s rest : List Char} :
    dropStart? start s = some rest ↔ s = start ++ rest := by
  induction start generalizing s with
  | nil => simp [dropStart?]
  | cons p ps ih =>
    cases s with
    | nil => simp [dropStart?]
    | cons c cs =>
      by_cases h : p = c
      · simp [dropStart?, h, ih]
      · simp [dropStart?, h, Ne.symm h]

def dropEndings (ending : List Char) (s : List Char) : List Char :=
  (go s.length s.reverse).reverse
where
  go : Nat → List Char → List Char
    | 0, r => r
    | n + 1, r =>
      match dropStart? ending.reverse r with
      | some rest => if ending.isEmpty then r else go n rest
      | none => r

end Flowchart.Text
