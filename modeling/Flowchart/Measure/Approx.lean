import Flowchart.Chart.Context
import Flowchart.Decimal.Literal
/-!
Approximate text sizes: each character has a width relative to the size of the type, as in a
common sans-serif face.
-/
namespace Flowchart.Measure

def defaultFontSize : Float32 := 14

def lineHeight : Float32 := 1.2

/-- The size of the type that a style asks for, in pixels; what is no positive number asks for the
default. -/
def fontSize (style : Attrs) : Float32 :=
  let asked := (style.get? "font-size").bind fun raw =>
    Decimal.single? (Text.dropEndings ['p', 'x'] (Text.trim raw.toList))
  match asked with
  | some size => if 0 < size then size else defaultFontSize
  | none => defaultFontSize

def fontFamily (style : Attrs) : String := (style.get? "font-family").getD "sans-serif"

def widthFactor : Char → Float32
  | ' ' => 0.306
  | '\t' => 1.224
  | '\\' | '.' | ',' | ':' | ';' | '|' | '!' | '(' | ')' | '[' | ']' | '{' | '}' => 0.321
  | 'A' => 0.652
  | 'B' => 0.648
  | 'C' => 0.734
  | 'D' => 0.723
  | 'E' => 0.594
  | 'F' => 0.575
  | 'G' | 'H' => 0.742
  | 'I' => 0.272
  | 'J' => 0.557
  | 'K' => 0.648
  | 'L' => 0.559
  | 'M' => 0.903
  | 'N' => 0.763
  | 'O' => 0.754
  | 'P' => 0.623
  | 'Q' => 0.755
  | 'R' => 0.637
  | 'S' => 0.633
  | 'T' => 0.599
  | 'U' => 0.746
  | 'V' => 0.661
  | 'W' => 0.958
  | 'X' => 0.655
  | 'Y' => 0.646
  | 'Z' => 0.621
  | 'a' => 0.550
  | 'b' => 0.603
  | 'c' => 0.547
  | 'd' => 0.609
  | 'e' => 0.570
  | 'f' => 0.340
  | 'g' | 'h' => 0.600
  | 'i' => 0.235
  | 'j' => 0.227
  | 'k' => 0.522
  | 'l' => 0.239
  | 'm' => 0.867
  | 'n' => 0.585
  | 'o' => 0.574
  | 'p' => 0.595
  | 'q' => 0.585
  | 'r' => 0.364
  | 's' => 0.523
  | 't' => 0.305
  | 'u' => 0.585
  | 'v' => 0.545
  | 'w' => 0.811
  | 'x' => 0.538
  | 'y' => 0.556
  | 'z' => 0.550
  | '0' => 0.613
  | '1' => 0.396
  | '2' => 0.609
  | '3' => 0.597
  | '4' => 0.614
  | '5' => 0.586
  | '6' => 0.608
  | '7' => 0.559
  | '8' => 0.611
  | '9' => 0.595
  | '=' | '+' | '<' | '>' => 0.584
  | '-' => 0.389
  | '@' | '#' | '%' | '&' => 0.946
  | _ => 0.568

/-- The sum of single-precision widths, from left to right. -/
def total (widths : List Float32) : Float32 := widths.foldl (· + ·) (-0.0)

def approxWidth (text : List Char) (size : Float32) : Float32 :=
  total (text.map widthFactor) * size

def approx : Measure Float32 := fun text style =>
  let size := fontSize style
  ⟨approxWidth text.toList size, size * lineHeight⟩

end Flowchart.Measure
