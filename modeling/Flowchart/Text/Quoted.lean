import Flowchart.Text.Category
/-!
Texts in double quotes, as messages show them: quotes, backslashes and line ends are escaped, and
so is every character that would not show as itself.
-/
namespace Flowchart.Text

def quoteChar (c : Char) : List Char :=
  match c with
  | '"' => ['\\', '"']
  | '\\' => ['\\', '\\']
  | '\n' => ['\\', 'n']
  | '\r' => ['\\', 'r']
  | '\t' => ['\\', 't']
  | '\x00' => ['\\', '0']
  | c =>
    if isHidden c then
      ['\\', 'u', '\x7b'] ++ Nat.toDigits 16 c.toNat ++ ['\x7d']
    else [c]

def quote (s : String) : String :=
  .ofList ('"' :: s.toList.flatMap quoteChar ++ ['"'])

end Flowchart.Text
