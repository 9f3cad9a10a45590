import SelectionCompiler.Text.CharClass

/-!
Quoted strings of generated code. A double quote, a backslash, line ends, tabs and
the character zero are escaped by a letter, any other character without a
visible form of its own by its code in hexadecimal; all others stand for
themselves.
-/

namespace SelectionCompiler.Text

/-- The escaped form of one character. -/
def escapeChar (c : Char) : List Char :=
  match c with
  | '"' => ['\\', '"']
  | '\\' => ['\\', '\\']
  | '\n' => ['\\', 'n']
  | '\r' => ['\\', 'r']
  | '\t' => ['\\', 't']
  | '\x00' => ['\\', '0']
  | c =>
      if isVisible c then [c] else ['\\', 'u', '{'] ++ Nat.toDigits 16 c.toNat ++ ['}']

def quoted (s : String) : String :=
  String.ofList ('"' :: (s.toList.flatMap escapeChar ++ ['"']))

end SelectionCompiler.Text
