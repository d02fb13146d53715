import Backtrack.Text.DefaultIgnorable
import Backtrack.Text.GraphemeExtend
import Backtrack.Text.Unprintable

/-!
Quoted characters: one character between single quotes, so that it can be read on any screen.

Six characters have a two-character escape. A character that cannot be told from its neighbours,
because it has no shape of its own or attaches to the one before it, is written by its code point
in lower case hexadecimal. Every other character stands for itself, the double quote included.
-/

namespace Backtrack.Text

/-- Whether a character extends the one before it but can be read alone: the two halfwidth katakana
sound marks, which are letters and fill a cell of their own. -/
def standsAlone (c : Char) : Bool :=
  c == '\uFF9E' || c == '\uFF9F'

/-- Whether a character is written by its code point. The ASCII range is decided without the
tables: its controls are hidden and the rest is not. -/
def isHidden (c : Char) : Bool :=
  if c.toNat < 0x80 then c.toNat < 0x20 || c.toNat == 0x7F
  else (extendsGrapheme c && !standsAlone c) || isUnprintable c || isDefaultIgnorable c

/-- A code point in braces, without leading zeros. -/
def codeEscape (c : Char) : List Char :=
  '\\' :: 'u' :: '\x7b' :: Nat.toDigits 16 c.toNat ++ ['\x7d']

/-- A character as it stands between single quotes. -/
def escape (c : Char) : List Char :=
  match c with
  | '\x00' => ['\\', '0']
  | '\t' => ['\\', 't']
  | '\r' => ['\\', 'r']
  | '\n' => ['\\', 'n']
  | '\'' => ['\\', '\'']
  | '\\' => ['\\', '\\']
  | c => if isHidden c then codeEscape c else [c]

/-- A character in single quotes. -/
def quoted (c : Char) : String :=
  String.ofList ('\'' :: escape c ++ ['\''])

theorem toList_quoted (c : Char) : (quoted c).toList = '\'' :: escape c ++ ['\''] := by
  simp [quoted]

end Backtrack.Text
