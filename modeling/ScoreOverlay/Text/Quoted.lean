import ScoreOverlay.Text.Visible

namespace ScoreOverlay.Text

/-- The lower case hexadecimal code point of a character, in braces after a backslash and `u`. -/
def escapedCode (c : Char) : List Char :=
  ['\\', 'u', '\x7b'] ++ Nat.toDigits 16 c.toNat ++ ['\x7d']

/-- A character as it stands between double quotes. -/
def quotedChar (c : Char) : List Char :=
  match c with
  | '\x00' => ['\\', '0']
  | '\t' => ['\\', 't']
  | '\r' => ['\\', 'r']
  | '\n' => ['\\', 'n']
  | '\\' => ['\\', '\\']
  | '"' => ['\\', '"']
  | c => if extending.Contains c ∨ invisible.Contains c then escapedCode c else [c]

/-- A text in double quotes. What cannot be seen, would join the character before it or would end
    the quotation is escaped. -/
def quoted (text : String) : String :=
  String.ofList ('"' :: text.toList.flatMap quotedChar ++ ['"'])

end ScoreOverlay.Text
