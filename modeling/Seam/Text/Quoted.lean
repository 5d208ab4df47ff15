import Seam.Text.Hidden

set_option autoImplicit false

namespace Seam.Text

def codePointEscape (c : Char) : String := "\\u\x7b" ++ String.ofList (Nat.toDigits 16 c.toNat) ++ "\x7d"

def quotedChar (c : Char) : String :=
  match c with
  | '\x00' => "\\0"
  | '\t' => "\\t"
  | '\r' => "\\r"
  | '\n' => "\\n"
  | '\\' => "\\\\"
  | '"' => "\\\""
  | c => if c.toNat < 0x20 ∨ c.toNat = 0x7F ∨ isHidden c then codePointEscape c else c.toString

def quoted (text : String) : String := "\"" ++ String.join (text.toList.map quotedChar) ++ "\""

end Seam.Text
