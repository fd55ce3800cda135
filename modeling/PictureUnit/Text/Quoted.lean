import PictureUnit.Text.Hex
import PictureUnit.Text.Printable

/-!
# Quoted text

A quoted text stands between double quotes. A double quote, a backslash and four control
characters are written with a backslash; other characters that cannot be printed are written as
their number in hexadecimal.
-/

set_option autoImplicit false

namespace PictureUnit.Text

def escape (c : Char) : String :=
  match c with
  | '\x00' => "\\0"
  | '\t' => "\\t"
  | '\r' => "\\r"
  | '\n' => "\\n"
  | '"' => "\\\""
  | '\\' => "\\\\"
  | c => if isPrintable c then c.toString else "\\u\x7b" ++ shortHex c.toNat ++ "\x7d"

def quote (s : String) : String := "\"" ++ String.join (s.toList.map escape) ++ "\""

end PictureUnit.Text
