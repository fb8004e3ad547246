import RemoteCall.Text.Unprintable
import RemoteCall.Text.Combining

/-!
# Quoted text

The written form of a character or a text inside quotes: the quote, the backslash and four controls
have short escapes, characters that cannot be seen on their own are given by code point, and
everything else stands for itself.
-/

namespace RemoteCall.Text

/-- The lower-case hexadecimal digits of a number. -/
def hexadecimal (n : Nat) : String :=
  String.ofList (Nat.toDigits 16 n)

/-- A character as it stands between two quotes of the given kind. -/
def escaped (quote c : Char) : String :=
  match c with
  | '\x00' => "\\0"
  | '\t' => "\\t"
  | '\r' => "\\r"
  | '\n' => "\\n"
  | '\\' => "\\\\"
  | _ =>
    if c = quote then "\\" ++ c.toString
    else if isCombining c || isUnprintable c then "\\u\x7b" ++ hexadecimal c.toNat ++ "\x7d"
    else c.toString

/-- A character between single quotes. -/
def quotedChar (c : Char) : String :=
  "'" ++ escaped '\'' c ++ "'"

/-- A text between double quotes. -/
def quoted (text : String) : String :=
  "\"" ++ String.join (text.toList.map (escaped '"')) ++ "\""

end RemoteCall.Text
