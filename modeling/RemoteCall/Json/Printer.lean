import RemoteCall.Json.Basic
import RemoteCall.Number.Shortest
import RemoteCall.Text.Quoted

/-!
# Writing JSON

`Json.render` gives the compact text of a value: no blanks, members in the order of their keys,
controls escaped, everything else as it is, and floating-point numbers by the shortest decimal that
reads back.
-/

namespace RemoteCall.Json

/-- A character inside a JSON string. -/
def escapeChar (c : Char) : String :=
  match c with
  | '"' => "\\\""
  | '\\' => "\\\\"
  | '\x08' => "\\b"
  | '\x0c' => "\\f"
  | '\n' => "\\n"
  | '\r' => "\\r"
  | '\t' => "\\t"
  | _ =>
    if c.toNat < 0x20 then
      "\\u00" ++ (if c.toNat < 0x10 then "0" else "") ++ Text.hexadecimal c.toNat
    else c.toString

/-- A JSON string with its quotes. -/
def renderText (s : String) : String :=
  "\"" ++ String.join (s.toList.map escapeChar) ++ "\""

/-- A positive decimal. It is written positionally while its first digit stands for a power of ten
from `10 ^ -5` to `10 ^ 15`, with a fraction of at least one digit, and otherwise as one digit, the
fraction if there is one, and a signed exponent. -/
def renderDecimal (d : Shortest.Decimal) : String :=
  let digits := toString d.digits
  let zeros (n : Nat) := String.ofList (List.replicate n '0')
  let point : Int := digits.length + d.exponent
  if 0 ≤ d.exponent ∧ point ≤ 16 then digits ++ zeros d.exponent.toNat ++ ".0"
  else if 0 < point ∧ point ≤ 16 then
    String.ofList (digits.toList.take point.toNat) ++ "." ++
      String.ofList (digits.toList.drop point.toNat)
  else if -5 < point ∧ point ≤ 0 then "0." ++ zeros (-point).toNat ++ digits
  else
    let fraction := String.ofList (digits.toList.drop 1)
    let exponent := point - 1
    String.ofList (digits.toList.take 1) ++ (if fraction.isEmpty then "" else "." ++ fraction) ++
      "e" ++ (if exponent < 0 then "-" else "+") ++ toString exponent.natAbs

/-- A finite floating-point number. -/
def renderBinary (x : Binary64) : String :=
  match x.datum with
  | .finite negative m e =>
    (if negative then "-" else "") ++
      if m = 0 then "0.0" else renderDecimal (Shortest.digits .double m e)
  | _ => "null"

/-- A JSON number. -/
def renderNumber : Number → String
  | .integer n _ => toString n
  | .binary x _ => renderBinary x

mutual

/-- The compact text of a value. -/
def render : Json → String
  | null => "null"
  | bool b => if b then "true" else "false"
  | number n => renderNumber n
  | string s => renderText s
  | array items => "[" ++ renderItems items ++ "]"
  | object members => "\x7b" ++ renderMembers members ++ "\x7d"

/-- The items of an array, separated by commas. -/
def renderItems : List Json → String
  | [] => ""
  | item :: rest => render item ++ renderMoreItems rest

/-- The items after the first, each behind its comma. -/
def renderMoreItems : List Json → String
  | [] => ""
  | item :: rest => "," ++ render item ++ renderMoreItems rest

/-- The members of an object, separated by commas. -/
def renderMembers : List (String × Json) → String
  | [] => ""
  | (key, value) :: rest => renderText key ++ ":" ++ render value ++ renderMoreMembers rest

/-- The members after the first, each behind its comma. -/
def renderMoreMembers : List (String × Json) → String
  | [] => ""
  | (key, value) :: rest =>
    "," ++ renderText key ++ ":" ++ render value ++ renderMoreMembers rest

end

end RemoteCall.Json
