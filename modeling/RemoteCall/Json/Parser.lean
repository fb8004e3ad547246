import RemoteCall.Json.Scan

/-!
# Reading JSON

`Json.parse` reads a whole byte string as one JSON value between blanks. Arrays and objects nest up
to 127 deep, and of members with equal keys the last one counts.
-/

namespace RemoteCall.Json

/-- Reads the items of an array up to its closing bracket. `items` holds the items so far, last
first, and `fuel` bounds those still to come. -/
def scanItems (item : Bytes → Scan Json) : (fuel : Nat) → (items : List Json) → Bytes → Scan Json
  | 0, _, _ => stop .eofInList []
  | fuel + 1, items, bytes =>
    match skipBlanks bytes with
    | [] => stop .eofInList []
    | b :: unread =>
      if letter b = ']' then .ok (array items.reverse, unread)
      else if items.isEmpty then
        (item (b :: unread)).andThen fun x unread =>
        scanItems item fuel (x :: items) unread
      else if letter b = ',' then
        match skipBlanks unread with
        | [] => stop .eofInValue []
        | c :: unread =>
          if letter c = ']' then stop .trailingComma unread
          else
            (item (c :: unread)).andThen fun x unread =>
            scanItems item fuel (x :: items) unread
      else stop .expectedCommaOrBracket unread

/-- Reads a member behind the opening quote of its key. -/
def scanMember (value : Bytes → Scan Json) (fuel : Nat) (bytes : Bytes) : Scan (String × Json) :=
  (scanString fuel bytes).andThen fun key unread =>
  match skipBlanks unread with
  | [] => stop .eofInObject []
  | b :: unread =>
    if letter b = ':' then
      (value unread).andThen fun v unread =>
      .ok ((key, v), unread)
    else stop .expectedColon unread

/-- Reads the members of an object up to its closing brace. `members` holds the members so far,
last first, and `fuel` bounds those still to come. -/
def scanMembers (value : Bytes → Scan Json) :
    (fuel : Nat) → (members : List (String × Json)) → Bytes → Scan Json
  | 0, _, _ => stop .eofInObject []
  | fuel + 1, members, bytes =>
    match skipBlanks bytes with
    | [] => stop .eofInObject []
    | b :: unread =>
      if letter b = '\x7d' then .ok (ofMembers members.reverse, unread)
      else if members.isEmpty then
        if letter b = '"' then
          (scanMember value fuel unread).andThen fun m unread =>
          scanMembers value fuel (m :: members) unread
        else stop .keyNotString unread
      else if letter b = ',' then
        match skipBlanks unread with
        | [] => stop .eofInValue []
        | c :: unread =>
          if letter c = '"' then
            (scanMember value fuel unread).andThen fun m unread =>
            scanMembers value fuel (m :: members) unread
          else if letter c = '\x7d' then stop .trailingComma unread
          else stop .keyNotString unread
      else stop .expectedCommaOrBrace unread

/-- Reads a value, given how to read an array and an object behind their opening bracket; `fuel`
exceeds the number of bytes. -/
def scanValueWith (fuel : Nat) (arrayBody objectBody : Bytes → Scan Json) (bytes : Bytes) :
    Scan Json :=
  match skipBlanks bytes with
  | [] => stop .eofInValue []
  | b :: unread =>
    match letter b with
    | 'n' => scanWord null ['u', 'l', 'l'] unread
    | 't' => scanWord (bool true) ['r', 'u', 'e'] unread
    | 'f' => scanWord (bool false) ['a', 'l', 's', 'e'] unread
    | '-' => scanNumber false unread
    | '"' =>
      (scanString fuel unread).andThen fun s unread =>
      .ok (string s, unread)
    | '[' => arrayBody unread
    | '\x7b' => objectBody unread
    | _ => if isDigit b then scanNumber true (b :: unread) else stop .expectedValue unread

/-- Reads a value whose arrays and objects nest at most `depth` deep; `fuel` exceeds the number of
bytes. -/
def scanValue (fuel : Nat) : (depth : Nat) → Bytes → Scan Json
  | 0 => scanValueWith fuel (stop .tooDeep) (stop .tooDeep)
  | depth + 1 =>
    scanValueWith fuel (scanItems (scanValue fuel depth) fuel [])
      (scanMembers (scanValue fuel depth) fuel [])

/-- How deep arrays and objects may nest. -/
def maxDepth : Nat := 127

/-- Reads a whole byte string as one value. -/
def parse (bytes : Bytes) : Except ParseError Json :=
  match scanValue (bytes.length + 1) maxDepth bytes with
  | .error s => .error (.after s.cause bytes (bytes.length - s.left))
  | .ok (value, unread) =>
    match skipBlanks unread with
    | [] => .ok value
    | _ :: unread => .error (.after .trailingCharacters bytes (bytes.length - unread.length))

end RemoteCall.Json
