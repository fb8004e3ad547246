import RemoteCall.Number.Binary

/-!
# JSON values

Structured call values are JSON. Numbers keep their kind: an integer that fits 64 bits, signed or
unsigned, stays an integer, and every other number is a finite binary64 word. The members of an
object stand in the order of their keys, each key once; `Json.insertMember` keeps that order and
lets the last of two equal keys win.
-/

namespace RemoteCall

/-- A JSON number. -/
inductive Json.Number where
  /-- An integer that fits a signed or an unsigned 64-bit word. -/
  | integer (n : Int) (fits : -0x8000000000000000 ≤ n ∧ n < 0x10000000000000000)
  /-- A finite floating-point number. -/
  | binary (x : Binary64) (finite : x.IsFinite)
  deriving DecidableEq

/-- A JSON value. -/
inductive Json where
  | null
  | bool (b : Bool)
  | number (n : Json.Number)
  | string (s : String)
  | array (items : List Json)
  | object (members : List (String × Json))

namespace Json

instance : Inhabited Json := ⟨null⟩

mutual

/-- Two values are the same; floating-point numbers are compared by their bits. -/
def same : Json → Json → Bool
  | null, null => true
  | bool a, bool b => a == b
  | number a, number b => a == b
  | string a, string b => a == b
  | array a, array b => sameItems a b
  | object a, object b => sameMembers a b
  | _, _ => false

/-- Two lists of items are the same. -/
def sameItems : List Json → List Json → Bool
  | [], [] => true
  | a :: as, b :: bs => same a b && sameItems as bs
  | _, _ => false

/-- Two lists of members are the same. -/
def sameMembers : List (String × Json) → List (String × Json) → Bool
  | [], [] => true
  | (k, a) :: as, (l, b) :: bs => k == l && same a b && sameMembers as bs
  | _, _ => false

end

instance : BEq Json := ⟨same⟩

/-- The integer as a JSON number; one that fits no 64-bit word gives `null`. -/
def ofInt (n : Int) : Json :=
  if h : -0x8000000000000000 ≤ n ∧ n < 0x10000000000000000 then number (.integer n h) else null

/-- The floating-point number; an infinity or a NaN has no JSON form and gives `null`. -/
def ofBinary (x : Binary64) : Json :=
  if h : x.IsFinite then number (.binary x h) else null

/-- Sets a member, keeping the keys in order. -/
def insertMember (key : String) (value : Json) : List (String × Json) → List (String × Json)
  | [] => [(key, value)]
  | (k, v) :: rest =>
    if key < k then (key, value) :: (k, v) :: rest
    else if key = k then (key, value) :: rest
    else (k, v) :: insertMember key value rest

/-- The object with these members, the last of equal keys winning. -/
def ofMembers (members : List (String × Json)) : Json :=
  object (members.foldl (fun sorted m => insertMember m.1 m.2 sorted) [])

/-- The integer, when it fits a signed 64-bit word. -/
def toInt64? : Json → Option Int
  | number (.integer n _) => if n < 0x8000000000000000 then some n else none
  | _ => none

/-- The integer, when it fits an unsigned 8-bit word. -/
def toByte? : Json → Option Nat
  | number (.integer n _) => if 0 ≤ n ∧ n < 256 then some n.toNat else none
  | _ => none

/-- The truth value, if it is one. -/
def toBool? : Json → Option Bool
  | bool b => some b
  | _ => none

/-- The text, if it is one. -/
def toText? : Json → Option String
  | string s => some s
  | _ => none

/-- The items as signed 64-bit integers, when it is an array of them. -/
def toInt64List? : Json → Option (List Int)
  | array items => items.mapM toInt64?
  | _ => none

end Json

end RemoteCall
