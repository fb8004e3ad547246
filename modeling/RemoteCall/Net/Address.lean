/-!
# Socket addresses

An internet address and a port, with the usual text forms: `1.2.3.4:80` and `[::1]:80`. The text of
an IPv6 address replaces the first longest run of two or more zero groups by `::`, and keeps the
dotted form of an address that stands for an IPv4 address.

`SocketAddress.parse?` reads the strict forms. `SocketAddress.resolve` also takes what a resolver
takes without asking a name server: a port with a sign, the shorter numeric forms of IPv4, and IPv6
without brackets.
-/

namespace RemoteCall

/-- An internet address and a port. -/
inductive SocketAddress where
  | v4 (ip : UInt32) (port : UInt16)
  | v6 (ip : BitVec 128) (port : UInt16) (scope : UInt32)
  deriving DecidableEq, Repr

namespace SocketAddress

/-- A port of the machine itself. -/
def loopback (port : UInt16) : SocketAddress :=
  v4 0x7f000001 port

/-- The port. -/
def port : SocketAddress → UInt16
  | v4 _ port => port
  | v6 _ port _ => port

/-- The same address with another port. -/
def withPort : SocketAddress → UInt16 → SocketAddress
  | v4 ip _, port => v4 ip port
  | v6 ip _ scope, port => v6 ip port scope

/-- The IPv4 address that the address is or stands for. -/
def mapped? : SocketAddress → Option UInt32
  | v4 ip _ => some ip
  | v6 ip _ _ => if ip >>> 32 = 0xffff then some (UInt32.ofNat (ip.toNat % 0x100000000)) else none

/-- A connection could be meant for both addresses: the ports agree, and so do the hosts, or one of
them stands for every host of the machine. -/
def overlaps (a b : SocketAddress) : Bool :=
  let all : SocketAddress → Bool
    | v4 _ _ => false
    | v6 ip _ _ => ip = 0
  let hosts := match a.mapped?, b.mapped? with
    | some x, some y => x = y || x = 0 || y = 0
    | _, _ => all a || all b || a.withPort 0 == b.withPort 0
  a.port == b.port && hosts

/-- The numbers by which addresses are ordered: the family, the address, the port, the scope. -/
def orderKey : SocketAddress → List Nat
  | v4 ip port => [4, ip.toNat, port.toNat]
  | v6 ip port scope => [6, ip.toNat, port.toNat, scope.toNat]

/-- The address comes before the other one. -/
def before (a b : SocketAddress) : Bool :=
  a.orderKey < b.orderKey

/-! ### Text -/

/-- The dotted form of an IPv4 address. -/
def dotted (ip : Nat) : String :=
  s!"{ip / 0x1000000 % 256}.{ip / 0x10000 % 256}.{ip / 256 % 256}.{ip % 256}"

/-- The eight 16-bit groups of an IPv6 address. -/
def groups (ip : BitVec 128) : List Nat :=
  (List.range 8).map fun i => ip.toNat / Nat.pow 0x10000 (7 - i) % 0x10000

/-- The address of eight 16-bit groups. -/
def ofGroups (gs : List Nat) : BitVec 128 :=
  BitVec.ofNat 128 (gs.foldl (fun n g => n * 0x10000 + g) 0)

/-- The length of the run of zeros at the front. -/
def zeroRun (gs : List Nat) : Nat :=
  (gs.takeWhile (· == 0)).length

/-- Where the first longest run of zeros begins, and its length. -/
def longestZeroRun (gs : List Nat) : Nat × Nat :=
  (List.range gs.length).foldl (fun best i =>
    let run := zeroRun (gs.drop i)
    if best.2 < run then (i, run) else best) (0, 0)

/-- Lower-case hexadecimal groups between colons. -/
def colonGroups (gs : List Nat) : String :=
  ":".intercalate (gs.map fun g => String.ofList (Nat.toDigits 16 g))

/-- The text of an IPv6 address. -/
def ipv6Text (ip : BitVec 128) : String :=
  let gs := groups ip
  if gs.take 6 == [0, 0, 0, 0, 0, 0xffff] then "::ffff:" ++ dotted (ip.toNat % 0x100000000)
  else
    let (start, run) := longestZeroRun gs
    if run < 2 then colonGroups gs
    else colonGroups (gs.take start) ++ "::" ++ colonGroups (gs.drop (start + run))

/-- The text of the address. -/
def text : SocketAddress → String
  | v4 ip port => dotted ip.toNat ++ ":" ++ toString port
  | v6 ip port scope =>
    let zone := if scope = 0 then "" else "%" ++ toString scope
    "[" ++ ipv6Text ip ++ zone ++ "]:" ++ toString port

/-! ### Strict reading -/

/-- The value of a digit in a base up to sixteen. -/
def digit? (base : Nat) (c : Char) : Option Nat :=
  let value :=
    if '0' ≤ c ∧ c ≤ '9' then c.toNat - '0'.toNat
    else if 'a' ≤ c ∧ c ≤ 'f' then c.toNat - 'a'.toNat + 10
    else if 'A' ≤ c ∧ c ≤ 'F' then c.toNat - 'A'.toNat + 10
    else 16
  if value < base then some value else none

/-- Takes the digits at the front: their number, how many they are, and the rest. -/
def takeNumber (base : Nat) (value count : Nat) : List Char → Nat × Nat × List Char
  | [] => (value, count, [])
  | c :: rest =>
    match digit? base c with
    | some d => takeNumber base (value * base + d) (count + 1) rest
    | none => (value, count, c :: rest)

/-- Takes a number below `bound` of at most `digits` digits. -/
def takeBounded? (base bound digits : Nat) (cs : List Char) : Option (Nat × List Char) :=
  let (value, count, rest) := takeNumber base 0 0 cs
  if 0 < count ∧ count ≤ digits ∧ value < bound then some (value, rest) else none

/-- Takes one character. -/
def takeChar? (c : Char) : List Char → Option (List Char)
  | [] => none
  | d :: rest => if c = d then some rest else none

/-- Takes a decimal octet without a leading zero. -/
def takeOctet? (cs : List Char) : Option (Nat × List Char) := do
  let (value, rest) ← takeBounded? 10 256 3 cs
  if cs.head? = some '0' ∧ cs.length ≠ rest.length + 1 then none else some (value, rest)

/-- Takes a dotted IPv4 address. -/
def takeDotted? (cs : List Char) : Option (Nat × List Char) := do
  let (a, cs) ← takeOctet? cs
  let (b, cs) ← takeOctet? (← takeChar? '.' cs)
  let (c, cs) ← takeOctet? (← takeChar? '.' cs)
  let (d, cs) ← takeOctet? (← takeChar? '.' cs)
  some (((a * 256 + b) * 256 + c) * 256 + d, cs)

/-- Takes up to `room` groups of an IPv6 address; the last two may be a dotted IPv4 address. Gives
the groups, whether they end in a dotted address, and the rest. -/
def takeGroups : (room : Nat) → (first : Bool) → List Char → List Nat × Bool × List Char
  | 0, _, cs => ([], false, cs)
  | room + 1, first, cs =>
    match if first then some cs else takeChar? ':' cs with
    | none => ([], false, cs)
    | some inner =>
      match if 0 < room then takeDotted? inner else none with
      | some (ip, rest) => ([ip / 0x10000, ip % 0x10000], true, rest)
      | none =>
        match takeBounded? 16 0x10000 4 inner with
        | none => ([], false, cs)
        | some (g, rest) =>
          let (gs, dottedEnd, rest) := takeGroups room false rest
          (g :: gs, dottedEnd, rest)

/-- Takes an IPv6 address. -/
def takeIpv6? (cs : List Char) : Option (BitVec 128 × List Char) := do
  let (front, dottedEnd, cs) := takeGroups 8 true cs
  if front.length = 8 then some (ofGroups front, cs)
  else if dottedEnd then none
  else
    let cs ← takeChar? ':' (← takeChar? ':' cs)
    let (back, _, cs) := takeGroups (7 - front.length) true cs
    let zeros := List.replicate (8 - front.length - back.length) 0
    some (ofGroups (front ++ zeros ++ back), cs)

/-- Takes a port; leading zeros are allowed. -/
def takePort? (cs : List Char) : Option (UInt16 × List Char) := do
  let (port, rest) ← takeBounded? 10 0x10000 cs.length cs
  some (UInt16.ofNat port, rest)

/-- The IPv4 form. -/
def parseV4? (cs : List Char) : Option SocketAddress := do
  let (ip, cs) ← takeDotted? cs
  let (port, cs) ← takePort? (← takeChar? ':' cs)
  if cs.isEmpty then some (v4 (UInt32.ofNat ip) port) else none

/-- The IPv6 form. -/
def parseV6? (cs : List Char) : Option SocketAddress := do
  let (ip, cs) ← takeIpv6? (← takeChar? '[' cs)
  let (scope, cs) ←
    match takeChar? '%' cs with
    | none => some (0, cs)
    | some cs => takeBounded? 10 0x100000000 cs.length cs
  let (port, cs) ← takePort? (← takeChar? ':' (← takeChar? ']' cs))
  if cs.isEmpty then some (v6 ip port (UInt32.ofNat scope)) else none

/-- Reads an address in one of its strict forms. -/
def parse? (s : String) : Option SocketAddress :=
  let cs := s.toList
  parseV4? cs <|> parseV6? cs

/-! ### Lenient reading -/

/-- Why a text names no address. -/
inductive Failure where
  /-- There is no colon. -/
  | noPort
  /-- What follows the last colon is no port. -/
  | badPort
  /-- The host holds the character that ends a name. -/
  | brokenHost
  /-- The host is no address, nor can it be a name. -/
  | noHost
  /-- The host is a name, and no name server answers. -/
  | unresolved
  deriving DecidableEq, Repr

/-- The failure in words. -/
def Failure.message : Failure → String
  | noPort => "invalid socket address"
  | badPort => "invalid port value"
  | brokenHost => "file name contained an unexpected NUL byte"
  | noHost => "failed to lookup address information: Name or service not known"
  | unresolved => "failed to lookup address information: Temporary failure in name resolution"

/-- What is said of a text that is not in a strict form. -/
def syntaxMessage : String := "invalid socket address syntax"

/-- Splits at the last occurrence of a character. -/
def splitLast? (c : Char) (cs : List Char) : Option (List Char × List Char) :=
  let back := cs.reverse.takeWhile (· ≠ c)
  match cs.reverse.drop back.length with
  | [] => none
  | _ :: front => some (front.reverse, back.reverse)

/-- Reads a port that may have a plus sign. -/
def lenientPort? (cs : List Char) : Option UInt16 := do
  let cs := (takeChar? '+' cs).getD cs
  let (port, rest) ← takePort? cs
  if rest.isEmpty then some port else none

/-- One part of a numeric IPv4 host: decimal, or octal after `0`, or hexadecimal after `0x`. -/
def hostPart? (cs : List Char) : Option Nat := do
  let (base, digits) : Nat × List Char :=
    match cs with
    | '0' :: 'x' :: rest => (16, rest)
    | '0' :: 'X' :: rest => (16, rest)
    | '0' :: c :: rest => (8, c :: rest)
    | cs => (10, cs)
  let (value, count, rest) := takeNumber base 0 0 digits
  if 0 < count ∧ rest.isEmpty then some value else none

/-- A numeric IPv4 host of one to four parts; the last part fills the bytes that are left. -/
def numericHost? (cs : List Char) : Option UInt32 := do
  let parts ← ((String.ofList cs).splitOn ".").mapM fun part => hostPart? part.toList
  let front := parts.dropLast
  let last ← parts.getLast?
  let room := Nat.pow 256 (5 - parts.length)
  if parts.length ≤ 4 ∧ front.all (· < 256) ∧ last < room then
    some (UInt32.ofNat (front.foldl (fun n p => n * 256 + p) 0 * room + last))
  else none

/-- The address reaches only the machines on one link, whose number is its scope. -/
def isOnLink (ip : BitVec 128) : Bool :=
  let first := (groups ip).headD 0
  first / 0x40 == 0xfe80 / 0x40 || first / 0x100 == 0xff && first % 0x10 == 2

/-- The name and the number of the link of the machine to itself. -/
def ownLink : String × UInt32 := ("lo", 1)

/-- The scope that the text after `%` stands for: a number, or the name of a link where the address
stays on one. -/
def scope? (ip : BitVec 128) (zone : List Char) : Option UInt32 :=
  if isOnLink ip ∧ String.ofList zone = ownLink.1 then some ownLink.2
  else
    match takeBounded? 10 0x100000000 zone.length zone with
    | some (scope, []) => some (UInt32.ofNat scope)
    | _ => none

/-- A part of a host name: up to 63 letters, digits, hyphens and underscores. -/
def isLabel (cs : List Char) : Bool :=
  0 < cs.length && cs.length < 64 && cs.all fun c => c.isAlphanum || c == '-' || c == '_'

/-- What a name server can be asked for: labels between dots, with or without a final dot, that do
not begin with a hyphen and take at most 255 bytes in a question. -/
def isHostName (host : List Char) : Bool :=
  let labels := ((String.ofList host).splitOn ".").map String.toList
  let labels := if labels.getLast? = some [] then labels.dropLast else labels
  host.head? != some '-' && (host == ['.'] || !labels.isEmpty && labels.all isLabel) &&
    labels.foldr (fun label n => label.length + 1 + n) 0 < 255

/-- The address that a host and a port stand for. -/
def ofHost (host : List Char) (port : UInt16) : Except Failure SocketAddress :=
  if '\x00' ∈ host then .error .brokenHost
  else
    match takeIpv6? host with
    | some (ip, []) => .ok (v6 ip port 0)
    | some (ip, '%' :: zone) =>
      match scope? ip zone with
      | some scope => .ok (v6 ip port scope)
      | none => .error .noHost
    | _ =>
      match numericHost? host with
      | some ip => .ok (v4 ip port)
      | none => .error (if isHostName host then .unresolved else .noHost)

/-- Reads an address as a resolver without a name server does. -/
def resolve (s : String) : Except Failure SocketAddress :=
  match parse? s with
  | some a => .ok a
  | none =>
    match splitLast? ':' s.toList with
    | none => .error .noPort
    | some (host, port) =>
      match lenientPort? port with
      | none => .error .badPort
      | some port => ofHost host port

end SocketAddress

end RemoteCall
