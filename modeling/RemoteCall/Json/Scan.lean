import RemoteCall.Json.Error
import RemoteCall.Json.Basic
import RemoteCall.Text.Utf8

/-!
# Reading the leaves of JSON

Words, strings and numbers, read off the front of a byte string. A scanner gives what it read and
the bytes behind it, or stops with a cause and the number of bytes it left unread, from which the
position of the error follows.
-/

namespace RemoteCall.Json

/-- Reading stopped with this many bytes unread. -/
structure Stop where
  cause : Cause
  left : Nat
  deriving DecidableEq, Repr

/-- What a scanner gives: a result and the unread bytes, or a stop. -/
abbrev Scan (α : Type) := Except Stop (α × Bytes)

/-- Stops after the bytes read so far. -/
def stop {α : Type} (cause : Cause) (unread : Bytes) : Scan α :=
  .error ⟨cause, unread.length⟩

/-- Stops at the next byte, which was looked at. -/
def stopAt {α : Type} (cause : Cause) (unread : Bytes) : Scan α :=
  .error ⟨cause, unread.length - 1⟩

/-- Goes on behind what a scanner read. -/
def Scan.andThen {α β : Type} (scan : Scan α) (next : α → Bytes → Scan β) : Scan β :=
  match scan with
  | .error s => .error s
  | .ok (x, unread) => next x unread

/-- The ASCII character of a byte. -/
def letter (b : UInt8) : Char :=
  Char.ofUInt8 b

/-- The blanks between tokens. -/
def isBlank (b : UInt8) : Bool :=
  b == 0x20 || b == 0x0a || b == 0x09 || b == 0x0d

/-- The bytes from the first that is no blank. -/
def skipBlanks (bytes : Bytes) : Bytes :=
  bytes.dropWhile isBlank

/-- The byte is a decimal digit. -/
def isDigit (b : UInt8) : Bool :=
  0x30 ≤ b && b ≤ 0x39

/-- The value of a decimal digit. -/
def digitValue (b : UInt8) : Nat :=
  b.toNat - 0x30

/-- Reads the rest of a word whose first letter has been read. -/
def scanWord (value : Json) : (letters : List Char) → Bytes → Scan Json
  | [], unread => .ok (value, unread)
  | _ :: _, [] => stop .eofInValue []
  | c :: letters, b :: unread =>
    if letter b = c then scanWord value letters unread else stop .expectedWord unread

/-! ### Strings -/

/-- The value of a hexadecimal digit. -/
def hexValue? (b : UInt8) : Option Nat :=
  if isDigit b then some (b.toNat - 0x30)
  else if 0x61 ≤ b && b ≤ 0x66 then some (b.toNat - 0x61 + 10)
  else if 0x41 ≤ b && b ≤ 0x46 then some (b.toNat - 0x41 + 10)
  else none

/-- Reads the four digits of a code unit. -/
def scanUnit : Bytes → Scan Nat
  | a :: b :: c :: d :: unread =>
    match hexValue? a, hexValue? b, hexValue? c, hexValue? d with
    | some a, some b, some c, some d => .ok (((a * 16 + b) * 16 + c) * 16 + d, unread)
    | _, _, _, _ => stop .invalidEscape unread
  | _ => stop .eofInString []

/-- The code unit begins a surrogate pair. -/
def isHighSurrogate (unit : Nat) : Bool :=
  0xD800 ≤ unit && unit ≤ 0xDBFF

/-- The code unit ends a surrogate pair. -/
def isLowSurrogate (unit : Nat) : Bool :=
  0xDC00 ≤ unit && unit ≤ 0xDFFF

/-- Reads an escaped code unit, and the second one when the first begins a surrogate pair. -/
def scanCodePoint (unread : Bytes) : Scan Char :=
  (scanUnit unread).andThen fun high unread =>
  if isLowSurrogate high then stop .loneSurrogate unread
  else if !isHighSurrogate high then .ok (Char.ofNat high, unread)
  else
    match unread with
    | [] => stop .eofInString []
    | backslash :: unread =>
      if letter backslash ≠ '\\' then stop .hexEscapeEnds unread
      else
        match unread with
        | [] => stop .eofInString []
        | u :: unread =>
          if letter u ≠ 'u' then stop .hexEscapeEnds unread
          else
            (scanUnit unread).andThen fun low unread =>
            if !isLowSurrogate low then stop .loneSurrogate unread
            else .ok (Char.ofNat (0x10000 + (high - 0xD800) * 0x400 + (low - 0xDC00)), unread)

/-- Reads an escape behind its backslash. -/
def scanEscape : Bytes → Scan Char
  | [] => stop .eofInString []
  | b :: unread =>
    match letter b with
    | '"' => .ok ('"', unread)
    | '\\' => .ok ('\\', unread)
    | '/' => .ok ('/', unread)
    | 'b' => .ok ('\x08', unread)
    | 'f' => .ok ('\x0c', unread)
    | 'n' => .ok ('\n', unread)
    | 'r' => .ok ('\r', unread)
    | 't' => .ok ('\t', unread)
    | 'u' => scanCodePoint unread
    | _ => stop .invalidEscape unread

/-- Reads a string up to its closing quote. `content` holds the bytes of the text so far, last
first; `fuel` bounds the characters and escapes still to come. -/
def scanContent : (fuel : Nat) → (content : Bytes) → Bytes → Scan Bytes
  | 0, _, _ => stop .eofInString []
  | _ + 1, _, [] => stop .eofInString []
  | fuel + 1, content, b :: unread =>
    match letter b with
    | '"' => .ok (content.reverse, unread)
    | '\\' =>
      (scanEscape unread).andThen fun c unread =>
      scanContent fuel ((Utf8.encode c.toString).reverse ++ content) unread
    | _ =>
      if b < 0x20 then stop .controlCharacter unread
      else scanContent fuel (b :: content) unread

/-- Reads a string behind its opening quote. Bytes that are no UTF-8 are found at the closing
quote. The error points as many bytes before the end of the string as the text, with its escapes
replaced, has from its first bad byte on. -/
def scanString (fuel : Nat) (bytes : Bytes) : Scan String :=
  (scanContent fuel [] bytes).andThen fun content unread =>
  match Utf8.decode content with
  | .ok s => .ok (s, unread)
  | .error e => .error ⟨.invalidUnicode, unread.length + (content.length - e.index)⟩

/-! ### Numbers -/

/-- The largest significand that is kept exactly. -/
def maxSignificand : Nat := 0xffffffffffffffff

/-- Appends digits to a significand while it fits 64 bits; gives the significand, how many digits
were used, and the unread bytes. -/
def scanDigits (significand used : Nat) : Bytes → Nat × Nat × Bytes
  | [] => (significand, used, [])
  | b :: unread =>
    if isDigit b ∧ significand * 10 + digitValue b ≤ maxSignificand then
      scanDigits (significand * 10 + digitValue b) (used + 1) unread
    else (significand, used, b :: unread)

/-- The next byte is a digit. -/
def digitFollows : Bytes → Bool
  | [] => false
  | b :: _ => isDigit b

/-- The next byte is the sign of an exponent part. -/
def exponentFollows : Bytes → Bool
  | [] => false
  | b :: _ => letter b = 'e' || letter b = 'E'

/-- The next byte is a decimal point. -/
def pointFollows : Bytes → Bool
  | [] => false
  | b :: _ => letter b = '.'

/-- `10 ^ n` as a floating-point word. -/
def powerOfTen (n : Nat) : Binary64 :=
  .ofRatio false (Nat.pow 10 n) 1

/-- The largest power of ten among the words. -/
def maxPower : Nat := 308

/-- Scales a word by a power of ten, in steps when the power itself is out of range. `none` is a
number too large for a word. -/
def scaleByTen : (fuel : Nat) → Binary64 → Int → Option Binary64
  | 0, x, _ => some x
  | fuel + 1, x, exponent =>
    if exponent.natAbs ≤ maxPower then
      if 0 ≤ exponent then
        let y := x.mul (powerOfTen exponent.natAbs)
        if y.IsFinite then some y else none
      else some (x.div (powerOfTen exponent.natAbs))
    else if x.isZero then some x
    else if 0 ≤ exponent then none
    else scaleByTen fuel (x.div (powerOfTen maxPower)) (exponent + maxPower)

/-- A word as a JSON number with a sign. -/
def signed (positive : Bool) (x : Binary64) : Json :=
  ofBinary (if positive then x else x.negate)

/-- The number `± significand · 10 ^ exponent`. -/
def assemble (positive : Bool) (significand : Nat) (exponent : Int) (unread : Bytes) : Scan Json :=
  match scaleByTen (exponent.natAbs + 1) (.ofRatio false significand 1) exponent with
  | some x => .ok (signed positive x, unread)
  | none => stop .numberOutOfRange unread

/-- The largest exponent that is counted. -/
def maxExponent : Nat := 0x7fffffff

/-- Reads the exponent's digits behind the first. An exponent too large to count is an error when
it makes the number large, and otherwise makes it zero. -/
def scanExponentDigits (positive : Bool) (significand : Nat) (start : Int) (positiveExponent : Bool)
    (exponent : Nat) : Bytes → Scan Json
  | [] => finish exponent []
  | b :: unread =>
    if isDigit b then
      if exponent * 10 + digitValue b ≤ maxExponent then
        scanExponentDigits positive significand start positiveExponent
          (exponent * 10 + digitValue b) unread
      else if significand ≠ 0 ∧ positiveExponent then stop .numberOutOfRange unread
      else .ok (signed positive ⟨0⟩, unread.dropWhile isDigit)
    else finish exponent (b :: unread)
where
  /-- The number, once all digits of the exponent are read. -/
  finish (exponent : Nat) (unread : Bytes) : Scan Json :=
    let total := if positiveExponent then start + exponent else start - exponent
    assemble positive significand (max (-0x80000000) (min 0x7fffffff total)) unread

/-- Reads an exponent behind its letter. -/
def scanExponent (positive : Bool) (significand : Nat) (start : Int) (bytes : Bytes) : Scan Json :=
  let (positiveExponent, bytes) :=
    match bytes with
    | b :: unread =>
      if letter b = '+' then (true, unread)
      else if letter b = '-' then (false, unread)
      else (true, b :: unread)
    | [] => (true, [])
  match bytes with
  | [] => stop .eofInValue []
  | b :: unread =>
    if isDigit b then
      scanExponentDigits positive significand start positiveExponent (digitValue b) unread
    else stop .invalidNumber unread

/-- Reads a fraction behind its point; `exponent` counts the integer's digits that were dropped. -/
def scanFraction (positive : Bool) (significand exponent : Nat) (bytes : Bytes) : Scan Json :=
  let (significand, used, unread) := scanDigits significand 0 bytes
  let power : Int := exponent - used
  if used = 0 ∧ !digitFollows unread then
    if unread.isEmpty then stop .eofInValue [] else stopAt .invalidNumber unread
  else
    let unread := unread.dropWhile isDigit
    if exponentFollows unread then scanExponent positive significand power unread.tail
    else assemble positive significand power unread

/-- An integer that was read whole; one that fits no 64-bit word becomes a floating-point number,
as does the negative zero. -/
def integerOrBinary (positive : Bool) (significand : Nat) : Json :=
  let n : Int := if positive then significand else -significand
  if h : (-0x8000000000000000 ≤ n ∧ n < 0x10000000000000000) ∧ (positive || significand ≠ 0) then
    number (.integer n h.1)
  else signed positive (.ofRatio false significand 1)

/-- Reads a number from its first digit. -/
def scanNumber (positive : Bool) : Bytes → Scan Json
  | [] => stop .eofInValue []
  | b :: unread =>
    if !isDigit b then stop .invalidNumber unread
    else if digitValue b = 0 ∧ digitFollows unread then stopAt .invalidNumber unread
    else
      let (significand, _, unread) := scanDigits (digitValue b) 0 unread
      let dropped := (unread.takeWhile isDigit).length
      let unread := unread.dropWhile isDigit
      if pointFollows unread then scanFraction positive significand dropped unread.tail
      else if exponentFollows unread then scanExponent positive significand dropped unread.tail
      else if dropped = 0 then .ok (integerOrBinary positive significand, unread)
      else assemble positive significand dropped unread

end RemoteCall.Json
