import RemoteCall.Bytes

/-!
# Why a text is not JSON

A reader of JSON stops at the first byte that cannot go on a value. `Json.Cause` says why, and
`Json.ParseError` adds the line and the column of the last byte that was read or looked at.
-/

namespace RemoteCall.Json

/-- Why reading stopped. -/
inductive Cause where
  | eofInValue
  | eofInList
  | eofInObject
  | eofInString
  | expectedValue
  | expectedWord
  | expectedColon
  | expectedCommaOrBracket
  | expectedCommaOrBrace
  | keyNotString
  | trailingComma
  | trailingCharacters
  | invalidNumber
  | numberOutOfRange
  | invalidEscape
  | hexEscapeEnds
  | loneSurrogate
  | controlCharacter
  | invalidUnicode
  | tooDeep
  deriving DecidableEq, Repr

/-- The cause in words. -/
def Cause.message : Cause → String
  | .eofInValue => "EOF while parsing a value"
  | .eofInList => "EOF while parsing a list"
  | .eofInObject => "EOF while parsing an object"
  | .eofInString => "EOF while parsing a string"
  | .expectedValue => "expected value"
  | .expectedWord => "expected ident"
  | .expectedColon => "expected `:`"
  | .expectedCommaOrBracket => "expected `,` or `]`"
  | .expectedCommaOrBrace => "expected `,` or `\x7d`"
  | .keyNotString => "key must be a string"
  | .trailingComma => "trailing comma"
  | .trailingCharacters => "trailing characters"
  | .invalidNumber => "invalid number"
  | .numberOutOfRange => "number out of range"
  | .invalidEscape => "invalid escape"
  | .hexEscapeEnds => "unexpected end of hex escape"
  | .loneSurrogate => "lone leading surrogate in hex escape"
  | .controlCharacter => "control character (\\u0000-\\u001F) found while parsing a string"
  | .invalidUnicode => "invalid unicode code point"
  | .tooDeep => "recursion limit exceeded"

/-- Why and where a text is not JSON; lines count from one, columns are bytes since the line
began. -/
structure ParseError where
  cause : Cause
  line : Nat
  column : Nat
  deriving DecidableEq, Repr

/-- The error in words. -/
def ParseError.message (e : ParseError) : String :=
  s!"{e.cause.message} at line {e.line} column {e.column}"

/-- The error of stopping after the first `consumed` bytes of the input. -/
def ParseError.after (cause : Cause) (input : Bytes) (consumed : Nat) : ParseError :=
  let seen := input.take consumed
  { cause
    line := 1 + seen.count 0x0a
    column := (seen.reverse.takeWhile (· ≠ 0x0a)).length }

end RemoteCall.Json
