import RuleLang.Text.Bytes
import RuleLang.Text.Visible

/-!
# Failures of JSON reading

Why a JSON text could not be read, and where. A failure knows how many bytes of the text it left
unread (`Failure.left`), which does not depend on what was read before; the line and the column of
a message follow from that number and the whole text (`Position.after`).

Positions count bytes of UTF-8, and a position may fall inside a character.
-/

namespace RuleLang.Json

/-- A value that stands where a value of another type is wanted. -/
inductive Found where
  | null
  | boolean (value : Bool)
  | integer (value : Int)
  | floatingPoint (text : String)
  | string (value : List Char)
  | sequence
  | map
deriving DecidableEq

/-- The type of value that is wanted. -/
inductive Wanted where
  | string
  | sequence
deriving DecidableEq

/-- What is wrong at the place where reading stopped. -/
inductive Fault where
  | expectedValue
  | expectedCommaOrEnd
  | expectedWord
  | trailingComma
  | trailingCharacters
  | endInValue
  | endInList
  | endInString
  | controlCharacter
  | invalidEscape
  | endOfHexEscape
  | loneSurrogate
  | invalidNumber
  | numberOutOfRange
  | wrongType (found : Found) (wanted : Wanted)
deriving DecidableEq

/-- A failed reading. -/
structure Failure where
  /-- What is wrong. -/
  fault : Fault
  /-- How many bytes of the text come after the place where reading stopped. -/
  left : Nat
deriving DecidableEq

namespace Failure

/-- Reading stops in front of `rest`. -/
def before (fault : Fault) (rest : List Char) : Failure :=
  ⟨fault, byteSize rest⟩

/-- Reading stops after the first byte of `rest`, or at the end if there is none. -/
def within (fault : Fault) (rest : List Char) : Failure :=
  ⟨fault, byteSize rest - 1⟩

end Failure

/-! ### Messages -/

def Found.describe : Found → String
  | .null => "null"
  | .boolean true => "boolean `true`"
  | .boolean false => "boolean `false`"
  | .integer value => s!"integer `{value}`"
  | .floatingPoint text => s!"floating point `{text}`"
  | .string value => "string " ++ String.ofList (visible value)
  | .sequence => "sequence"
  | .map => "map"

def Wanted.describe : Wanted → String
  | .string => "a string"
  | .sequence => "a sequence"

def Fault.message : Fault → String
  | .expectedValue => "expected value"
  | .expectedCommaOrEnd => "expected `,` or `]`"
  | .expectedWord => "expected ident"
  | .trailingComma => "trailing comma"
  | .trailingCharacters => "trailing characters"
  | .endInValue => "EOF while parsing a value"
  | .endInList => "EOF while parsing a list"
  | .endInString => "EOF while parsing a string"
  | .controlCharacter => "control character (\\u0000-\\u001F) found while parsing a string"
  | .invalidEscape => "invalid escape"
  | .endOfHexEscape => "unexpected end of hex escape"
  | .loneSurrogate => "lone leading surrogate in hex escape"
  | .invalidNumber => "invalid number"
  | .numberOutOfRange => "number out of range"
  | .wrongType found wanted => s!"invalid type: {found.describe}, expected {wanted.describe}"

/-- A place in a text. -/
structure Position where
  /-- One more than the number of line feeds before the place. -/
  line : Nat
  /-- The number of bytes between the last of those line feeds and the place. -/
  column : Nat

/-- The place that is `count` bytes after `start`. -/
def Position.after (start : Position) (count : Nat) : List Char → Position
  | [] => start
  | c :: cs =>
    if count < c.utf8Size then { start with column := start.column + count }
    else if c = '\n' then Position.after ⟨start.line + 1, 0⟩ (count - 1) cs
    else Position.after { start with column := start.column + c.utf8Size } (count - c.utf8Size) cs

/-- The place in `text` where reading stopped. -/
def Failure.position (failure : Failure) (text : List Char) : Position :=
  Position.after ⟨1, 0⟩ (byteSize text - failure.left) text

/-- The failure in words, with its place in `text`. -/
def Failure.message (failure : Failure) (text : List Char) : String :=
  let place := failure.position text
  s!"{failure.fault.message} at line {place.line} column {place.column}"

end RuleLang.Json
