import LatencyProbe.Json.Printer
import LatencyProbe.Text.Quotation

/-!
# What can be wrong with a document

A problem is a cause, not a text: the wording is in `Problem.message`. Most causes are faults of the
text itself. The others arise where a document is well formed but does not say what was asked for:
a value of the wrong type or size, or a record with members missing, repeated or in excess.

An error adds where it was noticed, as a line and a column counted in bytes.
-/

namespace LatencyProbe.Json

/-- What stands in a document where something else was wanted. Containers are not looked into. -/
inductive Found where
  | null
  | bool (b : Bool)
  | number (n : Number)
  | string (s : String)
  | array
  | object
  deriving DecidableEq

/-- What was wanted. -/
inductive Wanted where
  | word
  | int64
  | double
  | text
  | unit
  | record (name : String)
  deriving DecidableEq

/-- Why a document is refused. -/
inductive Problem where
  | valueUnfinished
  | arrayUnfinished
  | objectUnfinished
  | stringUnfinished
  | colonExpected
  | itemEndExpected
  | memberEndExpected
  | literalExpected
  | valueExpected
  | keyExpected
  | invalidEscape
  | invalidNumber
  | numberOutOfRange
  | controlCharacter
  | loneSurrogate
  | escapeUnfinished
  | trailingComma
  | trailingCharacters
  | tooDeep
  | wrongType (found : Found) (wanted : Wanted)
  | outOfRange (n : Int) (wanted : Wanted)
  | unknownVariant (name : String) (known : List String)
  | missingField (key : String)
  | repeatedField (key : String)
  | wrongLength (count : Nat) (record : String) (fields : Nat)
  | noVariant (name : String)
  deriving DecidableEq

/-- The words for what was found. -/
def Found.words : Found → String
  | .null => "null"
  | .bool true => "boolean `true`"
  | .bool false => "boolean `false`"
  | .number (.integer n _) => "integer `" ++ Text.ofInt n ++ "`"
  | .number (.float x) => "floating point `" ++ String.ofList (Number.float x).text ++ "`"
  | .string s => "string " ++ Text.quotation s
  | .array => "sequence"
  | .object => "map"

/-- The words for what was wanted. -/
def Wanted.words : Wanted → String
  | .word => "u32"
  | .int64 => "i64"
  | .double => "f64"
  | .text => "a string"
  | .unit => "unit"
  | .record name => "struct " ++ name

namespace Problem

/-- The message for a problem. -/
def message : Problem → String
  | valueUnfinished => "EOF while parsing a value"
  | arrayUnfinished => "EOF while parsing a list"
  | objectUnfinished => "EOF while parsing an object"
  | stringUnfinished => "EOF while parsing a string"
  | colonExpected => "expected `:`"
  | itemEndExpected => "expected `,` or `]`"
  | memberEndExpected => "expected `,` or `\x7d`"
  | literalExpected => "expected ident"
  | valueExpected => "expected value"
  | keyExpected => "key must be a string"
  | invalidEscape => "invalid escape"
  | invalidNumber => "invalid number"
  | numberOutOfRange => "number out of range"
  | controlCharacter => "control character (\\u0000-\\u001F) found while parsing a string"
  | loneSurrogate => "lone leading surrogate in hex escape"
  | escapeUnfinished => "unexpected end of hex escape"
  | trailingComma => "trailing comma"
  | trailingCharacters => "trailing characters"
  | tooDeep => "recursion limit exceeded"
  | wrongType found wanted => "invalid type: " ++ found.words ++ ", expected " ++ wanted.words
  | outOfRange n wanted =>
    "invalid value: integer `" ++ Text.ofInt n ++ "`, expected " ++ wanted.words
  | unknownVariant name known =>
    "unknown variant `" ++ name ++ "`, expected " ++
      " or ".intercalate (known.map fun k => "`" ++ k ++ "`")
  | missingField key => "missing field `" ++ key ++ "`"
  | repeatedField key => "duplicate field `" ++ key ++ "`"
  | wrongLength count record fields =>
    "invalid length " ++ Text.ofInt count ++ ", expected struct " ++ record ++ " with " ++
      Text.ofInt fields ++ " elements"
  | noVariant name => "data did not match any variant of untagged enum " ++ name

end Problem

/-- A place in a text. Lines count from one, columns are bytes of the line read so far. -/
structure Position where
  line : Nat
  column : Nat
  deriving DecidableEq, Repr

namespace Position

/-- The place after so many bytes of a text, counted on from a given place. -/
def advance (p : Position) : Nat → List Char → Position
  | _, [] => p
  | 0, _ => p
  | n, c :: cs =>
    if c = '\n' then advance ⟨p.line + 1, 0⟩ (n - 1) cs
    else advance ⟨p.line, p.column + min n c.utf8Size⟩ (n - c.utf8Size) cs

/-- The place after so many bytes of a text. -/
def after (bytes : Nat) (text : List Char) : Position := advance ⟨1, 0⟩ bytes text

end Position

/-- Why a document was refused, and where, if the problem has a place. -/
structure Error where
  problem : Problem
  position : Option Position
  deriving DecidableEq

/-- The message for an error. -/
def Error.message (e : Error) : String :=
  match e.position with
  | none => e.problem.message
  | some p =>
    e.problem.message ++ " at line " ++ Text.ofInt p.line ++ " column " ++ Text.ofInt p.column

end LatencyProbe.Json
