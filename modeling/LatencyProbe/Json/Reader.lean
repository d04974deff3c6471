import LatencyProbe.Json.Parser

/-!
# Reading values of a type

A reader gets a value of some type out of a document. It can do so in two ways: off the front of a
text, where it says exactly what is wrong and where, or out of a value that was read before, where
it only succeeds or fails. Both ways accept the same values.

Reading from a text never builds a value in between. What is not a container is read first and
judged then, so a value of the wrong type is reported at its end, a container at its bracket.
-/

namespace LatencyProbe.Json

/-- The two ways of reading a type. From a text, containers may be nested to the given depth. -/
structure Reader (α : Type) where
  ofText : Nat → Scan α
  ofJson : Json → Option α

namespace Scan

variable {α : Type}

/-- Reads what comes next, but of a container only sees that it is one. -/
def found : Scan Found := Kinds.scan
  { null := .null
    bool := .bool
    number := .number <$> number
    string := .string <$> quoted
    array := pure .array
    object := pure .object }

/-- Reads what comes next and judges it. -/
def judged (judge : Found → Except Problem α) : Scan α := do
  match judge (← found) with
  | .ok a => return a
  | .error problem => refuse problem

end Scan

/-- What a value is, without a look into containers. -/
def found : Json → Found
  | .null => .null
  | .bool b => .bool b
  | .number n => .number n
  | .string s => .string s
  | .array _ => .array
  | .object _ => .object

namespace Judge

/-- A whole number that fits an unsigned 32-bit word. -/
def word : Found → Except Problem UInt32
  | .number (.integer n _) =>
    if 0 ≤ n ∧ n < 0x100000000 then .ok (UInt32.ofNat n.toNat) else .error (.outOfRange n .word)
  | other => .error (.wrongType other .word)

/-- A whole number that fits a signed 64-bit word. -/
def int64 : Found → Except Problem Int64
  | .number (.integer n _) =>
    if n < 0x8000000000000000 then .ok (Int64.ofInt n) else .error (.outOfRange n .int64)
  | other => .error (.wrongType other .int64)

/-- Any number, as a double. -/
def double : Found → Except Problem Double
  | .number n => .ok (.finite n.toDouble)
  | other => .error (.wrongType other .double)

/-- A string. -/
def text : Found → Except Problem String
  | .string s => .ok s
  | other => .error (.wrongType other .text)

/-- The null that stands for no content. -/
def unit : Found → Except Problem Unit
  | .null => .ok ()
  | other => .error (.wrongType other .unit)

end Judge

namespace Reader

variable {α β : Type}

/-- A reader of what is not a container. -/
def ofJudge (judge : Found → Except Problem α) : Reader α where
  ofText _ := Scan.judged judge
  ofJson value := (judge value.found).toOption

/-- Unsigned 32-bit words. -/
def word : Reader UInt32 := ofJudge Judge.word

/-- Signed 64-bit words. -/
def int64 : Reader Int64 := ofJudge Judge.int64

/-- Doubles. -/
def double : Reader Double := ofJudge Judge.double

/-- Strings. -/
def text : Reader String := ofJudge Judge.text

/-- A reader of another type, by a function that cannot fail. -/
def map (f : α → β) (reader : Reader α) : Reader β where
  ofText depth := f <$> reader.ofText depth
  ofJson value := f <$> reader.ofJson value

/-- Reads a string that is one of some names. -/
def variantName (known : List (String × α)) : Scan α := do
  let name ← Scan.quoted
  match known.lookup name with
  | some a => return a
  | none => Scan.refuse (.unknownVariant name (known.map (·.1)))

/-- Reads an object, from its bracket on, whose only member is a name with null under it. -/
def variantBody (known : List (String × α)) : Scan α := do
  Scan.skipOne
  if ← Scan.moreMembers true then
    let a ← variantName known
    Scan.colon
    Scan.judged Judge.unit
    fun s =>
      match Scan.dropBlanks s with
      | [] => Scan.refuse .objectUnfinished []
      | c :: rest => if c = '}' then .ok (a, rest) else Scan.refuse .valueExpected (c :: rest)
  else Scan.refuseNext .valueExpected

/-- One of some names: the name as a string, or an object with the name as its only key and null
under it. -/
def variant (known : List (String × α)) : Reader α where
  ofText depth := fun s =>
    match Scan.dropBlanks s with
    | [] => Scan.refuse .valueUnfinished []
    | c :: rest =>
      if c = '"' then variantName known (c :: rest)
      else if c = '{' then
        if depth = 0 then Scan.refuseNext .tooDeep (c :: rest) else variantBody known (c :: rest)
      else Scan.refuseNext .valueExpected (c :: rest)
  ofJson
    | .string name | .object [(name, .null)] => known.lookup name
    | _ => none

/-- Reads the whole value before it tries two readers, the second where the first fails. If both
fail the problem has no place of its own. -/
def firstOf (name : String) (first second : Reader α) : Reader α where
  ofText depth := do
    let value ← Scan.value depth
    match first.ofJson value <|> second.ofJson value with
    | some a => return a
    | none => Scan.refuseWhole (.noVariant name)
  ofJson value := first.ofJson value <|> second.ofJson value

/-- Reads a text that is a document of the type. -/
def document (reader : Reader α) (text : List Char) : Except Error α :=
  (reader.ofText maxDepth).onDocument text

end Reader
end LatencyProbe.Json
