import LatencyProbe.Double.Shortest
import LatencyProbe.Json.Basic
import LatencyProbe.Text.Decimal

/-!
# Writing JSON

One printer serves both layouts. A `Layout` gives the blanks in front of each item of a container
that is not empty and of its closing bracket, and what stands between a key and its value; all else
is the same: members in the order of the value, empty containers as two brackets, numbers and
strings in one spelling each.

A double is written with its shortest digits, positionally when its first digit is between the fifth
place after the point and the sixteenth before it, and always recognisably as a double.
-/

namespace LatencyProbe.Json

/-- How a character stands inside a string. Only the quote, the backslash and the control
characters need an escape. -/
def escape (c : Char) : List Char :=
  if c = '"' then ['\\', '"']
  else if c = '\\' then ['\\', '\\']
  else if c = '\n' then ['\\', 'n']
  else if c = '\r' then ['\\', 'r']
  else if c = '\t' then ['\\', 't']
  else if c.toNat = 8 then ['\\', 'b']
  else if c.toNat = 12 then ['\\', 'f']
  else if c.toNat < 32 then
    ['\\', 'u', '0', '0', (c.toNat / 16).digitChar, (c.toNat % 16).digitChar]
  else [c]

/-- A string with its quotes. -/
def quote (s : String) : List Char := '"' :: (s.toList.flatMap escape ++ ['"'])

/-- Digits whose first one has the exponent `e`, written positionally with at least one digit on
either side of the point. -/
def positional (digits : List Char) (e : Int) : List Char :=
  if e < 0 then '0' :: '.' :: (List.replicate (-e - 1).toNat '0' ++ digits)
  else
    let whole := e.toNat + 1
    let fraction := digits.drop whole
    digits.take whole ++ List.replicate (whole - digits.length) '0' ++
      '.' :: (if fraction.isEmpty then ['0'] else fraction)

/-- Digits whose first one has the exponent `e`, written with that exponent and its sign. -/
def scientific (digits : List Char) (e : Int) : List Char :=
  let fraction := digits.drop 1
  digits.take 1 ++ (if fraction.isEmpty then [] else '.' :: fraction) ++
    'e' :: (if e < 0 then '-' else '+') :: Nat.toDigits 10 e.natAbs

/-- The text of a magnitude. -/
def magnitudeText (m : Nat) : List Char :=
  if m = 0 then ['0', '.', '0']
  else
    let decimal := Double.shortest m
    if -5 ≤ decimal.leading ∧ decimal.leading ≤ 15 then positional decimal.digits decimal.leading
    else scientific decimal.digits decimal.leading

/-- The text of a number. -/
def Number.text : Number → List Char
  | .integer n _ => Text.decimal n
  | .float x => (if x.negative then ['-'] else []) ++ magnitudeText x.magnitude

/-- What is left open about the spelling of a value. -/
structure Layout where
  /-- What stands in front of an item, or of the closing bracket, at a depth of nesting. -/
  line : Nat → List Char
  /-- What separates a key from its value. -/
  colon : List Char

/-- No blanks at all. -/
def Layout.compact : Layout := ⟨fun _ => [], [':']⟩

/-- An item a line, two blanks for every level. -/
def Layout.pretty : Layout := ⟨fun depth => '\n' :: List.replicate (2 * depth) ' ', [':', ' ']⟩

mutual

/-- The text of a value that stands at a depth of nesting. -/
def render (layout : Layout) (depth : Nat) : Json → List Char
  | .null => ['n', 'u', 'l', 'l']
  | .bool true => ['t', 'r', 'u', 'e']
  | .bool false => ['f', 'a', 'l', 's', 'e']
  | .number n => n.text
  | .string s => quote s
  | .array [] => ['[', ']']
  | .array (item :: rest) =>
    '[' :: (layout.line (depth + 1) ++ render layout (depth + 1) item ++
      renderItems layout depth rest)
  | .object [] => ['{', '}']
  | .object ((key, value) :: rest) =>
    '{' :: (layout.line (depth + 1) ++ quote key ++ layout.colon ++
      render layout (depth + 1) value ++ renderMembers layout depth rest)

/-- The items of an array after its first one, and the closing bracket. -/
def renderItems (layout : Layout) (depth : Nat) : List Json → List Char
  | [] => layout.line depth ++ [']']
  | item :: rest =>
    ',' :: (layout.line (depth + 1) ++ render layout (depth + 1) item ++
      renderItems layout depth rest)

/-- The members of an object after its first one, and the closing bracket. -/
def renderMembers (layout : Layout) (depth : Nat) : List (String × Json) → List Char
  | [] => layout.line depth ++ ['}']
  | (key, value) :: rest =>
    ',' :: (layout.line (depth + 1) ++ quote key ++ layout.colon ++
      render layout (depth + 1) value ++ renderMembers layout depth rest)

end

/-- The text of a value on one line. -/
def compact (value : Json) : List Char := value.render .compact 0

/-- The text of a value with an item a line. -/
def pretty (value : Json) : List Char := value.render .pretty 0

example : compact (.double (.ofBits 0x3EE4F8B588E368F1)) = "0.00001".toList := by decide +kernel

example : compact (.double (.ofBits 0x4341C37937E08000)) = "1e+16".toList := by decide +kernel

end LatencyProbe.Json
