import LatencyProbe.Json.Lexeme
import LatencyProbe.Json.Quoted

/-!
# Reading documents

A document is one value with blanks around it. Arrays and objects may be nested up to `maxDepth`;
`value depth` may open `depth` more of them inside one another.

`skip` passes over a value whose content does not matter. It checks less, and it words some faults
differently, but whatever `value` reads, it passes over to the same place.
-/

namespace LatencyProbe.Json

/-- How many containers may be open at once. -/
def maxDepth : Nat := 127

namespace Scan

/-- Reads a member of an object: its key, a colon, its value. -/
def member (value : Scan Json) : Scan (String × Json) := do
  let key ← quoted
  colon
  let v ← value
  return (key, v)

/-- Reads a value, of whose containers at most `depth` are open at once. -/
def value : Nat → Scan Json
  | 0 => Kinds.scan
    { null := .null
      bool := .bool
      number := .number <$> number
      string := .string <$> quoted
      array := refuseNext .tooDeep
      object := refuseNext .tooDeep }
  | depth + 1 => Kinds.scan
    { null := .null
      bool := .bool
      number := .number <$> number
      string := .string <$> quoted
      array := .array <$> enclosed (items moreItems (value depth))
      object := .object <$> enclosed (items moreMembers (member (value depth))) }

/-- Whether another item of a skipped array comes next. What follows a comma is left to the item. -/
def moreSkippedItems (isFirst : Bool) : Scan Bool := fun s =>
  match dropBlanks s with
  | [] => refuse .arrayUnfinished []
  | c :: rest =>
    if c = ']' then .ok (false, c :: rest)
    else if isFirst then .ok (true, c :: rest)
    else if c = ',' then .ok (true, rest)
    else refuseNext .itemEndExpected (c :: rest)

/-- The quote of a skipped key comes next. -/
def skippedKey : Scan Bool := fun s =>
  match dropBlanks s with
  | [] => refuse .objectUnfinished []
  | c :: rest => if c = '"' then .ok (true, c :: rest) else refuseNext .keyExpected (c :: rest)

/-- Whether another member of a skipped object comes next. -/
def moreSkippedMembers (isFirst : Bool) : Scan Bool := fun s =>
  match dropBlanks s with
  | [] => refuse .objectUnfinished []
  | c :: rest =>
    if c = '}' then .ok (false, c :: rest)
    else if isFirst then skippedKey (c :: rest)
    else if c = ',' then skippedKey rest
    else refuseNext .memberEndExpected (c :: rest)

/-- Passes over a member of an object. -/
def skipMember (skip : Scan Unit) : Scan Unit := do
  skipQuoted
  colon
  skip

/-- Passes over the next value, of whose containers at most `depth` are open at once. -/
def skipWithin : Nat → Scan Unit
  | 0 => refuse .valueUnfinished
  | depth + 1 => Kinds.scan
    { null := ()
      bool := fun _ => ()
      number := do let _ ← lexeme .invalidNumber
      string := skipQuoted
      array := do let _ ← enclosed (items moreSkippedItems (skipWithin depth))
      object := do let _ ← enclosed (items moreSkippedMembers (skipMember (skipWithin depth))) }

/-- Passes over the next value, whatever its depth: a text has no more brackets than characters. -/
def skip : Scan Unit := fun s => skipWithin (s.length + 1) s

/-- Nothing but blanks is left. -/
def finish : Scan Unit := fun s =>
  match dropBlanks s with
  | [] => .ok ((), [])
  | c :: rest => refuseNext .trailingCharacters (c :: rest)

/-- What one scan makes of a whole text. -/
def onDocument {α : Type} (x : Scan α) (text : List Char) : Except Error α :=
  match (do let a ← x; finish; return a) text with
  | .ok (a, _) => .ok a
  | .error (.placed problem left) =>
    .error ⟨problem, some (Position.after (Utf8.size text - left) text)⟩
  | .error (.unplaced problem _) => .error ⟨problem, none⟩

end Scan

/-- The value that a text is a document of, with the members of its objects as they stand. -/
def parseRaw (text : List Char) : Except Error Json := (Scan.value maxDepth).onDocument text

/-- The value that a text is a document of, collated. -/
def parse (text : List Char) : Except Error Json := collated <$> parseRaw text

end LatencyProbe.Json
