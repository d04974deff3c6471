import LatencyProbe.Json.Reader

/-!
# Reading records

A record is an object with a member for each field, in any order and among others, or an array of
the fields in their order and nothing else. Every field has to be there, and no field twice.

Reading from a text fills one slot per field as members come along. A missing or repeated field and
an array of the wrong length are problems of the whole record: their place is where the reading has
come to when the record is left, which is past its closing bracket if that comes next.
-/

namespace LatencyProbe.Json

/-- A field of a record: its key, and how its value is read. -/
structure Field (α : Type) where
  key : String
  reader : Reader α

/-- The fields of a record, in their order. -/
def Fields : List Type → Type
  | [] => Unit
  | α :: αs => Field α × Fields αs

/-- A value for each field. -/
def Row : List Type → Type
  | [] => Unit
  | α :: αs => α × Row αs

/-- The values read so far. -/
def Slots : List Type → Type
  | [] => Unit
  | α :: αs => Option α × Slots αs

/-- No value read yet. -/
def Slots.empty : (αs : List Type) → Slots αs
  | [] => ()
  | _ :: αs => (none, empty αs)

namespace Scan

variable {α : Type}

/-- Reads what belongs to a container, and gives a problem without a place the place where the
container is left. -/
def within (leave : List Char → List Char) (x : Scan α) : Scan α := fun s =>
  match x s with
  | .error (.unplaced problem rest) => .error (.placed problem (Utf8.size (leave rest)))
  | result => result

/-- Where an object is left: past blanks, and past its bracket if that comes next. -/
def leaveObject (s : List Char) : List Char :=
  match dropBlanks s with
  | [] => []
  | c :: rest => if c = '}' then rest else c :: rest

/-- Where an array is left: past blanks, and past its bracket or a comma if that comes next. -/
def leaveArray (s : List Char) : List Char :=
  match dropBlanks s with
  | [] => []
  | c :: rest => if c = ']' then rest else if c = ',' then dropBlanks rest else c :: rest

/-- Takes the bracket after the last item off. -/
def closeArray : Scan Unit := fun s =>
  match dropBlanks s with
  | [] => refuse .arrayUnfinished []
  | c :: rest =>
    if c = ']' then .ok ((), rest)
    else if c = ',' then
      if (dropBlanks rest).head? = some ']' then refuseNext .trailingComma (dropBlanks rest)
      else refuseNext .trailingCharacters (dropBlanks rest)
    else refuseNext .trailingCharacters (c :: rest)

end Scan

namespace Fields

/-- Reads the value under a key into its slot. No field has the key if the result is `none`; then
nothing is read. -/
def store : {αs : List Type} → Fields αs → Nat → String → Slots αs → Scan (Option (Slots αs))
  | [], _, _, _, _ => return none
  | _ :: _, (field, fields), depth, key, (slot, slots) =>
    if key = field.key then
      match slot with
      | some _ => Scan.refuseWhole (.repeatedField key)
      | none => do
        Scan.colon
        let a ← field.reader.ofText depth
        return some (some a, slots)
    else do
      let stored ← fields.store depth key slots
      return stored.map fun slots => (slot, slots)

/-- Reads members into their slots, at most so many, and passes over those of no field. -/
def fill {αs : List Type} (fields : Fields αs) (depth : Nat) :
    Nat → Bool → Slots αs → Scan (Slots αs)
  | 0, _, _ => Scan.refuse .valueUnfinished
  | n + 1, isFirst, slots => do
    if ← Scan.moreMembers isFirst then
      let key ← Scan.quoted
      match ← fields.store depth key slots with
      | some slots => fields.fill depth n false slots
      | none =>
        Scan.colon
        Scan.skip
        fields.fill depth n false slots
    else return slots

/-- The row of filled slots, or the first key whose slot is empty. -/
def complete : {αs : List Type} → Fields αs → Slots αs → Except String (Row αs)
  | [], _, _ => .ok ()
  | _ :: _, (field, fields), (slot, slots) =>
    match slot with
    | none => .error field.key
    | some a => (a, ·) <$> fields.complete slots

/-- Reads a record off an object, from its bracket on. -/
def scanObject {αs : List Type} (fields : Fields αs) (depth : Nat) : Scan (Row αs) :=
  Scan.within Scan.leaveObject do
    Scan.skipOne
    let slots ← fun s => fields.fill depth (s.length + 1) true (Slots.empty αs) s
    match fields.complete slots with
    | .ok row =>
      Scan.skipOne
      return row
    | .error key => Scan.refuseWhole (.missingField key)

/-- Reads the items of an array as the fields from a given index on. The problem of an array that is
too short is told how many items it has. -/
def scanItems : {αs : List Type} → Fields αs → Nat → (Nat → Problem) → Nat → Scan (Row αs)
  | [], _, _, _, _ => return ()
  | _ :: _, (field, fields), depth, short, index => do
    if ← Scan.moreItems (index = 0) then
      let a ← field.reader.ofText depth
      let row ← fields.scanItems depth short (index + 1)
      return (a, row)
    else Scan.refuseWhole (short index)

/-- Reads a record off an array, from its bracket on. -/
def scanArray {αs : List Type} (fields : Fields αs) (name : String) (depth : Nat) : Scan (Row αs) :=
  Scan.within Scan.leaveArray do
    Scan.skipOne
    let row ← fields.scanItems depth (.wrongLength · name αs.length) 0
    Scan.closeArray
    return row

/-- The fields of a list of items of the same length. -/
def ofItems : {αs : List Type} → Fields αs → List Json → Option (Row αs)
  | [], _, [] => some ()
  | _ :: _, (field, fields), item :: items => do
    let a ← field.reader.ofJson item
    let row ← fields.ofItems items
    return (a, row)
  | _, _, _ => none

/-- The fields among the members of an object: each is there exactly once. -/
def ofMembers : {αs : List Type} → Fields αs → List (String × Json) → Option (Row αs)
  | [], _, _ => some ()
  | _ :: _, (field, fields), members =>
    match members.filter (·.1 == field.key) with
    | [(_, value)] => do
      let a ← field.reader.ofJson value
      let row ← fields.ofMembers members
      return (a, row)
    | _ => none

end Fields

/-- A reader of records, given their name, their fields, and what to make of the values. -/
def Reader.record {αs : List Type} {β : Type} (name : String) (fields : Fields αs)
    (make : Row αs → β) : Reader β where
  ofText depth := do
    match ← Scan.found, depth with
    | .array, 0 | .object, 0 => Scan.refuseNext .tooDeep
    | .array, depth + 1 => make <$> fields.scanArray name depth
    | .object, depth + 1 => make <$> fields.scanObject depth
    | other, _ => Scan.refuse (.wrongType other (.record name))
  ofJson
    | .array items => make <$> fields.ofItems items
    | .object members => make <$> fields.ofMembers members
    | _ => none

end LatencyProbe.Json
