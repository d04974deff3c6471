import LatencyProbe.Json.Problem
import LatencyProbe.Text.Utf8

/-!
# Reading from the front of a text

A scan takes something off the front of a text or refuses it. What is left of the text is its state,
and the place of a problem is told by how many bytes are left, so that nothing needs to be counted
until there is a message to write.

A problem is noticed either where the reading stands or on the byte that comes next. Problems of a
whole record have no place of their own: they get it from the container that they leave.

`items` is the one loop of the reader. Strings, arrays, objects and skipped values all repeat a scan
for as long as another one announces a further item; every item takes at least one character, so the
length of the text bounds the number of turns.
-/

namespace LatencyProbe.Json

/-- Why and where a scan stopped. -/
inductive Fault where
  /-- A problem with so many bytes left. -/
  | placed (problem : Problem) (left : Nat)
  /-- A problem that gets its place from an enclosing container, and the text left. -/
  | unplaced (problem : Problem) (rest : List Char)

/-- Something read off the front of a text. -/
abbrev Scan := StateT (List Char) (Except Fault)

namespace Scan

variable {α β : Type}

theorem bind_eq_ok {x : Scan α} {f : α → Scan β} {s : List Char} {r : β × List Char} :
    (x >>= f) s = .ok r ↔ ∃ a t, x s = .ok (a, t) ∧ f a t = .ok r := by
  change (x s >>= fun p => f p.1 p.2) = .ok r ↔ _
  cases h : x s with
  | error e => simp [bind, Except.bind]
  | ok p => obtain ⟨a, t⟩ := p; simp [bind, Except.bind, and_assoc]

theorem pure_eq_ok {a : α} {s : List Char} {r : α × List Char} :
    (pure a : Scan α) s = .ok r ↔ r = (a, s) := by
  change Except.ok (a, s) = .ok r ↔ _
  rw [Except.ok.injEq, eq_comm]

/-- Refuses the text for what has been read. -/
def refuse (problem : Problem) : Scan α := fun s => .error (.placed problem (Utf8.size s))

/-- Refuses the text for the byte that comes next. At the end of the text there is none. -/
def refuseNext (problem : Problem) : Scan α := fun s => .error (.placed problem (Utf8.size s - 1))

/-- Refuses the text for a problem whose place an enclosing container will tell. -/
def refuseWhole (problem : Problem) : Scan α := fun s => .error (.unplaced problem s)

/-- Takes one character off. -/
def skipOne : Scan Unit := fun s => .ok ((), s.tail)

/-- A blank that may stand between the parts of a document. -/
def isBlank (c : Char) : Bool := c = ' ' || c = '\n' || c = '\t' || c = '\r'

/-- The text after the blanks at its front. -/
def dropBlanks (s : List Char) : List Char := s.dropWhile isBlank

/-- Takes these characters off, for they are the rest of a literal. -/
def literal : List Char → Scan Unit
  | [] => pure ()
  | c :: cs => fun s =>
    match s with
    | [] => refuse .valueUnfinished []
    | d :: rest => if d = c then literal cs rest else refuseNext .literalExpected (d :: rest)

/-- Takes the colon after a key off. -/
def colon : Scan Unit := fun s =>
  match dropBlanks s with
  | [] => refuse .objectUnfinished []
  | c :: rest => if c = ':' then .ok ((), rest) else refuseNext .colonExpected (c :: rest)

/-- Items for as long as `more` announces one, at most so many. It is told whether the item would be
the first. -/
def itemsUpTo (more : Bool → Scan Bool) (item : Scan α) : Nat → Bool → Scan (List α)
  | 0, _ => refuse .valueUnfinished
  | n + 1, isFirst => do
    if ← more isFirst then
      let first ← item
      let rest ← itemsUpTo more item n false
      return first :: rest
    else return []

/-- Items for as long as `more` announces one. -/
def items (more : Bool → Scan Bool) (item : Scan α) : Scan (List α) := fun s =>
  itemsUpTo more item (s.length + 1) true s

/-- What stands between two brackets, or between two quotes: the text is at the first of them, and
`inside` stops at the second. -/
def enclosed (inside : Scan α) : Scan α := do
  skipOne
  let a ← inside
  skipOne
  return a

/-- Whether another item of an array comes next. The closing bracket is left in the text. -/
def moreItems (isFirst : Bool) : Scan Bool := fun s =>
  match dropBlanks s with
  | [] => refuse .arrayUnfinished []
  | c :: rest =>
    if c = ']' then .ok (false, c :: rest)
    else if isFirst then .ok (true, c :: rest)
    else if c = ',' then
      match dropBlanks rest with
      | [] => refuse .valueUnfinished []
      | d :: rest => if d = ']' then refuseNext .trailingComma (d :: rest) else .ok (true, d :: rest)
    else refuseNext .itemEndExpected (c :: rest)

/-- Whether another member of an object comes next, which begins with a quote. The closing bracket
is left in the text. -/
def moreMembers (isFirst : Bool) : Scan Bool := fun s =>
  match dropBlanks s with
  | [] => refuse .objectUnfinished []
  | c :: rest =>
    if c = '}' then .ok (false, c :: rest)
    else if isFirst then
      if c = '"' then .ok (true, c :: rest) else refuseNext .keyExpected (c :: rest)
    else if c = ',' then
      match dropBlanks rest with
      | [] => refuse .valueUnfinished []
      | d :: rest =>
        if d = '"' then .ok (true, d :: rest)
        else if d = '}' then refuseNext .trailingComma (d :: rest)
        else refuseNext .keyExpected (d :: rest)
    else refuseNext .memberEndExpected (c :: rest)

/-- How to read a value of each kind. Numbers, strings and containers are read from their first
character on. -/
structure Kinds (α : Type) where
  null : α
  bool : Bool → α
  number : Scan α
  string : Scan α
  array : Scan α
  object : Scan α

/-- Reads the next value, whose kind its first character tells. -/
def Kinds.scan (kinds : Kinds α) : Scan α := fun s =>
  match dropBlanks s with
  | [] => refuse .valueUnfinished []
  | c :: rest =>
    if c = 'n' then (do literal ['u', 'l', 'l']; return kinds.null) rest
    else if c = 't' then (do literal ['r', 'u', 'e']; return kinds.bool true) rest
    else if c = 'f' then (do literal ['a', 'l', 's', 'e']; return kinds.bool false) rest
    else if c = '-' || c.isDigit then kinds.number (c :: rest)
    else if c = '"' then kinds.string (c :: rest)
    else if c = '[' then kinds.array (c :: rest)
    else if c = '{' then kinds.object (c :: rest)
    else refuseNext .valueExpected (c :: rest)

end Scan
end LatencyProbe.Json
