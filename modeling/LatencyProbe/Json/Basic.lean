import LatencyProbe.Double.Basic

/-!
# JSON values

A value is kept as its document wrote it: members in order, repeated keys and all. `collated` gives
the value as a map would hold it, every object sorted by key with the last of equal keys kept.

A number is a whole number that fits 64 bits, signed or unsigned, or a finite double. The two do
not mix: `1` and `1.0` are different numbers, and a minus zero is always a double.
-/

namespace LatencyProbe

namespace Json

/-- A number of a document. -/
inductive Number where
  | integer (n : Int) (bounds : -0x8000000000000000 ≤ n ∧ n < 0x10000000000000000)
  | float (x : Double.Finite)
  deriving DecidableEq

namespace Number

/-- A number that is a signed 64-bit integer, as it is. -/
def toInt64? : Number → Option Int64
  | .integer n _ => if n < 0x8000000000000000 then some (Int64.ofInt n) else none
  | .float _ => none

/-- The number as a double, rounded to the nearest one. -/
def toDouble : Number → Double.Finite
  | .integer n bounds => .ofNat (decide (n < 0)) n.natAbs (by omega)
  | .float x => x

end Number
end Json

/-- A JSON value. -/
inductive Json where
  | null
  | bool (b : Bool)
  | number (n : Json.Number)
  | string (s : String)
  | array (items : List Json)
  | object (members : List (String × Json))

namespace Json

/-- A 32-bit word as a number. -/
def word (n : UInt32) : Json :=
  .number (.integer n.toNat (by have := n.toNat_lt; omega))

/-- A signed 64-bit number. -/
def int64 (n : Int64) : Json :=
  .number (.integer n.toInt (by have := n.le_toInt; have := n.toInt_lt; omega))

/-- A double as a number; what is not finite has no number and becomes `null`. -/
def double : Double → Json
  | .finite x => .number (.float x)
  | _ => .null

/-- The member of an object under a key. Values of other kinds have no members. -/
def get? (key : String) : Json → Option Json
  | .object members => members.lookup key
  | _ => none

/-- Sets a member of a list that is sorted by key. -/
def insert (key : String) (value : Json) : List (String × Json) → List (String × Json)
  | [] => [(key, value)]
  | (k, v) :: rest =>
    if key = k then (key, value) :: rest
    else if key < k then (key, value) :: (k, v) :: rest
    else (k, v) :: insert key value rest

/-- Sorts members by key. Of members with equal keys the last one stays. -/
def sortMembers (members : List (String × Json)) : List (String × Json) :=
  members.foldl (fun sorted member => insert member.1 member.2 sorted) []

mutual

/-- The value with every object sorted by key, and the last of equal keys kept. -/
def collated : Json → Json
  | .array items => .array (collatedItems items)
  | .object members => .object (sortMembers (collatedMembers members))
  | value => value

/-- Collates the items of an array. -/
def collatedItems : List Json → List Json
  | [] => []
  | item :: rest => item.collated :: collatedItems rest

/-- Collates the values of an object's members, which keep their places. -/
def collatedMembers : List (String × Json) → List (String × Json)
  | [] => []
  | (key, value) :: rest => (key, value.collated) :: collatedMembers rest

end

theorem collatedItems_eq_map (items : List Json) : collatedItems items = items.map collated := by
  induction items with
  | nil => rfl
  | cons item rest ih => simp [collatedItems, ih]

theorem collatedMembers_eq_map (members : List (String × Json)) :
    collatedMembers members = members.map fun member => (member.1, member.2.collated) := by
  induction members with
  | nil => rfl
  | cons member rest ih => simp [collatedMembers, ih]

end Json
end LatencyProbe
