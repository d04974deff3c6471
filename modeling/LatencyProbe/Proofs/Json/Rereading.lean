import LatencyProbe.Proofs.Json.Collation
import LatencyProbe.Proofs.Json.Printing

/-!
# Values that survive printing

Printing a value and reading it again keeps everything but the doubles that are not read back, so a
value with no such double is read back whole. What is read is never nested deeper than the reader
allows, nor is any part of it, so it may be printed and read again.
-/

namespace LatencyProbe.Json

theorem depthItems_le_iff {items : List Json} {n : Nat} :
    depthItems items ≤ n ↔ ∀ v ∈ items, v.depth ≤ n := by
  induction items with
  | nil => simp [depthItems]
  | cons item rest ih => rw [depthItems, max_le_iff, ih, List.forall_mem_cons]

theorem depthMembers_le_iff {members : List (String × Json)} {n : Nat} :
    depthMembers members ≤ n ↔ ∀ m ∈ members, m.2.depth ≤ n := by
  induction members with
  | nil => simp [depthMembers]
  | cons member rest ih => rw [depthMembers, max_le_iff, ih, List.forall_mem_cons]

theorem depth_array_le_iff {items : List Json} {n : Nat} :
    (array items).depth ≤ n + 1 ↔ ∀ v ∈ items, v.depth ≤ n := by
  rw [depth, Nat.add_le_add_iff_right, depthItems_le_iff]

theorem depth_object_le_iff {members : List (String × Json)} {n : Nat} :
    (object members).depth ≤ n + 1 ↔ ∀ m ∈ members, m.2.depth ≤ n := by
  rw [depth, Nat.add_le_add_iff_right, depthMembers_le_iff]

/-- A member is nested less deep than its object. -/
theorem depth_lt_of_get? {v w : Json} {key : String} (h : v.get? key = some w) :
    w.depth < v.depth := by
  cases v with
  | object members =>
      have hmember := depthMembers_le_iff.mp (Nat.le_refl (depthMembers members)) _
        (mem_of_lookup h)
      rw [depth]
      exact Nat.lt_succ_of_le hmember
  | null | bool | number | string | array => cases h

theorem depth_collated_le (v : Json) : v.collated.depth ≤ v.depth := by
  induction v using ofParts with
  | null | bool | number | string => exact Nat.le_refl _
  | array items ih =>
      rw [collated_array, depth.eq_def (array items), depth_array_le_iff]
      intro v hv
      obtain ⟨item, hitem, rfl⟩ := List.mem_map.mp hv
      exact (ih item hitem).trans (depthItems_le_iff.mp (Nat.le_refl _) item hitem)
  | object members ih =>
      rw [collated_object, depth.eq_def (object members), depth_object_le_iff]
      intro m hm
      obtain ⟨member, hmember, rfl⟩ := List.mem_map.mp (mem_sortMembers hm)
      exact (ih member hmember).trans (depthMembers_le_iff.mp (Nat.le_refl _) member hmember)

/-- How deep a phrase is nested inside the container that it stands in. -/
def Phrase.depth : Phrase → Nat
  | .value v => v.depth
  | .items vs => depthItems vs
  | .members ms => depthMembers ms

theorem depth_le_of_denotes {d : Nat} {text : List Char} {phrase : Phrase}
    (h : Denotes d text phrase) : phrase.depth ≤ d := by
  induction h with
  | null | true | false | number | string => exact Nat.zero_le _
  | emptyArray | emptyObject => exact Nat.succ_le_succ (Nat.zero_le _)
  | array _ ih | object _ ih => exact Nat.succ_le_succ ih
  | lastItem _ _ _ ih | lastMember _ _ _ _ _ _ ih => exact max_le ih (Nat.zero_le _)
  | item _ _ _ _ ih ihMore | member _ _ _ _ _ _ _ ih ihMore => exact max_le ih ihMore

theorem Document.depth_le {text : List Char} {v : Json} (h : Document text v) :
    v.depth ≤ maxDepth := by
  cases h with
  | around _ htext _ => exact depth_le_of_denotes htext

/-- What is read is collated and nested no deeper than the reader allows. -/
theorem collated_and_depth_le_of_parse {text : List Char} {v : Json} (h : parse text = .ok v) :
    v.collated = v ∧ v.depth ≤ maxDepth := by
  obtain ⟨raw, hraw, rfl⟩ := parse_eq_ok.mp h
  exact ⟨collated_collated raw, (depth_collated_le raw).trans hraw.depth_le⟩

mutual

/-- The doubles that occur in a value. -/
def doubles : Json → List Double
  | .number (.float x) => [.finite x]
  | .array items => doublesItems items
  | .object members => doublesMembers members
  | _ => []

/-- The doubles that occur in the items of an array. -/
def doublesItems : List Json → List Double
  | [] => []
  | item :: rest => item.doubles ++ doublesItems rest

/-- The doubles that occur in the values of an object. -/
def doublesMembers : List (String × Json) → List Double
  | [] => []
  | (_, value) :: rest => value.doubles ++ doublesMembers rest

end

theorem doublesItems_eq_flatMap (items : List Json) :
    doublesItems items = items.flatMap doubles := by
  induction items with
  | nil => rfl
  | cons item rest ih => rw [doublesItems, ih, List.flatMap_cons]

theorem doublesMembers_eq_flatMap (members : List (String × Json)) :
    doublesMembers members = members.flatMap fun m => m.2.doubles := by
  induction members with
  | nil => rfl
  | cons member rest ih => rw [doublesMembers, ih, List.flatMap_cons]

theorem reread_array (items : List Json) :
    reread (.array items) = .array (items.map reread) := by
  have hitems : rereadItems items = items.map reread := by
    induction items with
    | nil => rfl
    | cons item rest ih => rw [rereadItems, ih, List.map_cons]
  rw [reread, hitems]

theorem reread_object (members : List (String × Json)) :
    reread (.object members) = .object (members.map fun m => (m.1, m.2.reread)) := by
  have hmembers : rereadMembers members = members.map fun m => (m.1, m.2.reread) := by
    induction members with
    | nil => rfl
    | cons member rest ih => rw [rereadMembers, ih, List.map_cons]
  rw [reread, hmembers]

/-- A value is read back whole if its doubles are read back. -/
theorem reread_of_readsBack {v : Json} (h : ∀ x ∈ v.doubles, x.ReadsBack) : v.reread = v := by
  induction v using ofParts with
  | null | bool | string => rfl
  | number n =>
      cases n with
      | integer n bounds => rw [reread, reread_integer]
      | float x =>
          have hx : (Double.finite x).ReadsBack := h _ (List.mem_singleton_self _)
          rw [reread, Double.readsBack_finite.mp hx]
  | array items ih =>
      rw [doubles, doublesItems_eq_flatMap] at h
      have hitems : ∀ v ∈ items, v.reread = v :=
        fun v hv => ih v hv fun x hx => h x (List.mem_flatMap.mpr ⟨v, hv, hx⟩)
      rw [reread_array, List.map_congr_left hitems, List.map_id']
  | object members ih =>
      rw [doubles, doublesMembers_eq_flatMap] at h
      have hmembers : ∀ m ∈ members, (m.1, m.2.reread) = m :=
        fun m hm => Prod.ext rfl (ih m hm fun x hx => h x (List.mem_flatMap.mpr ⟨m, hm, hx⟩))
      rw [reread_object, List.map_congr_left hmembers, List.map_id']

/-- Reading again changes numbers, collating moves members: neither minds the other. -/
theorem collated_reread (v : Json) : v.reread.collated = v.collated.reread := by
  induction v using ofParts with
  | null | bool | number | string => rfl
  | array items ih =>
      rw [reread_array, collated_array, collated_array, reread_array, List.map_map, List.map_map]
      exact congrArg array (List.map_congr_left ih)
  | object members ih =>
      have hvalues : ∀ m ∈ members,
          ((m.1, m.2.reread.collated) : String × Json) = (m.1, m.2.collated.reread) :=
        fun m hm => Prod.ext rfl (ih m hm)
      rw [reread_object, collated_object, collated_object, reread_object, ← sortMembers_map,
        List.map_map, List.map_map]
      exact congrArg (object ∘ sortMembers) (List.map_congr_left hvalues)

end LatencyProbe.Json
