import LatencyProbe.Proofs.Json.Members
import Mathlib.Data.String.Basic

/-!
# Collated values

A collated object has its members in the order of their keys, every key once. Such a list is known
by its look-ups: `Ascending.eq_of_lookup` is the one fact about order that the rest needs, and it
makes collating idempotent.

`ofParts` is the induction over values, with one hypothesis for all items of an array and one for
all members of an object.
-/

namespace LatencyProbe.Json

/-- What holds of a container if it holds of its parts holds of every value. -/
theorem ofParts {P : Json → Prop} (null : P .null) (bool : ∀ b, P (.bool b))
    (number : ∀ n, P (.number n)) (string : ∀ s, P (.string s))
    (array : ∀ items, (∀ v ∈ items, P v) → P (.array items))
    (object : ∀ members, (∀ m ∈ members, P m.2) → P (.object members)) (v : Json) : P v :=
  @Json.rec P (fun items => ∀ v ∈ items, P v) (fun members => ∀ m ∈ members, P m.2)
    (fun m => P m.2) null bool number string array object
    (by simp) (fun _ _ hitem hrest => List.forall_mem_cons.mpr ⟨hitem, hrest⟩)
    (by simp) (fun _ _ hmember hrest => List.forall_mem_cons.mpr ⟨hmember, hrest⟩)
    (fun _ _ h => h) v

/-- Members in the order of their keys, every key once. -/
def Ascending {α : Type} (members : List (String × α)) : Prop :=
  members.Pairwise fun m n => m.1 < n.1

section Lookup

variable {α : Type} {members : List (String × α)}

theorem mem_of_lookup {key : String} {a : α} (h : members.lookup key = some a) :
    (key, a) ∈ members := by
  obtain ⟨before, after, rfl, -⟩ := List.lookup_eq_some_iff.mp h
  simp

theorem lookup_eq_none {key : String} (h : ∀ m ∈ members, m.1 ≠ key) :
    members.lookup key = none := by
  rw [List.lookup_eq_none_iff]
  intro m hm
  simpa using (h m hm).symm

namespace Ascending

theorem lookup_of_lt {m : String × α} {key : String} (h : Ascending (m :: members))
    (hlt : key < m.1) : (m :: members).lookup key = none := by
  apply lookup_eq_none
  intro n hn
  rcases List.mem_cons.mp hn with rfl | hn
  · exact ne_of_gt hlt
  · exact ne_of_gt (hlt.trans ((List.pairwise_cons.mp h).1 n hn))

theorem lookup_head {m : String × α} (h : Ascending (m :: members)) :
    members.lookup m.1 = none := by
  apply lookup_eq_none
  intro n hn
  exact ne_of_gt ((List.pairwise_cons.mp h).1 n hn)

/-- A list in the order of its keys is known by its look-ups. -/
theorem eq_of_lookup {members' : List (String × α)} (h : Ascending members)
    (h' : Ascending members') (hlookup : ∀ key, members.lookup key = members'.lookup key) :
    members = members' := by
  induction members generalizing members' with
  | nil =>
      cases members' with
      | nil => rfl
      | cons m' rest' =>
          have hfirst := hlookup m'.1
          rw [List.lookup_cons, beq_self_eq_true] at hfirst
          cases hfirst
  | cons m rest ih =>
      cases members' with
      | nil =>
          have hfirst := hlookup m.1
          rw [List.lookup_cons, beq_self_eq_true] at hfirst
          cases hfirst
      | cons m' rest' =>
          have hfirst := hlookup m.1
          have hfirst' := hlookup m'.1
          -- The smaller of the two first keys would be missing on the other side.
          have hkey : m.1 = m'.1 := by
            rcases lt_trichotomy m.1 m'.1 with hlt | heq | hlt
            · rw [h'.lookup_of_lt hlt, List.lookup_cons, beq_self_eq_true] at hfirst
              cases hfirst
            · exact heq
            · rw [h.lookup_of_lt hlt, List.lookup_cons, beq_self_eq_true] at hfirst'
              cases hfirst'
          have hvalue : m.2 = m'.2 := by
            rw [List.lookup_cons, List.lookup_cons, hkey, beq_self_eq_true] at hfirst
            exact Option.some.inj hfirst
          have htail : rest = rest' := by
            apply ih (List.pairwise_cons.mp h).2 (List.pairwise_cons.mp h').2
            intro key
            by_cases heq : key = m.1
            · rw [heq, h.lookup_head, hkey, h'.lookup_head]
            · have hnext := hlookup key
              rwa [List.lookup_cons, List.lookup_cons, ← hkey, beq_false_of_ne heq] at hnext
          rw [Prod.ext hkey hvalue, htail]

/-- Where every key is there once, the last member under it is the first. -/
theorem lookup_reverse (h : Ascending members) (key : String) :
    members.reverse.lookup key = members.lookup key := by
  induction members with
  | nil => rfl
  | cons m rest ih =>
      rw [List.reverse_cons, List.lookup_append, ih (List.pairwise_cons.mp h).2, List.lookup_cons,
        List.lookup_cons, List.lookup_nil]
      by_cases heq : key = m.1
      · rw [heq, h.lookup_head, beq_self_eq_true]
        rfl
      · rw [beq_false_of_ne heq, Option.or_none]

end Ascending

end Lookup

section Sorting

variable {members : List (String × Json)}

theorem mem_insert {key : String} {value : Json} {m : String × Json}
    (h : m ∈ insert key value members) : m = (key, value) ∨ m ∈ members := by
  induction members with
  | nil => exact .inl (List.mem_singleton.mp h)
  | cons n rest ih =>
      obtain ⟨k, v⟩ := n
      rw [insert] at h
      split_ifs at h
      · rcases List.mem_cons.mp h with rfl | h
        · exact .inl rfl
        · exact .inr (List.mem_cons_of_mem _ h)
      · exact List.mem_cons.mp h
      · rcases List.mem_cons.mp h with rfl | h
        · exact .inr (List.mem_cons_self ..)
        · exact (ih h).imp_right (List.mem_cons_of_mem _)

theorem Ascending.insert (h : Ascending members) (key : String) (value : Json) :
    Ascending (insert key value members) := by
  induction members with
  | nil => exact List.pairwise_singleton _ _
  | cons n rest ih =>
      obtain ⟨k, v⟩ := n
      obtain ⟨hn, hrest⟩ := List.pairwise_cons.mp h
      rw [Json.insert]
      split_ifs with heq hlt
      · subst heq
        exact List.pairwise_cons.mpr ⟨hn, hrest⟩
      · refine List.pairwise_cons.mpr ⟨?_, h⟩
        intro m hm
        rcases List.mem_cons.mp hm with rfl | hm
        · exact hlt
        · exact hlt.trans (hn m hm)
      · have hgt : k < key := lt_of_le_of_ne (not_lt.mp hlt) (Ne.symm heq)
        refine List.pairwise_cons.mpr ⟨?_, ih hrest⟩
        intro m hm
        rcases mem_insert hm with rfl | hm
        · exact hgt
        · exact hn m hm

theorem ascending_foldl_insert {sorted : List (String × Json)} (h : Ascending sorted) :
    Ascending (members.foldl (fun sorted member => insert member.1 member.2 sorted) sorted) := by
  induction members generalizing sorted with
  | nil => exact h
  | cons m rest ih => exact ih (h.insert m.1 m.2)

theorem ascending_sortMembers (members : List (String × Json)) :
    Ascending (sortMembers members) :=
  ascending_foldl_insert .nil

theorem mem_foldl_insert {sorted : List (String × Json)} {m : String × Json}
    (h : m ∈ members.foldl (fun sorted member => insert member.1 member.2 sorted) sorted) :
    m ∈ members ∨ m ∈ sorted := by
  induction members generalizing sorted with
  | nil => exact .inr h
  | cons n rest ih =>
      rcases ih h with h | h
      · exact .inl (List.mem_cons_of_mem _ h)
      · rcases mem_insert h with rfl | h
        · exact .inl (List.mem_cons_self ..)
        · exact .inr h

theorem mem_sortMembers {m : String × Json} (h : m ∈ sortMembers members) : m ∈ members :=
  (mem_foldl_insert h).resolve_right (List.not_mem_nil)

/-- Members that are in order stay as they are. -/
theorem Ascending.sortMembers_eq (h : Ascending members) : sortMembers members = members := by
  apply (ascending_sortMembers members).eq_of_lookup h
  intro key
  rw [lookup_sortMembers, h.lookup_reverse]

/-- Sorting moves the members and leaves the values to themselves. -/
theorem sortMembers_map (f : Json → Json) (members : List (String × Json)) :
    sortMembers (members.map fun m => (m.1, f m.2)) =
      (sortMembers members).map fun m => (m.1, f m.2) := by
  have hmap : Ascending ((sortMembers members).map fun m => (m.1, f m.2)) :=
    List.pairwise_map.mpr (ascending_sortMembers members)
  apply (ascending_sortMembers _).eq_of_lookup hmap
  intro key
  rw [lookup_sortMembers, ← List.map_reverse, lookup_map_snd, lookup_map_snd, lookup_sortMembers]

end Sorting

theorem collated_array (items : List Json) :
    collated (.array items) = .array (items.map collated) := by
  rw [collated, collatedItems_eq_map]

theorem collated_object (members : List (String × Json)) :
    collated (.object members) =
      .object (sortMembers (members.map fun m => (m.1, m.2.collated))) := by
  rw [collated, collatedMembers_eq_map]

/-- An object with its keys in order and its values collated is collated. -/
theorem Ascending.collated_object {members : List (String × Json)} (h : Ascending members)
    (hvalues : ∀ m ∈ members, m.2.collated = m.2) :
    (object members).collated = .object members := by
  have hmembers : ∀ m ∈ members, (m.1, m.2.collated) = m :=
    fun m hm => Prod.ext rfl (hvalues m hm)
  rw [Json.collated_object, List.map_congr_left hmembers, List.map_id', h.sortMembers_eq]

/-- A collated value is collated already. -/
@[simp] theorem collated_collated (v : Json) : v.collated.collated = v.collated := by
  induction v using ofParts with
  | null | bool | number | string => rfl
  | array items ih =>
      rw [collated_array, collated_array, List.map_map]
      congr 1
      exact List.map_congr_left ih
  | object members ih =>
      rw [collated_object]
      apply Ascending.collated_object (ascending_sortMembers _)
      intro m hm
      obtain ⟨n, hn, rfl⟩ := List.mem_map.mp (mem_sortMembers hm)
      exact ih n hn

/-- The members of a collated value are collated. -/
theorem collated_of_get? {v w : Json} {key : String} (hv : v.collated = v)
    (h : v.get? key = some w) : w.collated = w := by
  cases v with
  | object members =>
      rw [← hv, get?_collated_object] at h
      obtain ⟨raw, -, rfl⟩ := Option.map_eq_some_iff.mp h
      exact collated_collated raw
  | null | bool | number | string | array => cases h

end LatencyProbe.Json
