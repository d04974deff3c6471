import LatencyProbe.Json.Basic

/-!
# Members of collated objects

An object that is collated says under each key what the last of its members with that key said. So
a look-up never has to know how the members were sorted.
-/

namespace LatencyProbe.Json

theorem lookup_cons (key k : String) (value : Json) (rest : List (String × Json)) :
    List.lookup key ((k, value) :: rest) = if key = k then some value else rest.lookup key := by
  rw [List.lookup_cons]
  by_cases h : key = k
  · simp [h]
  · simp [h, beq_false_of_ne h]

theorem lookup_insert (key k : String) (value : Json) (members : List (String × Json)) :
    (insert k value members).lookup key =
      if key = k then some value else members.lookup key := by
  induction members with
  | nil => rw [insert, lookup_cons]
  | cons member rest ih =>
      obtain ⟨k', v'⟩ := member
      rw [insert]
      by_cases hk : k = k'
      · subst hk
        rw [if_pos rfl, lookup_cons, lookup_cons]
        split <;> rfl
      · rw [if_neg hk]
        by_cases hlt : k < k'
        · rw [if_pos hlt, lookup_cons]
        · rw [if_neg hlt, lookup_cons, lookup_cons, ih]
          by_cases hkey : key = k'
          · subst hkey
            rw [if_pos rfl, if_neg (Ne.symm hk), if_pos rfl]
          · rw [if_neg hkey, if_neg hkey]

theorem lookup_foldl_insert (key : String) (members sorted : List (String × Json)) :
    (members.foldl (fun sorted member => insert member.1 member.2 sorted) sorted).lookup key =
      (members.reverse.lookup key).or (sorted.lookup key) := by
  induction members generalizing sorted with
  | nil => rfl
  | cons member rest ih =>
      obtain ⟨k, v⟩ := member
      rw [List.foldl_cons, ih, lookup_insert, List.reverse_cons, List.lookup_append,
        Option.or_assoc, lookup_cons, List.lookup_nil]
      split <;> rfl

theorem lookup_sortMembers (key : String) (members : List (String × Json)) :
    (sortMembers members).lookup key = members.reverse.lookup key := by
  rw [sortMembers, lookup_foldl_insert, List.lookup_nil, Option.or_none]

theorem lookup_map_snd {α β : Type} (key : String) (f : α → β) (members : List (String × α)) :
    (members.map fun member => (member.1, f member.2)).lookup key =
      (members.lookup key).map f := by
  induction members with
  | nil => rfl
  | cons member rest ih =>
      rw [List.map_cons, List.lookup_cons, List.lookup_cons, ih]
      cases key == member.1 <;> rfl

/-- The last member under a key counts. -/
theorem get?_collated_object (key : String) (members : List (String × Json)) :
    (collated (.object members)).get? key = (members.reverse.lookup key).map collated := by
  change (sortMembers (collatedMembers members)).lookup key = _
  rw [lookup_sortMembers, collatedMembers_eq_map, ← List.map_reverse, lookup_map_snd]

end LatencyProbe.Json
