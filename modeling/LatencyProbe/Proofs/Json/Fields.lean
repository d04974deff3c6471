import LatencyProbe.Proofs.Json.Meaning
import LatencyProbe.Proofs.Json.Records

/-!
# Fields among members

An object is read as a record field by field: each field finds the one member that has its key, and
no field looks at a member under another key. So a member that belongs to no field can be put in
anywhere, and a record with one field more asks only that this field finds a member too.
-/

namespace LatencyProbe.Json

/-- The one member that has the key of a field is read as this value. -/
def Field.Finds {α : Type} (field : Field α) (ms : List (String × Json)) (a : α) : Prop :=
  ∃ m, ms.filter (·.1 == field.key) = [m] ∧ field.reader.ofJson m.2 = some a

/-- A member under the key of a field has to be the only one. -/
theorem Field.finds_insert {α : Type} {field : Field α} {m : String × Json} (h : m.1 = field.key)
    {before after : List (String × Json)} {a : α} :
    field.Finds (before ++ m :: after) a ↔
      (∀ other ∈ before ++ after, other.1 ≠ field.key) ∧ field.reader.ofJson m.2 = some a := by
  have hnone : (∀ other ∈ before ++ after, other.1 ≠ field.key) ↔
      before.filter (·.1 == field.key) = [] ∧ after.filter (·.1 == field.key) = [] := by
    simp [List.filter_eq_nil_iff, or_imp, forall_and]
  rw [hnone]
  simp only [Finds, List.filter_append, filter_cons_of_eq h]
  simp [List.append_eq_singleton_iff, and_assoc]

namespace Fields

variable {αs : List Type}

theorem ofMembers_cons_eq_some {α : Type} {fields : Fields (α :: αs)} {ms : List (String × Json)}
    {a : α} {row : Row αs} :
    fields.ofMembers ms = some (a, row) ↔
      fields.1.Finds ms a ∧ ofMembers fields.2 ms = some row := by
  obtain ⟨field, fields⟩ := fields
  rw [ofMembers_cons]
  change _ ↔ (∃ m, ms.filter (·.1 == field.key) = [m] ∧ field.reader.ofJson m.2 = some a) ∧
    fields.ofMembers ms = some row
  generalize ms.filter (·.1 == field.key) = named
  rcases named with _ | ⟨⟨_, v⟩, _ | _⟩
  · simp
  · constructor
    · intro h
      obtain ⟨a', hjson, h⟩ := Option.bind_eq_some_iff.mp h
      obtain ⟨row', hrest, heq⟩ := Option.bind_eq_some_iff.mp h
      cases heq
      exact ⟨⟨_, rfl, hjson⟩, hrest⟩
    · rintro ⟨⟨m, heq, hjson⟩, hrest⟩
      cases heq
      exact Option.bind_eq_some_iff.mpr ⟨a, hjson, Option.bind_eq_some_iff.mpr ⟨row, hrest, rfl⟩⟩
  · simp

/-- Members of no field are not looked at. -/
theorem ofMembers_insert {fields : Fields αs} {m : String × Json} (h : m.1 ∉ fields.keys)
    (before after : List (String × Json)) :
    fields.ofMembers (before ++ m :: after) = fields.ofMembers (before ++ after) := by
  induction αs with
  | nil => rfl
  | cons α αs ih =>
      obtain ⟨field, fields⟩ := fields
      obtain ⟨hkey, hrest⟩ : m.1 ≠ field.key ∧ m.1 ∉ fields.keys := by simpa [keys] using h
      rw [ofMembers_cons, ofMembers_cons, ih hrest]
      simp only [List.filter_append, Field.filter_cons_of_ne hkey]

theorem length_eq_of_ofItems {fields : Fields αs} {vs : List Json} {row : Row αs}
    (h : fields.ofItems vs = some row) : vs.length = αs.length := by
  induction αs generalizing vs with
  | nil =>
      cases vs with
      | nil => rfl
      | cons => cases h
  | cons α αs ih =>
      cases vs with
      | nil => cases h
      | cons v vs =>
          obtain ⟨a, row⟩ := row
          exact congrArg (· + 1) (ih (ofItems_cons_eq_some.mp h).2)

end Fields

/-- If a record is its row and nothing else, an object is read as it exactly if its row is found. -/
theorem Reader.ofJson_object_eq_some {αs : List Type} {β : Type} {name : String}
    {fields : Fields αs} {make : Row αs → β} (toRow : β → Row αs) (hmake : ∀ b, make (toRow b) = b)
    (hrow : ∀ row, toRow (make row) = row) {ms : List (String × Json)} {b : β} :
    (record name fields make).ofJson (.object ms) = some b ↔
      fields.ofMembers ms = some (toRow b) := by
  constructor
  · intro h
    obtain ⟨row, hread, rfl⟩ := Option.map_eq_some_iff.mp h
    rwa [hrow]
  · intro h
    exact Option.map_eq_some_iff.mpr ⟨toRow b, h, hmake b⟩

/-- The value of a member is read as it is where it stands by itself. -/
theorem Reader.ofJson_member_eq_some {α : Type} {reader : Reader α} (agrees : reader.Agrees)
    {text : List Char} {ms : List (String × Json)} (h : Document text (.object ms))
    {m : String × Json} (hm : m ∈ ms) {a : α} :
    reader.ofJson m.2 = some a ↔
      ∃ inner, inner <:+: text ∧ Document inner m.2 ∧ reader.document inner = .ok a := by
  constructor
  · intro hjson
    obtain ⟨inner, hinfix, hinner⟩ := h.exists_of_mem hm
    exact ⟨inner, hinfix, hinner, (document_eq_ok agrees hinner).mpr hjson⟩
  · rintro ⟨inner, -, hinner, hread⟩
    exact (document_eq_ok agrees hinner).mp hread

end LatencyProbe.Json
