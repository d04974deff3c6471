import LatencyProbe.Proofs.Json.Readers

/-!
# Records are read alike in both ways

Reading a record off an object is a loop over its members with a slot for each field. `put` is what
one member does to the slots when only its value counts, and the members together do what folding
`put` over them does. The fold takes each field for itself, as `ofMembers` does.

An array has no such state: its items and the fields are walked side by side.
-/

namespace LatencyProbe.Json

namespace Field

variable {α : Type}

/-- What a member does to the slot of a field. A slot is filled once. -/
def put (field : Field α) (slot : Option α) (m : String × Json) : Option (Option α) :=
  if m.1 = field.key then
    match slot with
    | some _ => none
    | none => some <$> field.reader.ofJson m.2
  else some slot

theorem put_of_ne {field : Field α} {m : String × Json} (h : m.1 ≠ field.key) (slot : Option α) :
    field.put slot m = some slot := if_neg h

theorem put_none {field : Field α} {m : String × Json} (h : m.1 = field.key) :
    field.put none m = some <$> field.reader.ofJson m.2 := if_pos h

theorem put_some {field : Field α} {m : String × Json} (h : m.1 = field.key) (a : α) :
    field.put (some a) m = none := if_pos h

theorem filter_cons_of_ne {field : Field α} {m : String × Json} (h : m.1 ≠ field.key)
    (ms : List (String × Json)) :
    (m :: ms).filter (·.1 == field.key) = ms.filter (·.1 == field.key) :=
  List.filter_cons_of_neg (by simpa using h)

theorem filter_cons_of_eq {field : Field α} {m : String × Json} (h : m.1 = field.key)
    (ms : List (String × Json)) :
    (m :: ms).filter (·.1 == field.key) = m :: ms.filter (·.1 == field.key) :=
  List.filter_cons_of_pos (by simpa using h)

theorem foldlM_put_some (field : Field α) (a : α) (ms : List (String × Json)) :
    ms.foldlM field.put (some a) =
      match ms.filter (·.1 == field.key) with
      | [] => some (some a)
      | _ => none := by
  induction ms with
  | nil => rfl
  | cons m ms ih =>
      rw [List.foldlM_cons]
      by_cases hkey : m.1 = field.key
      · rw [put_some hkey, filter_cons_of_eq hkey]
        rfl
      · rw [put_of_ne hkey, filter_cons_of_ne hkey]
        exact ih

/-- A slot ends up with the value of the one member that has the key of the field. -/
theorem foldlM_put_none (field : Field α) (ms : List (String × Json)) :
    ms.foldlM field.put none =
      match ms.filter (·.1 == field.key) with
      | [] => some none
      | [(_, v)] => some <$> field.reader.ofJson v
      | _ => none := by
  induction ms with
  | nil => rfl
  | cons m ms ih =>
      rw [List.foldlM_cons]
      by_cases hkey : m.1 = field.key
      · rw [put_none hkey, filter_cons_of_eq hkey]
        have hrest := fun a => foldlM_put_some field a ms
        cases hms : ms.filter (·.1 == field.key) with
        | nil => cases hread : field.reader.ofJson m.2 <;> simp [hread, hrest, hms]
        | cons m' ms' => cases field.reader.ofJson m.2 <;> simp [hrest, hms]
      · rw [put_of_ne hkey, filter_cons_of_ne hkey]
        exact ih

end Field

namespace Fields

variable {αs : List Type}

/-- The keys of the fields, in their order. -/
def keys : {αs : List Type} → Fields αs → List String
  | [], _ => []
  | _ :: _, (field, fields) => field.key :: fields.keys

/-- What a member does to all slots. -/
def put : {αs : List Type} → Fields αs → Slots αs → String × Json → Option (Slots αs)
  | [], _, _, _ => some ()
  | _ :: _, (field, fields), (slot, slots), m => do
    let slot ← field.put slot m
    let slots ← fields.put slots m
    return (slot, slots)

theorem put_of_notMem {fields : Fields αs} {m : String × Json} (h : m.1 ∉ fields.keys)
    (slots : Slots αs) : fields.put slots m = some slots := by
  induction αs with
  | nil => rfl
  | cons α αs ih =>
      obtain ⟨field, fields⟩ := fields
      obtain ⟨slot, slots⟩ := slots
      obtain ⟨hkey, hrest⟩ : m.1 ≠ field.key ∧ m.1 ∉ fields.keys := by simpa [keys] using h
      simp only [put, Field.put_of_ne hkey, ih hrest]
      rfl

theorem put_cons {α : Type} (field : Field α) (fields : Fields αs) (slot : Option α)
    (slots : Slots αs) (m : String × Json) :
    @put (α :: αs) (field, fields) (slot, slots) m =
      (field.put slot m).bind fun slot =>
        (fields.put slots m).bind fun slots => some (slot, slots) := rfl

theorem put_of_some {α : Type} {field : Field α} {fields : Fields αs} {m : String × Json}
    (h : m.1 = field.key) {a : α} {slots : Slots αs} :
    @put (α :: αs) (field, fields) (some a, slots) m = none := by
  rw [put_cons, Field.put_some h]
  rfl

theorem put_of_none {α : Type} {field : Field α} {fields : Fields αs} {m : String × Json}
    (h : m.1 = field.key) (hfresh : m.1 ∉ fields.keys) {slots : Slots αs} :
    @put (α :: αs) (field, fields) (none, slots) m =
      (field.reader.ofJson m.2).map fun a => (some a, slots) := by
  rw [put_cons, Field.put_none h, put_of_notMem hfresh]
  cases field.reader.ofJson m.2 <;> rfl

theorem put_of_ne {α : Type} {field : Field α} {fields : Fields αs} {m : String × Json}
    (h : m.1 ≠ field.key) {slot : Option α} {slots : Slots αs} :
    @put (α :: αs) (field, fields) (slot, slots) m =
      (fields.put slots m).map fun slots => (slot, slots) := by
  rw [put_cons, Field.put_of_ne h]
  cases fields.put slots m <;> rfl

/-- The fields do not look at one another's slots. -/
theorem foldlM_put_cons {α : Type} (field : Field α) (fields : Fields αs) (slot : Option α)
    (slots : Slots αs) (ms : List (String × Json)) :
    ms.foldlM (@put (α :: αs) (field, fields)) (slot, slots) =
      (ms.foldlM field.put slot).bind fun slot =>
        (ms.foldlM fields.put slots).bind fun slots => some (slot, slots) := by
  induction ms generalizing slot slots with
  | nil => rfl
  | cons m ms ih =>
      change (@put (α :: αs) (field, fields) (slot, slots) m).bind _ = _
      rw [List.foldlM_cons, List.foldlM_cons, put_cons]
      cases field.put slot m with
      | none => rfl
      | some slot' =>
          cases fields.put slots m with
          | none =>
              change none = (ms.foldlM field.put slot').bind fun _ => none
              cases ms.foldlM field.put slot' <;> rfl
          | some slots' => exact ih slot' slots'

theorem ofMembers_cons {α : Type} (field : Field α) (fields : Fields αs)
    (ms : List (String × Json)) :
    @ofMembers (α :: αs) (field, fields) ms =
      match ms.filter (·.1 == field.key) with
      | [(_, v)] => (field.reader.ofJson v).bind fun a =>
        (fields.ofMembers ms).bind fun row => some (a, row)
      | _ => none := rfl

theorem ofItems_cons {α : Type} (fields : Fields (α :: αs)) (v : Json) (vs : List Json) :
    fields.ofItems (v :: vs) = (fields.1.reader.ofJson v).bind fun a =>
      (ofItems fields.2 vs).bind fun row => some (a, row) := rfl

theorem ofItems_cons_eq_some {α : Type} {fields : Fields (α :: αs)} {v : Json} {vs : List Json}
    {a : α} {row : Row αs} :
    fields.ofItems (v :: vs) = some (a, row) ↔
      fields.1.reader.ofJson v = some a ∧ ofItems fields.2 vs = some row := by
  rw [ofItems_cons]
  constructor
  · intro h
    obtain ⟨a', hjson, h⟩ := Option.bind_eq_some_iff.mp h
    obtain ⟨row', hitems, heq⟩ := Option.bind_eq_some_iff.mp h
    cases heq
    exact ⟨hjson, hitems⟩
  · rintro ⟨hjson, hitems⟩
    rw [hjson, hitems]
    rfl

/-- Members are read as a record by putting them into slots one by one. -/
theorem ofMembers_eq_foldlM (fields : Fields αs) (ms : List (String × Json)) :
    fields.ofMembers ms =
      (ms.foldlM fields.put (Slots.empty αs)).bind fun slots =>
        (fields.complete slots).toOption := by
  induction αs with
  | nil =>
      have hms : ms.foldlM fields.put () = some () := by
        induction ms with
        | nil => rfl
        | cons m ms ih => exact ih
      simp only [ofMembers, Slots.empty, hms]
      rfl
  | cons α αs ih =>
      obtain ⟨field, fields⟩ := fields
      change _ = (ms.foldlM (@put (α :: αs) (field, fields)) (none, Slots.empty αs)).bind _
      rw [ofMembers_cons, ih fields, foldlM_put_cons, Field.foldlM_put_none]
      generalize ms.filter (·.1 == field.key) = named
      rcases named with _ | ⟨⟨_, v⟩, _ | _⟩
      · cases ms.foldlM fields.put (Slots.empty αs) <;> rfl
      · change (field.reader.ofJson v).bind _ = (((some <$> field.reader.ofJson v).bind _).bind _)
        cases field.reader.ofJson v with
        | none => rfl
        | some a =>
            cases ms.foldlM fields.put (Slots.empty αs) with
            | none => rfl
            | some slots =>
                change (fields.complete slots).toOption.bind _ =
                  Except.toOption ((a, ·) <$> fields.complete slots)
                cases fields.complete slots <;> rfl
      · rfl

/-- Every field has to be there. -/
theorem exists_mem_of_ofMembers {fields : Fields αs} {ms : List (String × Json)} {row : Row αs}
    (h : fields.ofMembers ms = some row) : ∀ key ∈ fields.keys, ∃ v, (key, v) ∈ ms := by
  induction αs with
  | nil =>
      intro key hkey
      cases hkey
  | cons α αs ih =>
      obtain ⟨field, fields⟩ := fields
      intro key hkey
      rw [ofMembers_cons] at h
      generalize hnamed : ms.filter (·.1 == field.key) = named at h
      rcases named with _ | ⟨⟨k, v⟩, _ | _⟩
      · cases h
      · obtain ⟨a, -, h⟩ := Option.bind_eq_some_iff.mp h
        obtain ⟨row', hrest, -⟩ := Option.bind_eq_some_iff.mp h
        rcases List.mem_cons.mp hkey with rfl | hkey
        · have hmem : (k, v) ∈ ms.filter (·.1 == field.key) := by simp [hnamed]
          obtain ⟨hmem, hk⟩ := List.mem_filter.mp hmem
          exact ⟨v, by simpa [← eq_of_beq hk] using hmem⟩
        · exact ih hrest key hkey
      · cases h

/-- Members that stand in the order of the fields are read like the items of an array. The members
before them belong to fields that have been read. -/
theorem ofMembers_append_zip {fields : Fields αs} (distinct : fields.keys.Nodup)
    {before : List (String × Json)} (hbefore : ∀ m ∈ before, m.1 ∉ fields.keys) {vs : List Json}
    (hlength : vs.length = αs.length) :
    fields.ofMembers (before ++ fields.keys.zip vs) = fields.ofItems vs := by
  induction αs generalizing before vs with
  | nil =>
      obtain rfl := List.length_eq_zero_iff.mp hlength
      rfl
  | cons α αs ih =>
      obtain ⟨field, fields⟩ := fields
      obtain ⟨v, vs, rfl⟩ := List.exists_cons_of_length_eq_add_one hlength
      obtain ⟨hfresh, hdistinct⟩ := List.nodup_cons.mp distinct
      have hfront : before.filter (·.1 == field.key) = [] :=
        List.filter_eq_nil_iff.mpr fun m hm hkey =>
          hbefore m hm (eq_of_beq hkey ▸ List.mem_cons_self ..)
      have hback : (fields.keys.zip vs).filter (·.1 == field.key) = [] :=
        List.filter_eq_nil_iff.mpr fun m hm hkey =>
          hfresh (eq_of_beq hkey ▸ (List.of_mem_zip hm).1)
      have hrest : fields.ofMembers (before ++ [(field.key, v)] ++ fields.keys.zip vs) =
          fields.ofItems vs := by
        refine ih hdistinct ?_ (Nat.succ.inj hlength)
        intro m hm
        rcases List.mem_append.mp hm with hm | hm
        · exact fun hkey => hbefore m hm (List.mem_cons_of_mem _ hkey)
        · obtain rfl := List.mem_singleton.mp hm
          exact hfresh
      change @ofMembers (α :: αs) (field, fields)
        (before ++ (field.key, v) :: fields.keys.zip vs) = _
      have hnamed : (before ++ [(field.key, v)] ++ fields.keys.zip vs).filter
          (·.1 == field.key) = [(field.key, v)] := by
        simp [List.filter_append, hfront, hback]
      rw [List.append_cons, ofMembers_cons, hnamed, hrest]
      rfl

/-- A record that is written with its keys in order is read like an array. -/
theorem ofMembers_zip {fields : Fields αs} (distinct : fields.keys.Nodup) {vs : List Json}
    (hlength : vs.length = αs.length) : fields.ofMembers (fields.keys.zip vs) = fields.ofItems vs :=
  @ofMembers_append_zip αs fields distinct [] (fun _ hm => by cases hm) vs hlength

/-- Every field's reader agrees with itself. -/
def Agree : {αs : List Type} → Fields αs → Prop
  | [], _ => True
  | _ :: _, (field, fields) => field.reader.Agrees ∧ fields.Agree

variable {depth : Nat} {s t u : List Char}

theorem store_of_notMem {fields : Fields αs} {key : String} (h : key ∉ fields.keys)
    (slots : Slots αs) : fields.store depth key slots s = .ok (none, s) := by
  induction αs with
  | nil => rfl
  | cons α αs ih =>
      obtain ⟨field, fields⟩ := fields
      obtain ⟨slot, slots⟩ := slots
      obtain ⟨hkey, hrest⟩ : key ≠ field.key ∧ key ∉ fields.keys := by simpa [keys] using h
      simp only [store, if_neg hkey]
      exact Scan.bind_of_ok (ih hrest slots)

theorem store_of_eq {α : Type} {field : Field α} {fields : Fields αs} {key : String} {v : Json}
    (agrees : field.reader.Agrees) (hkey : key = field.key) (hcolon : Scan.colon s = .ok ((), t))
    (hvalue : Scan.value depth t = .ok (v, u)) {slots : Slots αs}
    {stored : Option (Slots (α :: αs))} {rest : List Char} :
    @store (α :: αs) (field, fields) depth key (none, slots) s = .ok (stored, rest) ↔
      ∃ a, field.reader.ofJson v = some a ∧ stored = some (some a, slots) ∧ rest = u := by
  simp only [store, if_pos hkey]
  constructor
  · intro hstore
    obtain ⟨_, _, hcolon', hstore⟩ := Scan.bind_eq_ok.mp hstore
    cases hcolon.symm.trans hcolon'
    obtain ⟨a, _, hread, hstore⟩ := Scan.bind_eq_ok.mp hstore
    obtain ⟨hjson, rfl⟩ := (agrees hvalue).mp hread
    obtain ⟨rfl, rfl⟩ := Prod.mk.inj (Scan.pure_eq_ok.mp hstore)
    exact ⟨a, hjson, rfl, rfl⟩
  · rintro ⟨a, hjson, rfl, rfl⟩
    have hread := (agrees hvalue).mpr ⟨hjson, rfl⟩
    exact (Scan.bind_of_ok hcolon).trans ((Scan.bind_of_ok hread).trans rfl)

theorem store_of_ne {α : Type} {field : Field α} {fields : Fields αs} {key : String}
    (hkey : key ≠ field.key) {slot : Option α} {slots : Slots αs}
    {stored : Option (Slots (α :: αs))} {rest : List Char} :
    @store (α :: αs) (field, fields) depth key (slot, slots) s = .ok (stored, rest) ↔
      ∃ stored', fields.store depth key slots s = .ok (stored', rest) ∧
        stored = stored'.map fun slots => (slot, slots) := by
  simp only [store, if_neg hkey]
  constructor
  · intro hstore
    obtain ⟨stored', _, hrest, hstore⟩ := Scan.bind_eq_ok.mp hstore
    obtain ⟨rfl, rfl⟩ := Prod.mk.inj (Scan.pure_eq_ok.mp hstore)
    exact ⟨stored', hrest, rfl⟩
  · rintro ⟨stored', hrest, rfl⟩
    exact (Scan.bind_of_ok hrest).trans rfl

/-- The value of a member that has a field goes where `put` puts it. -/
theorem store_of_mem {fields : Fields αs} {key : String} {v : Json} (agree : fields.Agree)
    (distinct : fields.keys.Nodup) (hkey : key ∈ fields.keys) (hcolon : Scan.colon s = .ok ((), t))
    (hvalue : Scan.value depth t = .ok (v, u)) {slots : Slots αs} {stored : Option (Slots αs)}
    {rest : List Char} :
    fields.store depth key slots s = .ok (stored, rest) ↔
      ∃ slots', fields.put slots (key, v) = some slots' ∧ stored = some slots' ∧ rest = u := by
  induction αs generalizing rest with
  | nil => cases hkey
  | cons α αs ih =>
      obtain ⟨field, fields⟩ := fields
      obtain ⟨slot, slots⟩ := slots
      obtain ⟨hfield, hfields⟩ := agree
      obtain ⟨hfresh, hdistinct⟩ := List.nodup_cons.mp distinct
      -- `store` stops at the field that has the key. `put` goes on, but finds the key nowhere else.
      by_cases h : key = field.key
      · cases slot with
        | some a =>
            rw [put_of_some h]
            simp [store, h, Scan.refuseWhole]
        | none =>
            rw [store_of_eq hfield h hcolon hvalue, put_of_none h (h ▸ hfresh)]
            constructor
            · rintro ⟨a, hjson, hstored, hrest⟩
              exact ⟨(some a, slots), Option.map_eq_some_iff.mpr ⟨a, hjson, rfl⟩, hstored, hrest⟩
            · rintro ⟨slots', hput, hstored, hrest⟩
              obtain ⟨a, hjson, rfl⟩ := Option.map_eq_some_iff.mp hput
              exact ⟨a, hjson, hstored, hrest⟩
      · have htail : key ∈ fields.keys := (List.mem_cons.mp hkey).resolve_left h
        rw [store_of_ne h, put_of_ne h]
        constructor
        · rintro ⟨_, hrest, rfl⟩
          obtain ⟨slots', hput, rfl, rfl⟩ := (ih hfields hdistinct htail).mp hrest
          exact ⟨(slot, slots'), Option.map_eq_some_iff.mpr ⟨slots', hput, rfl⟩, rfl, rfl⟩
        · rintro ⟨_, hput, rfl, rfl⟩
          obtain ⟨slots', hput', rfl⟩ := Option.map_eq_some_iff.mp hput
          exact ⟨some slots', (ih hfields hdistinct htail).mpr ⟨slots', hput', rfl, rfl⟩, rfl⟩

/-- One turn of the loop over the members of an object is one `put`. -/
theorem fill_of_turn {fields : Fields αs} {isFirst : Bool} {m : String × Json}
    (agree : fields.Agree) (distinct : fields.keys.Nodup) (hmore : Scan.moreMembers isFirst s = .ok (true, t))
    (hmember : Scan.member (Scan.value depth) t = .ok (m, u)) (n : Nat) {slots : Slots αs}
    {r : Slots αs × List Char} :
    fields.fill depth (n + 1) isFirst slots s = .ok r ↔
      ∃ slots', fields.put slots m = some slots' ∧ fields.fill depth n false slots' u = .ok r := by
  obtain ⟨key, w, hquoted, hmember⟩ := Scan.bind_eq_ok.mp hmember
  obtain ⟨_, x, hcolon, hmember⟩ := Scan.bind_eq_ok.mp hmember
  obtain ⟨v, y, hvalue, hmember⟩ := Scan.bind_eq_ok.mp hmember
  obtain ⟨rfl, rfl⟩ := Prod.mk.inj (Scan.pure_eq_ok.mp hmember)
  have hturn : fields.fill depth (n + 1) isFirst slots s = _ :=
    (Scan.bind_of_ok hmore).trans (Scan.bind_of_ok hquoted)
  rw [hturn]
  by_cases hkey : key ∈ fields.keys
  · constructor
    · intro h
      obtain ⟨stored, z, hstore, h⟩ := Scan.bind_eq_ok.mp h
      obtain ⟨slots', hput, rfl, rfl⟩ :=
        (store_of_mem agree distinct hkey hcolon hvalue).mp hstore
      exact ⟨slots', hput, h⟩
    · rintro ⟨slots', hput, h⟩
      have hstore := (store_of_mem agree distinct hkey hcolon hvalue).mpr ⟨slots', hput, rfl, rfl⟩
      exact (Scan.bind_of_ok hstore).trans h
  · -- The value is skipped, and `put` changes nothing.
    have hstore : fields.store depth key slots w = .ok (none, w) := store_of_notMem hkey slots
    have hskip := Scan.skip_of_value hvalue
    rw [Scan.bind_of_ok hstore, put_of_notMem (m := (key, v)) hkey]
    have hunknown : (do Scan.colon; Scan.skip; fields.fill depth n false slots) w = _ :=
      (Scan.bind_of_ok hcolon).trans (Scan.bind_of_ok hskip)
    constructor
    · intro h
      exact ⟨slots, rfl, hunknown.symm.trans h⟩
    · rintro ⟨_, ⟨⟩, h⟩
      exact hunknown.trans h

/-- The loop over the members folds `put` over them. -/
theorem fill_of_turns {fields : Fields αs} {isFirst : Bool} {ms : List (String × Json)}
    (agree : fields.Agree) (distinct : fields.keys.Nodup)
    (h : Scan.Turns Scan.moreMembers (Scan.member (Scan.value depth)) isFirst s ms t) {n : Nat}
    (enough : ms.length < n) {slots slots' : Slots αs} :
    fields.fill depth n isFirst slots s = .ok (slots', u) ↔
      ms.foldlM fields.put slots = some slots' ∧ u = t := by
  induction h generalizing n slots with
  | done hmore =>
      obtain ⟨n, rfl⟩ := Nat.exists_eq_add_of_lt enough
      have hstop : fields.fill depth (n + 1) _ slots _ = _ := Scan.bind_of_ok hmore
      rw [List.length_nil, Nat.zero_add, hstop, List.foldlM_nil]
      refine Scan.pure_eq_ok.trans ?_
      simp [eq_comm (a := slots)]
  | @turn _ _ _ _ _ m ms hmore hmember _ ih =>
      obtain ⟨n, rfl⟩ : ∃ k, n = k + 1 := ⟨n - 1, by omega⟩
      rw [List.length_cons] at enough
      rw [fill_of_turn agree distinct hmore hmember, List.foldlM_cons]
      constructor
      · rintro ⟨slots'', hput, hrest⟩
        rw [hput]
        exact (ih (by omega)).mp hrest
      · rintro ⟨hfold, rfl⟩
        obtain ⟨slots'', hput, hrest⟩ := Option.bind_eq_some_iff.mp hfold
        exact ⟨slots'', hput, (ih (by omega)).mpr ⟨hrest, rfl⟩⟩

theorem within_eq_ok {α : Type} {leave : List Char → List Char} {x : Scan α}
    {r : α × List Char} : Scan.within leave x s = .ok r ↔ x s = .ok r := by
  rw [Scan.within]
  split
  · next h => simp [h]
  · exact Iff.rfl

theorem scanObject_of_turns {fields : Fields αs} {ms : List (String × Json)} (agree : fields.Agree)
    (distinct : fields.keys.Nodup)
    (h : Scan.Turns Scan.moreMembers (Scan.member (Scan.value depth)) true s ms t) {row : Row αs} :
    fields.scanObject depth ('{' :: s) = .ok (row, u) ↔
      fields.ofMembers ms = some row ∧ u = t.tail := by
  have hlength := h.length_le Scan.length_le_of_moreMembers Scan.length_lt_of_member
  have hfill : ∀ {slots u}, fields.fill depth (s.length + 1) true (Slots.empty αs) s =
      .ok (slots, u) ↔ ms.foldlM fields.put (Slots.empty αs) = some slots ∧ u = t :=
    fill_of_turns agree distinct h (by omega)
  rw [scanObject, within_eq_ok, Scan.skipOne_bind, ofMembers_eq_foldlM]
  constructor
  · intro hscan
    obtain ⟨slots, _, hslots, hscan⟩ := Scan.bind_eq_ok.mp hscan
    obtain ⟨hfold, rfl⟩ := hfill.mp hslots
    rw [hfold]
    cases hcomplete : fields.complete slots with
    | error key =>
        rw [hcomplete] at hscan
        cases hscan
    | ok row' =>
        rw [hcomplete] at hscan
        obtain ⟨_, _, hskip, hscan⟩ := Scan.bind_eq_ok.mp hscan
        cases hskip
        obtain ⟨rfl, rfl⟩ := Prod.mk.inj (Scan.pure_eq_ok.mp hscan)
        exact ⟨by simp [hcomplete, Except.toOption], rfl⟩
  · rintro ⟨hmembers, rfl⟩
    obtain ⟨slots, hfold, hcomplete⟩ := Option.bind_eq_some_iff.mp hmembers
    have hslots := hfill.mpr ⟨hfold, rfl⟩
    refine (Scan.bind_of_ok
      (x := fun s => fields.fill depth (s.length + 1) true (Slots.empty αs) s) hslots).trans ?_
    cases hrow : fields.complete slots with
    | error key => simp [hrow, Except.toOption] at hcomplete
    | ok row' =>
        have heq : row' = row := by simpa [hrow, Except.toOption] using hcomplete
        subst heq
        exact Scan.bind_of_ok (x := Scan.skipOne) rfl

theorem closeArray_eq_ok : Scan.closeArray s = .ok ((), t) ↔ Scan.dropBlanks s = ']' :: t := by
  rw [Scan.closeArray]
  split
  · next hdrop => simp [hdrop, Scan.refuse]
  next c rest hdrop =>
    rw [hdrop, List.cons.injEq]
    split_ifs with hc hcomma htrailing
    · simp [hc]
    · simp [hc, Scan.refuseNext]
    · simp [hc, Scan.refuseNext]
    · simp [hc, Scan.refuseNext]

theorem closeArray_of_turns {α : Type} {item : Scan α} {isFirst : Bool} {as : List α}
    (h : Scan.Turns Scan.moreItems item isFirst s as t) :
    Scan.closeArray s = .ok ((), u) ↔ as = [] ∧ u = t.tail := by
  rw [closeArray_eq_ok, Scan.dropBlanks_of_turns_moreItems h]
  obtain ⟨rest, rfl⟩ := Scan.exists_bracket_of_turns h
  simp [eq_comm]

/-- Items and fields are walked side by side, and run out together. -/
theorem scanItems_of_turns {fields : Fields αs} {vs : List Json} (agree : fields.Agree)
    {short : Nat → Problem} {index : Nat}
    (h : Scan.Turns Scan.moreItems (Scan.value depth) (index = 0) s vs t) {row : Row αs} :
    (∃ w, fields.scanItems depth short index s = .ok (row, w) ∧ Scan.closeArray w = .ok ((), u)) ↔
      fields.ofItems vs = some row ∧ u = t.tail := by
  induction αs generalizing index s vs with
  | nil =>
      constructor
      · rintro ⟨w, hscan, hclose⟩
        obtain ⟨-, rfl⟩ := Prod.mk.inj (Scan.pure_eq_ok.mp hscan)
        obtain ⟨rfl, rfl⟩ := (closeArray_of_turns h).mp hclose
        exact ⟨rfl, rfl⟩
      · rintro ⟨hitems, rfl⟩
        cases vs with
        | nil => exact ⟨s, rfl, (closeArray_of_turns h).mpr ⟨rfl, rfl⟩⟩
        | cons v vs => cases hitems
  | cons α αs ih =>
      obtain ⟨field, fields⟩ := fields
      obtain ⟨hfield, hfields⟩ := agree
      obtain ⟨a, row⟩ := row
      cases h with
      | done hmore =>
          have hstop : @scanItems (α :: αs) (field, fields) depth short index s = _ :=
            Scan.bind_of_ok hmore
          rw [hstop]
          constructor
          · rintro ⟨_, hscan, _⟩
            cases hscan
          · rintro ⟨hitems, _⟩
            cases hitems
      | @turn _ _ s' t' _ v vs hmore hitem hrest =>
          have hnext : @scanItems (α :: αs) (field, fields) depth short index s = _ :=
            Scan.bind_of_ok hmore
          have hturns : Scan.Turns Scan.moreItems (Scan.value depth) (index + 1 = 0) t' vs t := by
            simpa using hrest
          have hcons : @ofItems (α :: αs) (field, fields) (v :: vs) = some (a, row) ↔
              field.reader.ofJson v = some a ∧ fields.ofItems vs = some row := ofItems_cons_eq_some
          rw [hnext]
          refine Iff.trans ?_ (and_congr_left' hcons.symm)
          constructor
          · rintro ⟨w, hscan, hclose⟩
            obtain ⟨b, _, hread, hscan⟩ := Scan.bind_eq_ok.mp hscan
            obtain ⟨hjson, rfl⟩ := (hfield hitem).mp hread
            obtain ⟨row', x, hscan', hlast⟩ := Scan.bind_eq_ok.mp hscan
            cases Scan.pure_eq_ok.mp hlast
            obtain ⟨hitems, rfl⟩ := (ih hfields hturns).mp ⟨w, hscan', hclose⟩
            exact ⟨⟨hjson, hitems⟩, rfl⟩
          · rintro ⟨⟨hjson, hitems⟩, rfl⟩
            obtain ⟨w, hscan, hclose⟩ := (ih hfields hturns).mpr ⟨hitems, rfl⟩
            have hread := (hfield hitem).mpr ⟨hjson, rfl⟩
            exact ⟨w, (Scan.bind_of_ok hread).trans ((Scan.bind_of_ok hscan).trans rfl), hclose⟩

theorem scanArray_of_turns {fields : Fields αs} {vs : List Json} (agree : fields.Agree)
    (name : String) (h : Scan.Turns Scan.moreItems (Scan.value depth) true s vs t) {row : Row αs} :
    fields.scanArray name depth ('[' :: s) = .ok (row, u) ↔
      fields.ofItems vs = some row ∧ u = t.tail := by
  have hall : (∃ w, fields.scanItems depth (.wrongLength · name αs.length) 0 s = .ok (row, w) ∧
      Scan.closeArray w = .ok ((), u)) ↔ fields.ofItems vs = some row ∧ u = t.tail :=
    scanItems_of_turns agree h
  rw [scanArray, within_eq_ok, Scan.skipOne_bind, ← hall]
  constructor
  · intro hscan
    obtain ⟨row', w, hitems, hscan⟩ := Scan.bind_eq_ok.mp hscan
    obtain ⟨_, _, hclose, hscan⟩ := Scan.bind_eq_ok.mp hscan
    obtain ⟨rfl, rfl⟩ := Prod.mk.inj (Scan.pure_eq_ok.mp hscan)
    exact ⟨w, hitems, hclose⟩
  · rintro ⟨w, hitems, hclose⟩
    exact (Scan.bind_of_ok hitems).trans (Scan.bind_of_ok hclose)

end Fields

namespace Reader

/-- Whatever a record is written as, it is read alike in both ways. -/
theorem agrees_record {αs : List Type} {β : Type} (name : String) {fields : Fields αs}
    (make : Row αs → β) (agree : fields.Agree) (distinct : fields.keys.Nodup) :
    (Reader.record name fields make).Agrees := by
  intro depth s v t h b u
  cases Scan.seen_of_value h with
  | scalar _ _ _ hfound hscalar =>
      have hrun : (Reader.record name fields make).ofText depth s = _ := Scan.bind_of_ok hfound
      rw [hrun]
      cases v with
      | null | bool | number => simp [Json.found, Reader.record, Scan.refuse]
      | string | array | object => cases hscalar
  | string hdrop hquoted =>
      have hfound := Scan.found_string hdrop hquoted
      have hrun : (Reader.record name fields make).ofText depth s = _ := Scan.bind_of_ok hfound
      rw [hrun]
      simp [Reader.record, Scan.refuse]
  | @array depth _ _ _ _ hdrop hturns =>
      have hrun : (Reader.record name fields make).ofText (depth + 1) s = _ :=
        Scan.bind_of_ok (Scan.found_array hdrop)
      rw [hrun]
      refine Scan.map_eq_ok.trans ?_
      simp only [Fields.scanArray_of_turns agree name hturns]
      exact exists_map_eq_some
  | @object depth _ _ _ _ hdrop hturns =>
      have hrun : (Reader.record name fields make).ofText (depth + 1) s = _ :=
        Scan.bind_of_ok (Scan.found_object hdrop)
      rw [hrun]
      refine Scan.map_eq_ok.trans ?_
      simp only [Fields.scanObject_of_turns agree distinct hturns]
      exact exists_map_eq_some

/-- A record that is written with its keys in order is read field by field. -/
theorem ofJson_record_zip {αs : List Type} {β : Type} (name : String) {fields : Fields αs}
    (make : Row αs → β) (distinct : fields.keys.Nodup) {vs : List Json}
    (hlength : vs.length = αs.length) :
    (Reader.record name fields make).ofJson (.object (fields.keys.zip vs)) =
      (fields.ofItems vs).map make :=
  congrArg (Option.map make) (Fields.ofMembers_zip distinct hlength)

/-- An object that is read as a record has all its keys. -/
theorem exists_mem_of_ofJson_record {αs : List Type} {β : Type} {name : String} {fields : Fields αs}
    {make : Row αs → β} {ms : List (String × Json)} {b : β}
    (h : (Reader.record name fields make).ofJson (.object ms) = some b) :
    ∀ key ∈ fields.keys, ∃ v, (key, v) ∈ ms := by
  obtain ⟨row, hrow, -⟩ := Option.map_eq_some_iff.mp h
  exact Fields.exists_mem_of_ofMembers hrow

end Reader
end LatencyProbe.Json
