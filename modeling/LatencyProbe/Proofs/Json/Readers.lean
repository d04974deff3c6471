import LatencyProbe.Json.Record
import LatencyProbe.Proofs.Json.Skipping

/-!
# The two ways of reading agree

A reader that agrees with itself gets the same out of a text as out of the value that the text is
of, and accepts the text exactly if it accepts the value. `Seen` says once what a reader can meet at
the front of such a text: something that is read whole, or a container of which the turns are known.

Of two readers in turn it follows that they do on a document what each does there by itself, though
together they read the value first and separately they may not.
-/

namespace LatencyProbe.Json

/-- Neither a string nor a container. -/
def isScalar : Json → Bool
  | .null | .bool _ | .number _ => true
  | _ => false

namespace Scan

variable {α : Type} {s t : List Char} {depth : Nat}

/-- What a reader sees of a value at the front of a text. Strings and containers are known by the
first character. -/
inductive Seen : Nat → List Char → Json → List Char → Prop
  | scalar {depth s v t c rest} : dropBlanks s = c :: rest → c ≠ '"' → c ≠ '{' →
      found s = .ok (v.found, t) → v.isScalar → Seen depth s v t
  | string {depth s inside string t} : dropBlanks s = '"' :: inside →
      quoted ('"' :: inside) = .ok (string, t) → Seen depth s (.string string) t
  | array {depth s inside vs u} : dropBlanks s = '[' :: inside →
      Turns moreItems (value depth) true inside vs u → Seen (depth + 1) s (.array vs) u.tail
  | object {depth s inside ms u} : dropBlanks s = '{' :: inside →
      Turns moreMembers (member (value depth)) true inside ms u →
      Seen (depth + 1) s (.object ms) u.tail

/-- Whatever the containers are read by, the rest is seen as it is. -/
theorem seen_of_dispatch {array object : Scan Json} {blanks : List Char} {v : Json}
    (hb : Blanks blanks)
    (harray : ∀ inside, s = '[' :: inside → array s = .ok (v, t) → Seen depth (blanks ++ s) v t)
    (hobject : ∀ inside, s = '{' :: inside → object s = .ok (v, t) → Seen depth (blanks ++ s) v t)
    (h : Dispatch ⟨.null, .bool, .number <$> number, .string <$> quoted, array, object⟩ s v t) :
    Seen depth (blanks ++ s) v t := by
  have hdrop := dropBlanks_append hb s
  cases h with
  | null =>
      exact .scalar hdrop (by decide) (by decide)
        (Kinds.scan_eq_ok.mpr ⟨blanks, _, hb, rfl, .null⟩) rfl
  | true =>
      exact .scalar hdrop (by decide) (by decide)
        (Kinds.scan_eq_ok.mpr ⟨blanks, _, hb, rfl, .true⟩) rfl
  | false =>
      exact .scalar hdrop (by decide) (by decide)
        (Kinds.scan_eq_ok.mpr ⟨blanks, _, hb, rfl, .false⟩) rfl
  | number hc h =>
      obtain ⟨n, hn, rfl⟩ := map_eq_ok.mp h
      obtain ⟨hblank, -, -, -, hquote, -, hbrace⟩ := ne_of_startsNumber hc
      have hfound := (map_eq_ok (f := Found.number)).mpr ⟨n, hn, rfl⟩
      exact .scalar (hdrop.trans (dropBlanks_cons hblank)) hquote hbrace
        (Kinds.scan_eq_ok.mpr ⟨blanks, _, hb, rfl, .number hc hfound⟩) rfl
  | string h =>
      obtain ⟨string, hs, rfl⟩ := map_eq_ok.mp h
      exact .string hdrop hs
  | array h => exact harray _ rfl h
  | object h => exact hobject _ rfl h

theorem seen_of_value {v : Json} (h : value depth s = .ok (v, t)) : Seen depth s v t := by
  cases depth with
  | zero =>
      obtain ⟨blanks, u, hb, rfl, hu⟩ := Kinds.scan_eq_ok.mp h
      exact seen_of_dispatch hb (fun _ _ (h : refuseNext _ _ = _) => by cases h)
        (fun _ _ (h : refuseNext _ _ = _) => by cases h) hu
  | succ depth =>
      obtain ⟨blanks, u, hb, rfl, hu⟩ := Kinds.scan_eq_ok.mp h
      have hdrop := dropBlanks_append hb u
      refine seen_of_dispatch hb ?_ ?_ hu
      · rintro inside rfl harray
        obtain ⟨vs, hinside, rfl⟩ := map_eq_ok.mp harray
        obtain ⟨u, hitems, rfl⟩ := enclosed_cons.mp hinside
        exact .array hdrop (turns_of_items hitems)
      · rintro inside rfl hobject
        obtain ⟨ms, hinside, rfl⟩ := map_eq_ok.mp hobject
        obtain ⟨u, hitems, rfl⟩ := enclosed_cons.mp hinside
        exact .object hdrop (turns_of_items hitems)

theorem found_string {inside : List Char} {string : String} (hdrop : dropBlanks s = '"' :: inside)
    (h : quoted ('"' :: inside) = .ok (string, t)) : found s = .ok (.string string, t) := by
  obtain ⟨blanks, hb, rfl, -⟩ := dropBlanks_eq_cons.mp hdrop
  have hfound := (map_eq_ok (f := Found.string)).mpr ⟨string, h, rfl⟩
  exact Kinds.scan_eq_ok.mpr ⟨blanks, _, hb, rfl, .string hfound⟩

theorem found_array {inside : List Char} (hdrop : dropBlanks s = '[' :: inside) :
    found s = .ok (.array, '[' :: inside) := by
  obtain ⟨blanks, hb, rfl, -⟩ := dropBlanks_eq_cons.mp hdrop
  exact Kinds.scan_eq_ok.mpr ⟨blanks, _, hb, rfl, .array rfl⟩

theorem found_object {inside : List Char} (hdrop : dropBlanks s = '{' :: inside) :
    found s = .ok (.object, '{' :: inside) := by
  obtain ⟨blanks, hb, rfl, -⟩ := dropBlanks_eq_cons.mp hdrop
  exact Kinds.scan_eq_ok.mpr ⟨blanks, _, hb, rfl, .object rfl⟩

theorem exists_bracket_of_turns {item : Scan α} {isFirst : Bool} {as : List α}
    (h : Turns moreItems item isFirst s as t) : ∃ rest, t = ']' :: rest := by
  induction h with
  | done hmore =>
      obtain ⟨_, rest, _, _, rfl⟩ := moreItems_eq_false.mp hmore
      exact ⟨rest, rfl⟩
  | turn _ _ _ ih => exact ih

theorem exists_brace_of_turns {item : Scan α} {isFirst : Bool} {as : List α}
    (h : Turns moreMembers item isFirst s as t) : ∃ rest, t = '}' :: rest := by
  induction h with
  | done hmore =>
      obtain ⟨_, rest, _, _, rfl⟩ := moreMembers_eq_false.mp hmore
      exact ⟨rest, rfl⟩
  | turn _ _ _ ih => exact ih

/-- The closing bracket comes next exactly if there are no more turns. -/
theorem dropBlanks_of_turns_moreItems {item : Scan α} {isFirst : Bool} {as : List α}
    (h : Turns moreItems item isFirst s as t) {rest : List Char} :
    dropBlanks s = ']' :: rest ↔ as = [] ∧ t = ']' :: rest := by
  cases h with
  | done hmore =>
      obtain ⟨blanks, inside, hb, rfl, rfl⟩ := moreItems_eq_false.mp hmore
      rw [dropBlanks_append hb, dropBlanks_cons rfl]
      exact ⟨fun h => ⟨rfl, h⟩, fun h => h.2⟩
  | turn hmore _ _ =>
      obtain ⟨lead, blanks, c, inside, hlead, hb, rfl, rfl, hblank, hc⟩ :=
        moreItems_eq_true.mp hmore
      cases hlead with
      | first => simp [dropBlanks_append hb, hblank, hc]
      | later hb' => simp [dropBlanks_append hb', show isBlank ',' = false from rfl]

theorem dropBlanks_of_turns_moreMembers {item : Scan α} {isFirst : Bool} {as : List α}
    (h : Turns moreMembers item isFirst s as t) {rest : List Char} :
    dropBlanks s = '}' :: rest ↔ as = [] ∧ t = '}' :: rest := by
  cases h with
  | done hmore =>
      obtain ⟨blanks, inside, hb, rfl, rfl⟩ := moreMembers_eq_false.mp hmore
      rw [dropBlanks_append hb, dropBlanks_cons rfl]
      exact ⟨fun h => ⟨rfl, h⟩, fun h => h.2⟩
  | turn hmore _ _ =>
      obtain ⟨lead, blanks, inside, hlead, hb, rfl, rfl⟩ := moreMembers_eq_true.mp hmore
      cases hlead with
      | first => simp [dropBlanks_append hb, show isBlank '"' = false from rfl]
      | later hb' => simp [dropBlanks_append hb', show isBlank ',' = false from rfl]

theorem judged_eq_ok {judge : Found → Except Problem α} {f : Found} {u : List Char} {a : α}
    (h : found s = .ok (f, t)) : judged judge s = .ok (a, u) ↔ judge f = .ok a ∧ u = t := by
  have hrun : judged judge s = _ := bind_of_ok h
  rw [hrun]
  cases judge f with
  | ok b =>
      rw [pure_eq_ok, Prod.mk.injEq, Except.ok.injEq, eq_comm (a := a)]
  | error problem => simp [refuse]

end Scan

namespace Reader

variable {α β : Type} {s t u : List Char}

/-- From the text of a value a reader gets what it gets out of the value, and stops after it. -/
def Agrees (reader : Reader α) : Prop :=
  ∀ ⦃depth s v t⦄, Scan.value depth s = .ok (v, t) →
    ∀ {a u}, reader.ofText depth s = .ok (a, u) ↔ reader.ofJson v = some a ∧ u = t

theorem agrees_ofJudge {judge : Found → Except Problem α} (harray : ∀ a, judge .array ≠ .ok a)
    (hobject : ∀ a, judge .object ≠ .ok a) : (ofJudge judge).Agrees := by
  intro depth s v t h a u
  have hoption : (ofJudge judge).ofJson v = some a ↔ judge v.found = .ok a := by
    change (judge v.found).toOption = some a ↔ _
    cases judge v.found <;> simp [Except.toOption]
  rw [hoption]
  cases Scan.seen_of_value h with
  | scalar _ _ _ hfound _ => exact Scan.judged_eq_ok hfound
  | string hdrop hquoted => exact Scan.judged_eq_ok (Scan.found_string hdrop hquoted)
  | array hdrop _ =>
      refine (Scan.judged_eq_ok (Scan.found_array hdrop)).trans ?_
      exact ⟨fun h => (harray a h.1).elim, fun h => (harray a h.1).elim⟩
  | object hdrop _ =>
      refine (Scan.judged_eq_ok (Scan.found_object hdrop)).trans ?_
      exact ⟨fun h => (hobject a h.1).elim, fun h => (hobject a h.1).elim⟩

theorem agrees_word : word.Agrees := agrees_ofJudge nofun nofun

theorem agrees_int64 : int64.Agrees := agrees_ofJudge nofun nofun

theorem agrees_double : double.Agrees := agrees_ofJudge nofun nofun

theorem agrees_text : text.Agrees := agrees_ofJudge nofun nofun

theorem variantName_eq_ok {known : List (String × α)} {a : α} :
    variantName known s = .ok (a, t) ↔
      ∃ name, Scan.quoted s = .ok (name, t) ∧ known.lookup name = some a := by
  constructor
  · intro h
    obtain ⟨name, u, hquoted, hmatch⟩ := Scan.bind_eq_ok.mp h
    cases hknown : known.lookup name with
    | some b =>
        rw [hknown] at hmatch
        cases Scan.pure_eq_ok.mp hmatch
        exact ⟨name, hquoted, hknown⟩
    | none =>
        rw [hknown] at hmatch
        cases hmatch
  · rintro ⟨name, hquoted, hknown⟩
    refine (Scan.bind_of_ok hquoted).trans ?_
    rw [hknown]
    rfl

theorem ofJson_unit {v : Json} : (ofJudge Judge.unit).ofJson v = some () ↔ v = .null := by
  cases v <;> simp [ofJudge, Json.found, Judge.unit, Except.toOption]

/-- What `variantBody` takes off, part by part. After the null only the brace may follow. -/
theorem variantBody_eq_ok {known : List (String × α)} {a : α} :
    variantBody known ('{' :: s) = .ok (a, t) ↔
      ∃ w x y z, Scan.moreMembers true s = .ok (true, w) ∧ variantName known w = .ok (a, x) ∧
        Scan.colon x = .ok ((), y) ∧ Scan.judged Judge.unit y = .ok ((), z) ∧
        Scan.dropBlanks z = '}' :: t := by
  rw [variantBody, Scan.skipOne_bind]
  constructor
  · intro h
    obtain ⟨again, w, hmore, h⟩ := Scan.bind_eq_ok.mp h
    cases again with
    | false => cases h
    | true =>
        obtain ⟨b, x, hname, h⟩ := Scan.bind_eq_ok.mp h
        obtain ⟨_, y, hcolon, h⟩ := Scan.bind_eq_ok.mp h
        obtain ⟨_, z, hunit, h⟩ := Scan.bind_eq_ok.mp h
        refine ⟨w, x, y, z, hmore, ?_⟩
        split at h
        · cases h
        next c rest hdrop =>
          split at h
          · next hc =>
            cases h
            exact ⟨hname, hcolon, hunit, hc ▸ hdrop⟩
          · cases h
  · rintro ⟨w, x, y, z, hmore, hname, hcolon, hunit, hdrop⟩
    refine (Scan.bind_of_ok hmore).trans ?_
    refine (Scan.bind_of_ok hname).trans ((Scan.bind_of_ok hcolon).trans ?_)
    refine (Scan.bind_of_ok hunit).trans ?_
    simp [hdrop]

theorem variantBody_of_turns {known : List (String × α)} {a : α} {ms : List (String × Json)}
    {depth : Nat} (h : Scan.Turns Scan.moreMembers (Scan.member (Scan.value depth)) true s ms t) :
    variantBody known ('{' :: s) = .ok (a, u) ↔
      (∃ name, ms = [(name, .null)] ∧ known.lookup name = some a) ∧ u = t.tail := by
  rw [variantBody_eq_ok]
  cases h with
  | done hmore => simp [hmore]
  | @turn _ _ w z _ _ ms hmore hmember hrest =>
      obtain ⟨name, x, hquoted, hmember⟩ := Scan.bind_eq_ok.mp hmember
      obtain ⟨_, y, hcolon, hmember⟩ := Scan.bind_eq_ok.mp hmember
      obtain ⟨v, z', hvalue, hmember⟩ := Scan.bind_eq_ok.mp hmember
      obtain ⟨rfl, rfl⟩ := Prod.mk.inj (Scan.pure_eq_ok.mp hmember)
      have hunit : ∀ {z'}, Scan.judged Judge.unit y = .ok ((), z') ↔
          (ofJudge Judge.unit).ofJson v = some () ∧ z' = z :=
        agrees_ofJudge nofun nofun hvalue
      have hclose : ∀ {rest}, Scan.dropBlanks z = '}' :: rest ↔ ms = [] ∧ t = '}' :: rest :=
        Scan.dropBlanks_of_turns_moreMembers hrest
      constructor
      · rintro ⟨w', x', y', z', hmore', hname, hcolon', hunit', hdrop⟩
        cases hmore.symm.trans hmore'
        obtain ⟨name', hquoted', hknown⟩ := variantName_eq_ok.mp hname
        cases hquoted.symm.trans hquoted'
        cases hcolon.symm.trans hcolon'
        obtain ⟨hnull, rfl⟩ := hunit.mp hunit'
        obtain ⟨rfl, rfl⟩ := hclose.mp hdrop
        rw [ofJson_unit.mp hnull]
        exact ⟨⟨name, rfl, hknown⟩, rfl⟩
      · rintro ⟨⟨name', heq, hknown⟩, rfl⟩
        cases heq
        obtain ⟨rest, rfl⟩ := Scan.exists_brace_of_turns hrest
        exact ⟨w, x, y, z, hmore, variantName_eq_ok.mpr ⟨name, hquoted, hknown⟩, hcolon,
          hunit.mpr ⟨rfl, rfl⟩, hclose.mpr ⟨rfl, rfl⟩⟩

theorem agrees_variant (known : List (String × α)) : (variant known).Agrees := by
  intro depth s v t h a u
  cases Scan.seen_of_value h with
  | scalar hdrop hquote hbrace _ hscalar =>
      have hnone : (variant known).ofJson v = none := by
        cases v with
        | null | bool | number => rfl
        | string | array | object => cases hscalar
      rw [hnone]
      simp [variant, hdrop, hquote, hbrace, Scan.refuseNext]
  | string hdrop hquoted =>
      simp only [variant, hdrop]
      refine variantName_eq_ok.trans ?_
      simp [hquoted, eq_comm, and_comm]
  | array hdrop _ => simp [variant, hdrop, Scan.refuseNext]
  | object hdrop hturns =>
      simp only [variant, hdrop]
      refine (variantBody_of_turns hturns).trans (and_congr_left fun _ => ?_)
      constructor
      · rintro ⟨name, rfl, hknown⟩
        exact hknown
      · intro hknown
        split at hknown
        · next heq => cases heq
        · next name heq =>
          cases heq
          exact ⟨name, rfl, hknown⟩
        · cases hknown

theorem exists_map_eq_some {x : Option α} {f : α → β} {b : β} {p : Prop} :
    (∃ a, (x = some a ∧ p) ∧ f a = b) ↔ f <$> x = some b ∧ p := by
  cases x with
  | none => simp
  | some a => simp [and_comm]

theorem agrees_map {reader : Reader α} (agrees : reader.Agrees) (f : α → β) :
    (reader.map f).Agrees := by
  intro depth s v t h b u
  change (f <$> reader.ofText depth) s = .ok (b, u) ↔ f <$> reader.ofJson v = some b ∧ u = t
  rw [Scan.map_eq_ok]
  simp only [agrees h]
  exact exists_map_eq_some

/-- A reader that reads the value first needs nothing of the two that it tries. -/
theorem agrees_firstOf (name : String) (first second : Reader α) :
    (firstOf name first second).Agrees := by
  intro depth s v t h a u
  have hrun : (firstOf name first second).ofText depth s = _ := Scan.bind_of_ok h
  rw [hrun]
  change _ ↔ (first.ofJson v <|> second.ofJson v) = some a ∧ u = t
  cases (first.ofJson v <|> second.ofJson v) with
  | some b => rw [Scan.pure_eq_ok, Prod.mk.injEq, Option.some.injEq, eq_comm (a := a)]
  | none => simp [Scan.refuseWhole]

/-- A document of a value is read as what the reader gets out of the value. -/
theorem document_eq_ok {reader : Reader α} (agrees : reader.Agrees) {text : List Char} {raw : Json}
    (h : Document text raw) {a : α} :
    reader.document text = .ok a ↔ reader.ofJson raw = some a := by
  have hraw := parseRaw_eq_ok.mpr h
  rw [parseRaw, Scan.onDocument_eq_ok] at hraw
  obtain ⟨t, hvalue, hb⟩ := hraw
  rw [document, Scan.onDocument_eq_ok]
  constructor
  · rintro ⟨u, hread, -⟩
    exact ((agrees hvalue).mp hread).1
  · intro hread
    exact ⟨t, (agrees hvalue).mpr ⟨hread, rfl⟩, hb⟩

theorem exists_document_eq_error {reader : Reader α} (agrees : reader.Agrees) {text : List Char}
    {raw : Json} (h : Document text raw) :
    (∃ error, reader.document text = .error error) ↔ reader.ofJson raw = none := by
  rw [Option.eq_none_iff_forall_ne_some]
  simp only [ne_eq, ← document_eq_ok agrees h]
  cases reader.document text <;> simp

theorem document_map (reader : Reader α) (f : α → β) (text : List Char) :
    (reader.map f).document text = f <$> reader.document text :=
  Scan.onDocument_map (reader.ofText maxDepth) f

variable {name : String} {first second : Reader α} {text : List Char} {raw : Json}

/-- What the first of two readers refuses is left to the second. -/
theorem document_firstOf_eq_ok (hfirst : first.Agrees) (hsecond : second.Agrees)
    (h : Document text raw) {a : α} :
    (firstOf name first second).document text = .ok a ↔ first.document text = .ok a ∨
      (∃ error, first.document text = .error error) ∧ second.document text = .ok a := by
  rw [document_eq_ok (agrees_firstOf name first second) h, document_eq_ok hfirst h,
    document_eq_ok hsecond h, exists_document_eq_error hfirst h]
  change (first.ofJson raw <|> second.ofJson raw) = some a ↔ _
  cases first.ofJson raw <;> simp

theorem document_firstOf_of_eq_none (h : Document text raw) (hfirst : first.ofJson raw = none)
    (hsecond : second.ofJson raw = none) :
    (firstOf name first second).document text = .error ⟨.noVariant name, none⟩ := by
  obtain ⟨t, hvalue, -⟩ := Scan.onDocument_eq_ok.mp (parseRaw_eq_ok.mpr h)
  have hrun : (firstOf name first second).ofText maxDepth text = _ := Scan.bind_of_ok hvalue
  rw [hfirst, hsecond] at hrun
  exact Scan.onDocument_of_unplaced hrun

/-- What both readers refuse is refused for neither of their reasons, and at no place. -/
theorem document_firstOf_eq_error (hfirst : first.Agrees) (hsecond : second.Agrees)
    (h : Document text raw) {error : Error} :
    (firstOf name first second).document text = .error error ↔
      (∃ error, first.document text = .error error) ∧
        (∃ error, second.document text = .error error) ∧ error = ⟨.noVariant name, none⟩ := by
  rw [exists_document_eq_error hfirst h, exists_document_eq_error hsecond h]
  constructor
  · intro herror
    have hraw : (first.ofJson raw <|> second.ofJson raw) = none :=
      (exists_document_eq_error (agrees_firstOf name first second) h).mp ⟨error, herror⟩
    obtain ⟨hnone, hnone'⟩ : first.ofJson raw = none ∧ second.ofJson raw = none := by
      simpa using hraw
    rw [document_firstOf_of_eq_none h hnone hnone'] at herror
    exact ⟨hnone, hnone', (Except.error.inj herror).symm⟩
  · rintro ⟨hnone, hnone', rfl⟩
    exact document_firstOf_of_eq_none h hnone hnone'

end Reader
end LatencyProbe.Json
