import LatencyProbe.Proofs.Json.Documents

/-!
# What is skipped

Whatever `value` reads, `skip` passes over to the same place. The converse fails: skipped numbers
may be out of range and skipped strings may hold half a pair.

The two loops of a container differ in where they leave the blanks after a comma, and a character
written as a pair is skipped in two turns; otherwise turn answers turn.
-/

namespace LatencyProbe.Json.Scan

variable {s t : List Char} {depth n : Nat}

theorem someDigits_atEnd {atEnd : Problem} (atEnd' : Problem) {ds : List Char}
    (h : someDigits atEnd s = .ok (ds, t)) : someDigits atEnd' s = .ok (ds, t) := by
  unfold someDigits at h ⊢
  split at h
  · split at h <;> cases h
  · exact h

theorem wholeDigits_atEnd {atEnd : Problem} (atEnd' : Problem) {ds : List Char}
    (h : wholeDigits atEnd s = .ok (ds, t)) : wholeDigits atEnd' s = .ok (ds, t) := by
  unfold wholeDigits at h ⊢
  split at h
  · exact h
  · exact someDigits_atEnd atEnd' h

theorem fractionDigits_atEnd {atEnd : Problem} (atEnd' : Problem) {ds : List Char}
    (h : fractionDigits atEnd s = .ok (ds, t)) : fractionDigits atEnd' s = .ok (ds, t) := by
  unfold fractionDigits at h ⊢
  split at h
  · exact someDigits_atEnd atEnd' h
  · exact h

theorem exponentPart_atEnd {atEnd : Problem} (atEnd' : Problem) {e : Option Lexeme.Exponent}
    (h : exponentPart atEnd s = .ok (e, t)) : exponentPart atEnd' s = .ok (e, t) := by
  unfold exponentPart at h ⊢
  split at h
  · exact h
  next c rest =>
    split at h
    · next hc =>
      obtain ⟨e', he, rfl⟩ := map_eq_ok.mp h
      obtain ⟨negative, u, hsign, hdigits⟩ := bind_eq_ok.mp he
      obtain ⟨ds, v, hds, hlast⟩ := bind_eq_ok.mp hdigits
      have hds' := someDigits_atEnd atEnd' hds
      rw [if_pos hc]
      exact map_eq_ok.mpr ⟨e', (bind_of_ok hsign).trans ((bind_of_ok hds').trans hlast), rfl⟩
    · next hc =>
      rw [if_neg hc]
      exact h

/-- Which problem the end of the text would be does not matter to a number that is there. -/
theorem lexeme_atEnd {atEnd : Problem} (atEnd' : Problem) {l : Lexeme}
    (h : lexeme atEnd s = .ok (l, t)) : lexeme atEnd' s = .ok (l, t) := by
  obtain ⟨negative, u, hsign, h⟩ := bind_eq_ok.mp h
  obtain ⟨whole, v, hwhole, h⟩ := bind_eq_ok.mp h
  obtain ⟨fraction, w, hfraction, h⟩ := bind_eq_ok.mp h
  obtain ⟨exponent, x, hexponent, h⟩ := bind_eq_ok.mp h
  refine (bind_of_ok hsign).trans ?_
  refine (bind_of_ok (wholeDigits_atEnd atEnd' hwhole)).trans ?_
  refine (bind_of_ok (fractionDigits_atEnd atEnd' hfraction)).trans ?_
  exact (bind_of_ok (exponentPart_atEnd atEnd' hexponent)).trans h

theorem lexeme_of_number {m : Number} (h : number s = .ok (m, t)) :
    ∃ l, lexeme .invalidNumber s = .ok (l, t) := by
  obtain ⟨l, u, hl, hmatch⟩ := bind_eq_ok.mp h
  refine ⟨l, ?_⟩
  cases hm : l.toNumber with
  | error unread =>
      rw [hm] at hmatch
      cases hmatch
  | ok _ =>
      rw [hm] at hmatch
      cases pure_eq_ok.mp hmatch
      exact lexeme_atEnd _ hl

theorem turn_skipCharacter {c : Char} {rest : List Char} {units : List Unit} {isFirst : Bool}
    (hc : c ≠ '"') (hskip : skipCharacter (c :: rest) = .ok ((), s))
    (h : Turns moreCharacters skipCharacter false s units t) :
    Turns moreCharacters skipCharacter isFirst (c :: rest) (() :: units) t :=
  .turn (moreCharacters_eq_ok.mpr ⟨rfl, c, rest, rfl, by simpa using hc⟩) hskip h

theorem skipCharacter_unicode {digits : List Char} {code : Nat} (h : HexFour digits code)
    (rest : List Char) : skipCharacter ('\\' :: 'u' :: (digits ++ rest)) = .ok ((), rest) :=
  bind_of_ok (hexFour_eq_ok.mpr ⟨digits, rfl, h⟩)

/-- A character of a string is skipped in one turn, a pair in two. -/
theorem turns_skipCharacter {front : List Char} {c : Char} (hfront : CharacterText front c)
    {units : List Unit} (h : Turns moreCharacters skipCharacter false s units t) (isFirst : Bool) :
    ∃ units', units'.length ≤ front.length + units.length ∧
      Turns moreCharacters skipCharacter isFirst (front ++ s) units' t := by
  cases hfront with
  | plain hquote hbackslash hcontrol =>
      have hskip : skipCharacter (c :: s) = .ok ((), s) := by
        simp [skipCharacter, hbackslash, Nat.not_lt.mpr hcontrol]
      exact ⟨() :: units, by simp [Nat.add_comm], turn_skipCharacter hquote hskip h⟩
  | @short e d he =>
      have hu : e ≠ 'u' := by
        rintro rfl
        cases he
      have hskip : skipCharacter ('\\' :: e :: s) = .ok ((), s) := by
        simp [skipCharacter, skipEscape, hu, unescape?_eq_some.mpr he]
      refine ⟨() :: units, ?_, turn_skipCharacter (by decide) hskip h⟩
      simp only [List.length_cons, List.length_nil]
      omega
  | unicode hdigits _ _ =>
      refine ⟨() :: units, ?_, turn_skipCharacter (by decide) (skipCharacter_unicode hdigits s) h⟩
      simp only [List.length_cons]
      omega
  | @pair digits digits' _ _ hdigits _ hdigits' _ =>
      have hlast : Turns moreCharacters skipCharacter false ('\\' :: 'u' :: (digits' ++ s)) _ t :=
        turn_skipCharacter (by decide) (skipCharacter_unicode hdigits' s) h
      have hboth : Turns moreCharacters skipCharacter isFirst _ _ t :=
        turn_skipCharacter (by decide) (skipCharacter_unicode hdigits _) hlast
      refine ⟨() :: () :: units, ?_, by simpa using hboth⟩
      simp only [List.length_cons, List.length_append]
      omega

theorem turns_skipped {inside cs : List Char} (h : CharactersText inside cs) (isFirst : Bool)
    (rest : List Char) :
    ∃ units : List Unit, units.length ≤ inside.length ∧
      Turns moreCharacters skipCharacter isFirst (inside ++ '"' :: rest) units ('"' :: rest) := by
  induction h generalizing isFirst with
  | nil => exact ⟨[], Nat.le_refl _, .done (moreCharacters_eq_ok.mpr ⟨rfl, '"', rest, rfl, rfl⟩)⟩
  | @cons front text c cs hfront _ ih =>
      obtain ⟨units, hlength, hturns⟩ := ih false
      obtain ⟨units', hlength', hturns'⟩ := turns_skipCharacter hfront hturns isFirst
      refine ⟨units', ?_, by simpa using hturns'⟩
      rw [List.length_append]
      omega

theorem skipQuoted_of_quoted {string : String} (h : quoted ('"' :: s) = .ok (string, t)) :
    skipQuoted ('"' :: s) = .ok ((), t) := by
  obtain ⟨text, hs, htext⟩ := quoted_eq_ok h
  cases htext with
  | @quoted inside cs hinside =>
      obtain ⟨units, hlength, hturns⟩ := turns_skipped hinside true t
      have hs' : s = inside ++ '"' :: t := by simpa using hs
      have hitems : items moreCharacters skipCharacter s = .ok (units, '"' :: t) := by
        rw [hs']
        apply items_of_turns hturns
        rw [List.length_append]
        omega
      exact (bind_of_ok (enclosed_cons.mpr ⟨_, hitems, rfl⟩)).trans rfl

/-- How a skipped value is read, if containers are skipped as they should be. -/
theorem skipped_of_dispatch {array object : Scan Json} {array' object' : Scan Unit} {v : Json}
    (harray : ∀ inside, s = '[' :: inside → array s = .ok (v, t) → array' s = .ok ((), t))
    (hobject : ∀ inside, s = '{' :: inside → object s = .ok (v, t) → object' s = .ok ((), t))
    (h : Dispatch ⟨.null, .bool, .number <$> number, .string <$> quoted, array, object⟩ s v t) :
    Dispatch ⟨(), fun _ => (), do let _ ← lexeme .invalidNumber, skipQuoted, array', object'⟩
      s () t := by
  cases h with
  | null => exact .null
  | true => exact .true
  | false => exact .false
  | number hc h =>
      obtain ⟨m, hm, rfl⟩ := map_eq_ok.mp h
      obtain ⟨l, hl⟩ := lexeme_of_number hm
      exact .number hc ((bind_of_ok hl).trans rfl)
  | string h =>
      obtain ⟨string, hs, rfl⟩ := map_eq_ok.mp h
      exact .string (skipQuoted_of_quoted hs)
  | array h => exact .array (harray _ rfl h)
  | object h => exact .object (hobject _ rfl h)

/-- A scan passes over what another one reads from a text that is short enough. -/
def Skips (n : Nat) (item : Scan Json) (skipItem : Scan Unit) : Prop :=
  ∀ {s v t}, item s = .ok (v, t) → s.length < n → skipItem s = .ok ((), t)

theorem moreSkippedItems_of_moreItems {isFirst again : Bool}
    (h : moreItems isFirst s = .ok (again, t)) :
    ∃ blanks, Blanks blanks ∧ (blanks ++ t).length ≤ s.length ∧
      moreSkippedItems isFirst s = .ok (again, if again then blanks ++ t else t) := by
  cases again with
  | false =>
      obtain ⟨blanks, rest, hb, rfl, rfl⟩ := moreItems_eq_false.mp h
      refine ⟨blanks, hb, Nat.le_refl _, ?_⟩
      simp [moreSkippedItems, dropBlanks_append hb, show isBlank ']' = false from rfl]
  | true =>
      obtain ⟨lead, blanks, c, rest, hlead, hb, rfl, rfl, hblank, hc⟩ := moreItems_eq_true.mp h
      cases hlead with
      | first =>
          refine ⟨[], .nil, by simp, ?_⟩
          simp [moreSkippedItems, dropBlanks_append hb, hblank, hc]
      | later hb' =>
          refine ⟨blanks, hb, by simp only [List.length_append]; omega, ?_⟩
          simp [moreSkippedItems, dropBlanks_append hb', show isBlank ',' = false from rfl]

theorem moreSkippedMembers_of_moreMembers {isFirst again : Bool}
    (h : moreMembers isFirst s = .ok (again, t)) :
    moreSkippedMembers isFirst s = .ok (again, t) := by
  cases again with
  | false =>
      obtain ⟨blanks, rest, hb, rfl, rfl⟩ := moreMembers_eq_false.mp h
      simp [moreSkippedMembers, dropBlanks_append hb, show isBlank '}' = false from rfl]
  | true =>
      obtain ⟨lead, blanks, rest, hlead, hb, rfl, rfl⟩ := moreMembers_eq_true.mp h
      cases hlead with
      | first =>
          simp [moreSkippedMembers, skippedKey, dropBlanks_append hb,
            show isBlank '"' = false from rfl]
      | later hb' =>
          simp [moreSkippedMembers, skippedKey, dropBlanks_append hb, dropBlanks_append hb',
            show isBlank '"' = false from rfl, show isBlank ',' = false from rfl]

theorem turns_moreSkippedItems {skipItem : Scan Unit} (skips : Skips n (value depth) skipItem)
    {isFirst : Bool} {vs : List Json} (h : Turns moreItems (value depth) isFirst s vs t)
    (enough : s.length < n) :
    Turns moreSkippedItems skipItem isFirst s (vs.map fun _ => ()) t := by
  induction h with
  | done hmore =>
      obtain ⟨_, _, _, hmore'⟩ := moreSkippedItems_of_moreItems hmore
      exact .done hmore'
  | turn hmore hitem _ ih =>
      obtain ⟨blanks, hb, hle, hmore'⟩ := moreSkippedItems_of_moreItems hmore
      have hlt := length_lt_of_value hitem
      have hskip := skips ((value_blanks hb).trans hitem) (by omega)
      rw [List.length_append] at hle
      exact .turn hmore' hskip (ih (by omega))

theorem skipMember_of_member {skipItem : Scan Unit} (skips : Skips n (value depth) skipItem)
    {m : String × Json} (h : member (value depth) ('"' :: s) = .ok (m, t))
    (enough : ('"' :: s).length < n) : skipMember skipItem ('"' :: s) = .ok ((), t) := by
  obtain ⟨key, u, hquoted, h⟩ := bind_eq_ok.mp h
  obtain ⟨_, w, hcolon, h⟩ := bind_eq_ok.mp h
  obtain ⟨v, x, hvalue, h⟩ := bind_eq_ok.mp h
  cases pure_eq_ok.mp h
  obtain ⟨keyText, hs, -⟩ := quoted_eq_ok hquoted
  have hlt : w.length < n := by
    obtain ⟨blanks, _, rfl⟩ := colon_eq_ok.mp hcolon
    rw [hs] at enough
    simp only [List.length_append, List.length_cons] at enough
    omega
  refine (bind_of_ok (skipQuoted_of_quoted hquoted)).trans ?_
  exact (bind_of_ok hcolon).trans (skips hvalue hlt)

theorem turns_moreSkippedMembers {skipItem : Scan Unit} (skips : Skips n (value depth) skipItem)
    {isFirst : Bool} {ms : List (String × Json)}
    (h : Turns moreMembers (member (value depth)) isFirst s ms t) (enough : s.length < n) :
    Turns moreSkippedMembers (skipMember skipItem) isFirst s (ms.map fun _ => ()) t := by
  induction h with
  | done hmore => exact .done (moreSkippedMembers_of_moreMembers hmore)
  | turn hmore hitem _ ih =>
      have hle := length_le_of_moreMembers hmore
      have hlt := length_lt_of_member hmore hitem
      obtain ⟨_, _, _, _, _, _, rfl⟩ := moreMembers_eq_true.mp hmore
      have hskip := skipMember_of_member skips hitem (by omega)
      exact .turn (moreSkippedMembers_of_moreMembers hmore) hskip (ih (by omega))

theorem skipArray_of_array {skipItem : Scan Unit} (skips : Skips n (value depth) skipItem)
    {v : Json} (enough : s.length < n)
    (h : (Json.array <$> enclosed (items moreItems (value depth)) : Scan Json) ('[' :: s) =
      .ok (v, t)) :
    (do let _ ← enclosed (items moreSkippedItems skipItem) : Scan Unit) ('[' :: s) =
      .ok ((), t) := by
  obtain ⟨vs, hinside, rfl⟩ := map_eq_ok.mp h
  obtain ⟨u, hitems, rfl⟩ := enclosed_cons.mp hinside
  have hturns := turns_of_items hitems
  have hlength := hturns.length_le length_le_of_moreItems fun _ => length_lt_of_value
  have hskip := items_of_turns (turns_moreSkippedItems skips hturns enough)
    (by rw [List.length_map]; omega)
  exact (bind_of_ok (enclosed_cons.mpr ⟨u, hskip, rfl⟩)).trans rfl

theorem skipObject_of_object {skipItem : Scan Unit} (skips : Skips n (value depth) skipItem)
    {v : Json} (enough : s.length < n)
    (h : (Json.object <$> enclosed (items moreMembers (member (value depth))) : Scan Json)
      ('{' :: s) = .ok (v, t)) :
    (do let _ ← enclosed (items moreSkippedMembers (skipMember skipItem)) : Scan Unit)
      ('{' :: s) = .ok ((), t) := by
  obtain ⟨ms, hinside, rfl⟩ := map_eq_ok.mp h
  obtain ⟨u, hitems, rfl⟩ := enclosed_cons.mp hinside
  have hturns := turns_of_items hitems
  have hlength := hturns.length_le length_le_of_moreMembers length_lt_of_member
  have hskip := items_of_turns (turns_moreSkippedMembers skips hturns enough)
    (by rw [List.length_map]; omega)
  exact (bind_of_ok (enclosed_cons.mpr ⟨u, hskip, rfl⟩)).trans rfl

/-- The induction is on the depth that is left: what is inside a container is shorter than it. -/
theorem skips_value (depth n : Nat) : Skips n (value depth) (skipWithin n) := by
  induction depth generalizing n with
  | zero =>
      intro s v t h enough
      obtain ⟨n, rfl⟩ := Nat.exists_eq_add_of_lt enough
      obtain ⟨blanks, u, hb, hs, hu⟩ := Kinds.scan_eq_ok.mp h
      refine Kinds.scan_eq_ok.mpr ⟨blanks, u, hb, hs, ?_⟩
      exact skipped_of_dispatch (fun _ _ (h : refuseNext _ _ = _) => by cases h)
        (fun _ _ (h : refuseNext _ _ = _) => by cases h) hu
  | succ depth ih =>
      intro s v t h enough
      obtain ⟨n, rfl⟩ : ∃ k, n = k + 1 := ⟨n - 1, by omega⟩
      obtain ⟨blanks, u, hb, rfl, hu⟩ := Kinds.scan_eq_ok.mp h
      refine Kinds.scan_eq_ok.mpr ⟨blanks, u, hb, rfl, skipped_of_dispatch ?_ ?_ hu⟩
      all_goals
        rintro inside rfl hcontainer
        simp only [List.length_append, List.length_cons] at enough
      · exact skipArray_of_array (ih n) (by omega) hcontainer
      · exact skipObject_of_object (ih n) (by omega) hcontainer

/-- Whatever is read as a value can be skipped. -/
theorem skip_of_value {v : Json} (h : value depth s = .ok (v, t)) : skip s = .ok ((), t) :=
  skips_value depth _ h (Nat.lt_succ_self _)

end LatencyProbe.Json.Scan
