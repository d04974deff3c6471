import LatencyProbe.Proofs.Json.Grammar
import Mathlib.Data.List.Basic

/-!
# What a scan takes off

For each small scan an equivalence says which texts it accepts and what it leaves of them. Later
proofs use these and open no scan again.

The loop `items` carries a bound on its turns, which is never reached: `Turns` is the loop without
the bound. What comes before an item is a `Lead`: nothing before the first, a comma before the
others. `Dispatch` says which of the scans for the kinds of values gets the text.
-/

namespace LatencyProbe.Json

namespace Blanks

theorem nil : Blanks [] := by
  intro c hc
  cases hc

theorem cons {c : Char} {text : List Char} (hc : Scan.isBlank c) (h : Blanks text) :
    Blanks (c :: text) := by
  intro d hd
  cases hd with
  | head => exact hc
  | tail _ hd => exact h d hd

theorem append {front text : List Char} (hf : Blanks front) (h : Blanks text) :
    Blanks (front ++ text) := by
  intro c hc
  exact (List.mem_append.mp hc).elim (hf c) (h c)

end Blanks

namespace Scan

variable {α β : Type} {s t : List Char}

theorem bind_of_ok {x : Scan α} {f : α → Scan β} {a : α} (h : x s = .ok (a, t)) :
    (x >>= f) s = f a t := by
  change (x s >>= fun p => f p.1 p.2) = _
  rw [h]
  rfl

theorem bind_of_error {x : Scan α} {f : α → Scan β} {fault : Fault} (h : x s = .error fault) :
    (x >>= f) s = .error fault := by
  change (x s >>= fun p => f p.1 p.2) = _
  rw [h]
  rfl

theorem skipOne_bind {f : Unit → Scan β} {c : Char} : (skipOne >>= f) (c :: s) = f () s := rfl

theorem map_eq_ok {x : Scan α} {f : α → β} {b : β} :
    (f <$> x) s = .ok (b, t) ↔ ∃ a, x s = .ok (a, t) ∧ f a = b := by
  rw [map_eq_pure_bind, bind_eq_ok]
  constructor
  · rintro ⟨a, u, hx, h⟩
    cases pure_eq_ok.mp h
    exact ⟨a, hx, rfl⟩
  · rintro ⟨a, hx, rfl⟩
    exact ⟨a, t, hx, rfl⟩

theorem dropBlanks_append {blanks : List Char} (h : Blanks blanks) (s : List Char) :
    dropBlanks (blanks ++ s) = dropBlanks s := by
  induction blanks with
  | nil => rfl
  | cons c blanks ih =>
      have hc : isBlank c := h c (List.mem_cons_self ..)
      have hrest := ih fun d hd => h d (List.mem_cons_of_mem c hd)
      simpa [dropBlanks, hc] using hrest

@[simp] theorem dropBlanks_cons {c : Char} (h : isBlank c = false) :
    dropBlanks (c :: s) = c :: s := by
  simp [dropBlanks, h]

theorem dropBlanks_blanks {blanks : List Char} (h : Blanks blanks) : dropBlanks blanks = [] := by
  simpa [dropBlanks] using dropBlanks_append h []

/-- What is dropped is blank. -/
theorem exists_blanks (s : List Char) : ∃ blanks, Blanks blanks ∧ s = blanks ++ dropBlanks s := by
  refine ⟨s.takeWhile isBlank, ?_, List.takeWhile_append_dropWhile.symm⟩
  intro c hc
  exact List.all_eq_true.mp List.all_takeWhile c hc

theorem dropBlanks_eq_cons {c : Char} :
    dropBlanks s = c :: t ↔ ∃ blanks, Blanks blanks ∧ s = blanks ++ c :: t ∧ isBlank c = false := by
  constructor
  · intro h
    obtain ⟨blanks, hb, hs⟩ := exists_blanks s
    have hc := List.head?_dropWhile_not isBlank s
    rw [show s.dropWhile isBlank = c :: t from h] at hc
    exact ⟨blanks, hb, h ▸ hs, by simpa using hc⟩
  · rintro ⟨blanks, hb, rfl, hc⟩
    rw [dropBlanks_append hb, dropBlanks_cons hc]

theorem dropBlanks_eq_nil : dropBlanks s = [] ↔ Blanks s := by
  constructor
  · intro h
    obtain ⟨blanks, hb, hs⟩ := exists_blanks s
    rw [hs, h, List.append_nil]
    exact hb
  · exact dropBlanks_blanks

theorem literal_eq_ok {cs : List Char} : literal cs s = .ok ((), t) ↔ s = cs ++ t := by
  induction cs generalizing s with
  | nil =>
      rw [literal, pure_eq_ok, Prod.mk.injEq]
      exact ⟨fun h => h.2.symm, fun h => ⟨rfl, h.symm⟩⟩
  | cons c cs ih =>
      cases s with
      | nil => simp [literal, refuse]
      | cons d rest =>
          by_cases h : d = c
          · simp [literal, h, ih]
          · simp [literal, h, refuseNext]

theorem colon_eq_ok :
    colon s = .ok ((), t) ↔ ∃ blanks, Blanks blanks ∧ s = blanks ++ ':' :: t := by
  constructor
  · intro h
    rw [colon] at h
    split at h
    · cases h
    next c rest hs =>
      split at h
      · next hc =>
        cases h
        obtain ⟨blanks, hb, hs, -⟩ := dropBlanks_eq_cons.mp hs
        exact ⟨blanks, hb, hc ▸ hs⟩
      · cases h
  · rintro ⟨blanks, hb, rfl⟩
    simp [colon, dropBlanks_append hb, show isBlank ':' = false from rfl]

/-- The turns of a loop: what it takes for its items, and what it leaves. -/
inductive Turns (more : Bool → Scan Bool) (item : Scan α) :
    Bool → List Char → List α → List Char → Prop
  | done {isFirst s t} : more isFirst s = .ok (false, t) → Turns more item isFirst s [] t
  | turn {isFirst s s' t u a as} : more isFirst s = .ok (true, s') → item s' = .ok (a, t) →
      Turns more item false t as u → Turns more item isFirst s (a :: as) u

variable {more : Bool → Scan Bool} {item : Scan α}

theorem turns_of_itemsUpTo {n : Nat} {isFirst : Bool} {as : List α}
    (h : itemsUpTo more item n isFirst s = .ok (as, t)) : Turns more item isFirst s as t := by
  induction n generalizing isFirst s as with
  | zero => cases h
  | succ n ih =>
      obtain ⟨again, s', hmore, h⟩ := bind_eq_ok.mp h
      cases again with
      | false =>
          cases pure_eq_ok.mp h
          exact .done hmore
      | true =>
          obtain ⟨a, u, hitem, h⟩ := bind_eq_ok.mp h
          obtain ⟨as', u', hrest, h⟩ := bind_eq_ok.mp h
          cases pure_eq_ok.mp h
          exact .turn hmore hitem (ih hrest)

theorem itemsUpTo_of_turns {isFirst : Bool} {as : List α} (h : Turns more item isFirst s as t)
    {n : Nat} (enough : as.length < n) : itemsUpTo more item n isFirst s = .ok (as, t) := by
  induction h generalizing n with
  | done hmore =>
      obtain ⟨n, rfl⟩ := Nat.exists_eq_add_of_lt enough
      exact bind_of_ok hmore
  | turn hmore hitem _ ih =>
      obtain ⟨n, rfl⟩ : ∃ k, n = k + 1 := ⟨n - 1, by omega⟩
      rw [List.length_cons] at enough
      exact (bind_of_ok hmore).trans ((bind_of_ok hitem).trans (bind_of_ok (ih (by omega))))

/-- Every turn shortens the text, so a text has no more turns than characters. -/
theorem Turns.length_le {isFirst : Bool} {as : List α} (h : Turns more item isFirst s as t)
    (moreLe : ∀ {isFirst s again t}, more isFirst s = .ok (again, t) → t.length ≤ s.length)
    (itemLt : ∀ {isFirst s s' a t}, more isFirst s = .ok (true, s') → item s' = .ok (a, t) →
      t.length < s'.length) :
    as.length + t.length ≤ s.length := by
  induction h with
  | done hmore => simpa using moreLe hmore
  | turn hmore hitem _ ih =>
      have := moreLe hmore
      have := itemLt hmore hitem
      rw [List.length_cons]
      omega

theorem items_of_turns {as : List α} (h : Turns more item true s as t)
    (enough : as.length ≤ s.length) : items more item s = .ok (as, t) :=
  itemsUpTo_of_turns h (Nat.lt_succ_of_le enough)

theorem turns_of_items {as : List α} (h : items more item s = .ok (as, t)) :
    Turns more item true s as t :=
  turns_of_itemsUpTo h

theorem enclosed_cons {inside : Scan α} {c : Char} {a : α} :
    enclosed inside (c :: s) = .ok (a, t) ↔ ∃ u, inside s = .ok (a, u) ∧ t = u.tail := by
  rw [enclosed, skipOne_bind]
  constructor
  · intro h
    obtain ⟨a', u, hinside, h⟩ := bind_eq_ok.mp h
    obtain ⟨_, _, hskip, h⟩ := bind_eq_ok.mp h
    cases hskip
    cases pure_eq_ok.mp h
    exact ⟨u, hinside, rfl⟩
  · rintro ⟨u, hinside, rfl⟩
    exact bind_of_ok hinside

/-- What stands before an item or a member: a comma before all but the first. -/
inductive Lead : Bool → List Char → Prop
  | first : Lead true []
  | later {blanks : List Char} : Blanks blanks → Lead false (blanks ++ [','])

theorem moreItems_eq_false {isFirst : Bool} :
    moreItems isFirst s = .ok (false, t) ↔
      ∃ blanks rest, Blanks blanks ∧ s = blanks ++ t ∧ t = ']' :: rest := by
  constructor
  · intro h
    rw [moreItems] at h
    split at h
    · cases h
    next c rest hs =>
      obtain ⟨blanks, hb, rfl, -⟩ := dropBlanks_eq_cons.mp hs
      split at h
      · next hc =>
        cases h
        exact ⟨blanks, rest, hb, rfl, hc ▸ rfl⟩
      split at h
      · cases h
      split at h
      · split at h
        · cases h
        · split at h <;> cases h
      · cases h
  · rintro ⟨blanks, rest, hb, rfl, rfl⟩
    simp [moreItems, dropBlanks_append hb, show isBlank ']' = false from rfl]

theorem moreItems_eq_true {isFirst : Bool} :
    moreItems isFirst s = .ok (true, t) ↔ ∃ lead blanks c rest, Lead isFirst lead ∧ Blanks blanks ∧
      s = lead ++ (blanks ++ t) ∧ t = c :: rest ∧ isBlank c = false ∧ c ≠ ']' := by
  constructor
  · intro h
    rw [moreItems] at h
    split at h
    · cases h
    next c rest hs =>
      obtain ⟨blanks, hb, rfl, hblank⟩ := dropBlanks_eq_cons.mp hs
      split at h
      · cases h
      next hc =>
        split at h
        · next hfirst =>
          cases h
          subst hfirst
          exact ⟨[], blanks, c, rest, .first, hb, rfl, rfl, hblank, hc⟩
        next hfirst =>
          obtain rfl : isFirst = false := by simpa using hfirst
          split at h
          · next hcomma =>
            subst hcomma
            split at h
            · cases h
            next d rest' hs' =>
              obtain ⟨blanks', hb', rfl, hblank'⟩ := dropBlanks_eq_cons.mp hs'
              split at h
              · cases h
              next hd =>
                cases h
                exact ⟨blanks ++ [','], blanks', d, rest', .later hb, hb', by simp, rfl,
                  hblank', hd⟩
          · cases h
  · rintro ⟨lead, blanks, c, rest, hlead, hb, rfl, rfl, hblank, hc⟩
    cases hlead with
    | first => simp [moreItems, dropBlanks_append hb, hblank, hc]
    | later hb' =>
        simp [moreItems, dropBlanks_append hb, dropBlanks_append hb', hblank, hc,
          show isBlank ',' = false from rfl]

theorem moreMembers_eq_false {isFirst : Bool} :
    moreMembers isFirst s = .ok (false, t) ↔
      ∃ blanks rest, Blanks blanks ∧ s = blanks ++ t ∧ t = '}' :: rest := by
  constructor
  · intro h
    rw [moreMembers] at h
    split at h
    · cases h
    next c rest hs =>
      obtain ⟨blanks, hb, rfl, -⟩ := dropBlanks_eq_cons.mp hs
      split at h
      · next hc =>
        cases h
        exact ⟨blanks, rest, hb, rfl, hc ▸ rfl⟩
      split at h
      · split at h <;> cases h
      split at h
      · split at h
        · cases h
        split at h
        · cases h
        · split at h <;> cases h
      · cases h
  · rintro ⟨blanks, rest, hb, rfl, rfl⟩
    simp [moreMembers, dropBlanks_append hb, show isBlank '}' = false from rfl]

theorem moreMembers_eq_true {isFirst : Bool} :
    moreMembers isFirst s = .ok (true, t) ↔ ∃ lead blanks rest, Lead isFirst lead ∧
      Blanks blanks ∧ s = lead ++ (blanks ++ t) ∧ t = '"' :: rest := by
  constructor
  · intro h
    rw [moreMembers] at h
    split at h
    · cases h
    next c rest hs =>
      obtain ⟨blanks, hb, rfl, -⟩ := dropBlanks_eq_cons.mp hs
      split at h
      · cases h
      split at h
      · next hfirst =>
        subst hfirst
        split at h
        · next hquote =>
          cases h
          exact ⟨[], blanks, rest, .first, hb, rfl, hquote ▸ rfl⟩
        · cases h
      next hfirst =>
        obtain rfl : isFirst = false := by simpa using hfirst
        split at h
        · next hcomma =>
          subst hcomma
          split at h
          · cases h
          next d rest' hs' =>
            obtain ⟨blanks', hb', rfl, -⟩ := dropBlanks_eq_cons.mp hs'
            split at h
            · next hd =>
              cases h
              exact ⟨blanks ++ [','], blanks', rest', .later hb, hb', by simp, hd ▸ rfl⟩
            · split at h <;> cases h
        · cases h
  · rintro ⟨lead, blanks, rest, hlead, hb, rfl, rfl⟩
    cases hlead with
    | first => simp [moreMembers, dropBlanks_append hb, show isBlank '"' = false from rfl]
    | later hb' =>
        simp [moreMembers, dropBlanks_append hb, dropBlanks_append hb',
          show isBlank ',' = false from rfl, show isBlank '"' = false from rfl]

theorem moreCharacters_eq_ok {isFirst again : Bool} :
    moreCharacters isFirst s = .ok (again, t) ↔
      s = t ∧ ∃ c rest, t = c :: rest ∧ again = (c != '"') := by
  constructor
  · intro h
    unfold moreCharacters at h
    split at h
    · cases h
    · cases h
      exact ⟨rfl, _, _, rfl, rfl⟩
  · rintro ⟨rfl, c, rest, rfl, rfl⟩
    rfl

/-- Looking ahead never makes a text longer. -/
theorem length_le_of_moreItems {isFirst again : Bool} (h : moreItems isFirst s = .ok (again, t)) :
    t.length ≤ s.length := by
  cases again with
  | false =>
      obtain ⟨blanks, _, _, rfl, _⟩ := moreItems_eq_false.mp h
      simp
  | true =>
      obtain ⟨lead, blanks, _, _, _, _, rfl, _⟩ := moreItems_eq_true.mp h
      simp only [List.length_append]
      omega

theorem length_le_of_moreMembers {isFirst again : Bool}
    (h : moreMembers isFirst s = .ok (again, t)) : t.length ≤ s.length := by
  cases again with
  | false =>
      obtain ⟨blanks, _, _, rfl, _⟩ := moreMembers_eq_false.mp h
      simp
  | true =>
      obtain ⟨lead, blanks, _, _, _, rfl, _⟩ := moreMembers_eq_true.mp h
      simp only [List.length_append]
      omega

/-- How a text that begins with no blank is read, by its first character. -/
inductive Dispatch (kinds : Kinds α) : List Char → α → List Char → Prop
  | null {rest : List Char} : Dispatch kinds ('n' :: 'u' :: 'l' :: 'l' :: rest) kinds.null rest
  | true {rest : List Char} :
      Dispatch kinds ('t' :: 'r' :: 'u' :: 'e' :: rest) (kinds.bool true) rest
  | false {rest : List Char} :
      Dispatch kinds ('f' :: 'a' :: 'l' :: 's' :: 'e' :: rest) (kinds.bool false) rest
  | number {c : Char} {inside rest : List Char} {a : α} : startsNumber c →
      kinds.number (c :: inside) = .ok (a, rest) → Dispatch kinds (c :: inside) a rest
  | string {inside rest : List Char} {a : α} : kinds.string ('"' :: inside) = .ok (a, rest) →
      Dispatch kinds ('"' :: inside) a rest
  | array {inside rest : List Char} {a : α} : kinds.array ('[' :: inside) = .ok (a, rest) →
      Dispatch kinds ('[' :: inside) a rest
  | object {inside rest : List Char} {a : α} : kinds.object ('{' :: inside) = .ok (a, rest) →
      Dispatch kinds ('{' :: inside) a rest

/-- A character that begins a number begins nothing else. -/
theorem ne_of_startsNumber {c : Char} (h : startsNumber c) :
    isBlank c = false ∧ c ≠ 'n' ∧ c ≠ 't' ∧ c ≠ 'f' ∧ c ≠ '"' ∧ c ≠ '[' ∧ c ≠ '{' := by
  refine ⟨?_, ?_, ?_, ?_, ?_, ?_, ?_⟩
  · cases hb : isBlank c with
    | false => rfl
    | true =>
        simp only [isBlank, Bool.or_eq_true, decide_eq_true_eq] at hb
        rcases hb with ((rfl | rfl) | rfl) | rfl <;> exact absurd h (by decide)
  all_goals
    rintro rfl
    exact absurd h (by decide)

theorem Kinds.scan_eq_ok {kinds : Kinds α} {a : α} :
    kinds.scan s = .ok (a, t) ↔
      ∃ blanks u, Blanks blanks ∧ s = blanks ++ u ∧ Dispatch kinds u a t := by
  constructor
  · intro h
    rw [Kinds.scan] at h
    split at h
    · cases h
    next c rest hs =>
      obtain ⟨blanks, hb, rfl, -⟩ := dropBlanks_eq_cons.mp hs
      refine ⟨blanks, c :: rest, hb, rfl, ?_⟩
      split_ifs at h with hn ht hf hnum hq ha ho
      · obtain ⟨_, u, hl, h⟩ := bind_eq_ok.mp h
        cases pure_eq_ok.mp h
        subst hn
        rw [literal_eq_ok.mp hl]
        exact .null
      · obtain ⟨_, u, hl, h⟩ := bind_eq_ok.mp h
        cases pure_eq_ok.mp h
        subst ht
        rw [literal_eq_ok.mp hl]
        exact .true
      · obtain ⟨_, u, hl, h⟩ := bind_eq_ok.mp h
        cases pure_eq_ok.mp h
        subst hf
        rw [literal_eq_ok.mp hl]
        exact .false
      · exact .number (by simpa [startsNumber] using hnum) h
      · subst hq
        exact .string h
      · subst ha
        exact .array h
      · subst ho
        exact .object h
      · cases h
  · rintro ⟨blanks, u, hb, rfl, h⟩
    rw [Kinds.scan]
    rw [dropBlanks_append hb]
    cases h with
    | null => exact bind_of_ok (literal_eq_ok.mpr rfl)
    | true => exact bind_of_ok (literal_eq_ok.mpr rfl)
    | false => exact bind_of_ok (literal_eq_ok.mpr rfl)
    | @number c inside _ _ hc h =>
        obtain ⟨hblank, hn, ht, hf, -⟩ := ne_of_startsNumber hc
        have hnum : c = '-' || c.isDigit := hc
        rw [dropBlanks_cons hblank]
        simpa only [if_neg hn, if_neg ht, if_neg hf, if_pos hnum] using h
    | string h => exact h
    | array h => exact h
    | object h => exact h

end Scan
end LatencyProbe.Json
