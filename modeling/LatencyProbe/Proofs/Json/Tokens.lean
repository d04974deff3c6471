import LatencyProbe.Proofs.Json.Scanning

/-!
# Numbers and strings are read by the grammar

Both ways for each token: what is read was written by the grammar, and what the grammar writes is
read. A string ends with its quote. A number ends only where the text goes on with something else,
so that reading it needs to know what follows: `Ends` says that nothing follows that could be a
part of it.
-/

namespace LatencyProbe.Json

/-- Nothing comes next that a number could go on with. -/
def Ends (rest : List Char) : Prop :=
  ∀ c ∈ rest.head?, c.isDigit = false ∧ c ≠ '.' ∧ c ≠ 'e' ∧ c ≠ 'E'

namespace Ends

theorem nil : Ends [] := by
  intro c hc
  cases hc

theorem cons {c : Char} {rest : List Char}
    (h : c.isDigit = false ∧ c ≠ '.' ∧ c ≠ 'e' ∧ c ≠ 'E') : Ends (c :: rest) := by
  intro d hd
  cases hd
  exact h

/-- A blank or what follows the blanks ends a number. -/
theorem blanks_append {blanks rest : List Char} (hb : Blanks blanks) (h : Ends rest) :
    Ends (blanks ++ rest) := by
  cases blanks with
  | nil => exact h
  | cons c blanks =>
      have hc := hb c (List.mem_cons_self ..)
      simp only [Scan.isBlank, Bool.or_eq_true, decide_eq_true_eq] at hc
      rcases hc with ((rfl | rfl) | rfl) | rfl <;> exact .cons (by decide)

end Ends

namespace Scan

variable {s t : List Char}

theorem someDigits_eq_ok {atEnd : Problem} {ds : List Char} (h : someDigits atEnd s = .ok (ds, t)) :
    s = ds ++ t ∧ Digits ds := by
  rw [someDigits] at h
  split at h
  · split at h <;> cases h
  next d ds' hs =>
    cases h
    refine ⟨?_, List.cons_ne_nil d ds', ?_⟩
    · rw [← hs, List.takeWhile_append_dropWhile]
    · intro c hc
      rw [← hs] at hc
      exact List.all_eq_true.mp List.all_takeWhile c hc

theorem someDigits_append {atEnd : Problem} {ds rest : List Char} (h : Digits ds)
    (hrest : ∀ c ∈ rest.head?, c.isDigit = false) :
    someDigits atEnd (ds ++ rest) = .ok (ds, rest) := by
  have hstop : rest.takeWhile Char.isDigit = [] ∧ rest.dropWhile Char.isDigit = rest := by
    cases rest with
    | nil => exact ⟨rfl, rfl⟩
    | cons c rest => simp [hrest c rfl]
  have htake : (ds ++ rest).takeWhile Char.isDigit = ds := by
    rw [List.takeWhile_append_of_pos h.2, hstop.1, List.append_nil]
  have hdrop : (ds ++ rest).dropWhile Char.isDigit = rest := by
    rw [List.dropWhile_append_of_pos h.2, hstop.2]
  rw [someDigits]
  rw [htake, hdrop]
  split
  · exact absurd rfl h.1
  · rfl

theorem wholeDigits_eq_ok {atEnd : Problem} {ds : List Char}
    (h : wholeDigits atEnd s = .ok (ds, t)) : s = ds ++ t ∧ WholeDigits ds := by
  unfold wholeDigits at h
  split at h
  · split at h
    · cases h
    · cases h
      exact ⟨rfl, .zero⟩
  next hzero =>
    obtain ⟨rfl, hds⟩ := someDigits_eq_ok h
    refine ⟨rfl, ?_⟩
    cases ds with
    | nil => exact absurd rfl hds.1
    | cons d ds =>
        refine .digits ?_ hds
        rintro rfl
        exact hzero (ds ++ t) rfl

theorem wholeDigits_append {atEnd : Problem} {ds rest : List Char} (h : WholeDigits ds)
    (hrest : ∀ c ∈ rest.head?, c.isDigit = false) :
    wholeDigits atEnd (ds ++ rest) = .ok (ds, rest) := by
  cases h with
  | zero =>
      have hstop : rest.head?.any Char.isDigit = false := by
        cases rest with
        | nil => rfl
        | cons c rest => exact hrest c rfl
      simp [wholeDigits, hstop]
  | @digits d ds hd hds =>
      have h : someDigits atEnd ((d :: ds) ++ rest) = .ok (d :: ds, rest) :=
        someDigits_append hds hrest
      unfold wholeDigits
      split
      · next heq => exact absurd (List.cons.inj heq).1 hd
      · exact h

theorem fractionDigits_eq_ok {atEnd : Problem} {ds : List Char}
    (h : fractionDigits atEnd s = .ok (ds, t)) : ∃ text, s = text ++ t ∧ FractionText text ds := by
  unfold fractionDigits at h
  split at h
  · obtain ⟨rfl, hds⟩ := someDigits_eq_ok h
    exact ⟨'.' :: ds, rfl, .some hds⟩
  · cases h
    exact ⟨[], rfl, .none⟩

theorem fractionDigits_append {atEnd : Problem} {text ds rest : List Char}
    (h : FractionText text ds) (hrest : ∀ c ∈ rest.head?, c.isDigit = false ∧ c ≠ '.') :
    fractionDigits atEnd (text ++ rest) = .ok (ds, rest) := by
  cases h with
  | none =>
      unfold fractionDigits
      split
      · next heq =>
        rw [List.nil_append] at heq
        exact absurd rfl (hrest '.' (heq ▸ rfl)).2
      · rfl
  | some hds => exact someDigits_append hds fun c hc => (hrest c hc).1

theorem exponentDigits_eq_ok {atEnd : Problem} {e : Lexeme.Exponent} {c : Char}
    (hc : c = 'e' ∨ c = 'E') (h : exponentDigits atEnd s = .ok (e, t)) :
    ∃ text, s = text ++ t ∧ ExponentText (c :: text) (some e) := by
  obtain ⟨negative, u, hsign, h⟩ := bind_eq_ok.mp h
  obtain ⟨ds, v, hsome, h⟩ := bind_eq_ok.mp h
  cases pure_eq_ok.mp h
  obtain ⟨rfl, hds⟩ := someDigits_eq_ok hsome
  unfold exponentSign at hsign
  split at hsign
  · cases hsign
    exact ⟨'+' :: ds, rfl, .plus hc hds⟩
  · cases hsign
    exact ⟨'-' :: ds, rfl, .minus hc hds⟩
  · cases hsign
    exact ⟨ds, rfl, .bare hc hds⟩

theorem exponentPart_eq_ok {atEnd : Problem} {e : Option Lexeme.Exponent}
    (h : exponentPart atEnd s = .ok (e, t)) : ∃ text, s = text ++ t ∧ ExponentText text e := by
  unfold exponentPart at h
  split at h
  · cases h
    exact ⟨[], rfl, .none⟩
  next c rest =>
    split at h
    · next hc =>
      obtain ⟨e', he, rfl⟩ := map_eq_ok.mp h
      obtain ⟨text, rfl, htext⟩ := exponentDigits_eq_ok hc he
      exact ⟨c :: text, rfl, htext⟩
    · cases h
      exact ⟨[], rfl, .none⟩

theorem exponentSign_digits {ds rest : List Char} (h : Digits ds) :
    exponentSign (ds ++ rest) = .ok (false, ds ++ rest) := by
  unfold exponentSign
  split
  · next heq =>
    cases ds with
    | nil => exact absurd rfl h.1
    | cons d ds =>
        cases (List.cons.inj heq).1
        exact absurd (h.2 '+' (List.mem_cons_self ..)) (by decide)
  · next heq =>
    cases ds with
    | nil => exact absurd rfl h.1
    | cons d ds =>
        cases (List.cons.inj heq).1
        exact absurd (h.2 '-' (List.mem_cons_self ..)) (by decide)
  · rfl

theorem exponentPart_append {atEnd : Problem} {text rest : List Char} {e : Option Lexeme.Exponent}
    (h : ExponentText text e) (hrest : Ends rest) :
    exponentPart atEnd (text ++ rest) = .ok (e, rest) := by
  have hdigit : ∀ c ∈ rest.head?, c.isDigit = false := fun c hc => (hrest c hc).1
  cases h with
  | none =>
      cases rest with
      | nil => rfl
      | cons c rest =>
          obtain ⟨-, -, he, hE⟩ := hrest c rfl
          simp [exponentPart, he, hE]
  | bare hc hds =>
      simp only [List.cons_append, exponentPart, if_pos hc]
      refine map_eq_ok.mpr ⟨_, ?_, rfl⟩
      exact (bind_of_ok (exponentSign_digits hds)).trans
        (bind_of_ok (someDigits_append hds hdigit))
  | plus hc hds =>
      simp only [List.cons_append, exponentPart, if_pos hc]
      refine map_eq_ok.mpr ⟨_, ?_, rfl⟩
      exact (bind_of_ok (x := exponentSign) rfl).trans (bind_of_ok (someDigits_append hds hdigit))
  | minus hc hds =>
      simp only [List.cons_append, exponentPart, if_pos hc]
      refine map_eq_ok.mpr ⟨_, ?_, rfl⟩
      exact (bind_of_ok (x := exponentSign) rfl).trans (bind_of_ok (someDigits_append hds hdigit))

theorem lexeme_eq_ok {atEnd : Problem} {l : Lexeme} (h : lexeme atEnd s = .ok (l, t)) :
    ∃ text, s = text ++ t ∧ NumberText text l := by
  obtain ⟨negative, u, hsign, h⟩ := bind_eq_ok.mp h
  obtain ⟨whole, v, hw, h⟩ := bind_eq_ok.mp h
  obtain ⟨fraction, w, hf, h⟩ := bind_eq_ok.mp h
  obtain ⟨exponent, x, he, h⟩ := bind_eq_ok.mp h
  cases pure_eq_ok.mp h
  obtain ⟨rfl, hwhole⟩ := wholeDigits_eq_ok hw
  obtain ⟨fractionText, rfl, hfraction⟩ := fractionDigits_eq_ok hf
  obtain ⟨exponentText, rfl, hexponent⟩ := exponentPart_eq_ok he
  unfold minusSign at hsign
  split at hsign
  · cases hsign
    exact ⟨_, by simp, .negative hwhole hfraction hexponent⟩
  · cases hsign
    exact ⟨_, by simp, .positive hwhole hfraction hexponent⟩

/-- The parts of a number after its sign, each ended by the next. -/
theorem lexeme_parts {atEnd : Problem} {whole fractionText exponentText fraction rest : List Char}
    {exponent : Option Lexeme.Exponent} (negative : Bool) (hwhole : WholeDigits whole)
    (hfraction : FractionText fractionText fraction)
    (hexponent : ExponentText exponentText exponent) (hrest : Ends rest)
    (hsign : minusSign s = .ok (negative, whole ++ (fractionText ++ (exponentText ++ rest)))) :
    lexeme atEnd s = .ok (⟨negative, whole, fraction, exponent⟩, rest) := by
  have hexp : ∀ c ∈ (exponentText ++ rest).head?, c.isDigit = false ∧ c ≠ '.' := by
    intro c hc
    cases hexponent with
    | none => exact ⟨(hrest c hc).1, (hrest c hc).2.1⟩
    | bare he _ | plus he _ | minus he _ =>
        cases hc
        rcases he with rfl | rfl <;> decide
  have hfrac : ∀ c ∈ (fractionText ++ (exponentText ++ rest)).head?, c.isDigit = false := by
    intro c hc
    cases hfraction with
    | none => exact (hexp c hc).1
    | some _ =>
        cases hc
        rfl
  exact (bind_of_ok hsign).trans ((bind_of_ok (wholeDigits_append hwhole hfrac)).trans
    ((bind_of_ok (fractionDigits_append hfraction hexp)).trans
      (bind_of_ok (exponentPart_append hexponent hrest))))

theorem lexeme_append {atEnd : Problem} {text rest : List Char} {l : Lexeme}
    (h : NumberText text l) (hrest : Ends rest) : lexeme atEnd (text ++ rest) = .ok (l, rest) := by
  cases h with
  | positive hwhole hfraction hexponent =>
      apply lexeme_parts false hwhole hfraction hexponent hrest
      simp only [List.append_assoc]
      unfold minusSign
      split
      · next heq =>
        cases hwhole with
        | zero => cases heq
        | digits _ hds =>
            cases (List.cons.inj heq).1
            exact absurd (hds.2 '-' (List.mem_cons_self ..)) (by decide)
      · rfl
  | negative hwhole hfraction hexponent =>
      apply lexeme_parts true hwhole hfraction hexponent hrest
      simp [minusSign]

theorem startsNumber_of_numberText {text : List Char} {l : Lexeme} (h : NumberText text l) :
    ∃ c more, text = c :: more ∧ startsNumber c := by
  cases h with
  | positive hwhole _ _ =>
      cases hwhole with
      | zero => exact ⟨_, _, rfl, rfl⟩
      | @digits d ds _ hds =>
          refine ⟨_, _, rfl, ?_⟩
          simp [startsNumber, hds.2 d (List.mem_cons_self ..)]
  | negative _ _ _ => exact ⟨_, _, rfl, rfl⟩

theorem number_eq_ok {n : Number} (h : number s = .ok (n, t)) :
    ∃ text l, s = text ++ t ∧ NumberText text l ∧ l.toNumber = .ok n := by
  obtain ⟨l, u, hl, hmatch⟩ := bind_eq_ok.mp h
  obtain ⟨text, rfl, htext⟩ := lexeme_eq_ok hl
  cases hn : l.toNumber with
  | error unread =>
      rw [hn] at hmatch
      cases hmatch
  | ok m =>
      rw [hn] at hmatch
      cases pure_eq_ok.mp hmatch
      exact ⟨text, l, rfl, htext, hn⟩

theorem number_append {text rest : List Char} {l : Lexeme} {n : Number} (h : NumberText text l)
    (hn : l.toNumber = .ok n) (hrest : Ends rest) : number (text ++ rest) = .ok (n, rest) := by
  refine (bind_of_ok (lexeme_append h hrest)).trans ?_
  rw [hn]
  rfl

theorem unescape?_eq_some {c d : Char} : unescape? c = some d ↔ ShortEscape c d := by
  constructor
  · intro h
    rw [unescape?] at h
    split_ifs at h with h₁ h₂ h₃ h₄ h₅ h₆ h₇ h₈ <;> cases h
    · exact h₁ ▸ .quote
    · exact h₂ ▸ .backslash
    · exact h₃ ▸ .slash
    · exact h₄ ▸ .backspace
    · exact h₅ ▸ .formFeed
    · exact h₆ ▸ .newline
    · exact h₇ ▸ .return
    · exact h₈ ▸ .tab
  · intro h
    cases h <;> rfl

theorem hexFour_eq_ok {n : Nat} :
    hexFour s = .ok (n, t) ↔ ∃ digits, s = digits ++ t ∧ HexFour digits n := by
  constructor
  · intro h
    unfold hexFour at h
    split at h
    · split at h
      · next ha hb hc hd =>
        cases h
        exact ⟨_, rfl, .digits ha hb hc hd⟩
      · rw [refuseFour] at h
        split at h <;> cases h
    · rw [refuseFour] at h
      split at h <;> cases h
  · rintro ⟨digits, rfl, h⟩
    cases h with
    | digits ha hb hc hd => simp [hexFour, ha, hb, hc, hd]

theorem pairMark_eq_ok {mark : Char} : pairMark mark s = .ok ((), t) ↔ s = mark :: t := by
  cases s with
  | nil => simp [pairMark, refuse]
  | cons c rest =>
      by_cases h : c = mark
      · simp [pairMark, h]
      · simp [pairMark, h, refuseNext]

theorem unicodeEscape_eq_ok {c : Char} (h : unicodeEscape s = .ok (c, t)) :
    ∃ text, s = text ++ t ∧ CharacterText ('\\' :: 'u' :: text) c := by
  obtain ⟨n, u, hfour, hrest⟩ := bind_eq_ok.mp h
  obtain ⟨digits, rfl, hdigits⟩ := hexFour_eq_ok.mp hfour
  split at hrest
  · cases hrest
  next htrailing =>
    split at hrest
    · next hleading =>
      obtain ⟨_, v, hmark, hmarked⟩ := bind_eq_ok.mp hrest
      obtain ⟨_, w, hmark', hmarked'⟩ := bind_eq_ok.mp hmarked
      obtain ⟨n', x, hfour', hlast⟩ := bind_eq_ok.mp hmarked'
      cases pairMark_eq_ok.mp hmark
      cases pairMark_eq_ok.mp hmark'
      obtain ⟨digits', rfl, hdigits'⟩ := hexFour_eq_ok.mp hfour'
      split at hlast
      · next htrailing' =>
        obtain ⟨hc, ht⟩ := Prod.mk.inj (pure_eq_ok.mp hlast)
        rw [hc, ht]
        exact ⟨digits ++ '\\' :: 'u' :: digits', by simp,
          .pair hdigits hleading hdigits' htrailing'⟩
      · cases hlast
    · next hleading =>
      cases pure_eq_ok.mp hrest
      exact ⟨digits, rfl, .unicode hdigits (by simpa using hleading) (by simpa using htrailing)⟩

theorem character_eq_ok {c : Char} (h : character s = .ok (c, t)) (hs : s.head? ≠ some '"') :
    ∃ front, s = front ++ t ∧ CharacterText front c := by
  unfold character at h
  split at h
  · cases h
  next d rest =>
    split at h
    · next hd =>
      subst hd
      unfold escapeSequence at h
      split at h
      · cases h
      next e rest =>
        split at h
        · next he =>
          obtain ⟨text, rfl, htext⟩ := unicodeEscape_eq_ok h
          exact ⟨_, by simp [he], htext⟩
        · split at h
          · next f hf =>
            cases h
            exact ⟨['\\', e], rfl, .short (unescape?_eq_some.mp hf)⟩
          · cases h
    · next hd =>
      split at h
      · cases h
      · next hcontrol =>
        cases h
        refine ⟨[c], rfl, .plain ?_ hd (Nat.not_lt.mp hcontrol)⟩
        rintro rfl
        exact hs rfl

theorem character_append {front rest : List Char} {c : Char} (h : CharacterText front c) :
    character (front ++ rest) = .ok (c, rest) := by
  cases h with
  | plain _ hbackslash hcontrol => simp [character, hbackslash, Nat.not_lt.mpr hcontrol]
  | @short e d he =>
      have hu : e ≠ 'u' := by
        rintro rfl
        cases he
      simp [character, escapeSequence, hu, unescape?_eq_some.mpr he]
  | unicode hdigits hleading htrailing =>
      have hfour := (hexFour_eq_ok (t := rest)).mpr ⟨_, rfl, hdigits⟩
      simp only [List.cons_append, character, escapeSequence, if_true]
      refine (bind_of_ok hfour).trans ?_
      simp only [htrailing, hleading, Bool.false_eq_true, if_false]
      rfl
  | @pair digits digits' n n' hdigits hleading hdigits' htrailing =>
      have hfour := (hexFour_eq_ok (t := '\\' :: 'u' :: (digits' ++ rest))).mpr ⟨_, rfl, hdigits⟩
      have hfour' := (hexFour_eq_ok (t := rest)).mpr ⟨_, rfl, hdigits'⟩
      have hboth : isTrailing n = false := by
        simp only [isLeading, Bool.and_eq_true, decide_eq_true_eq] at hleading
        simp only [isTrailing, Bool.and_eq_false_iff, decide_eq_false_iff_not]
        omega
      simp only [List.cons_append, List.append_assoc, character, escapeSequence, if_true]
      refine (bind_of_ok hfour).trans ?_
      simp only [hboth, hleading, Bool.false_eq_true, if_false, if_true]
      refine (bind_of_ok (pairMark_eq_ok.mpr rfl)).trans ?_
      refine (bind_of_ok (pairMark_eq_ok.mpr rfl)).trans ?_
      refine (bind_of_ok hfour').trans ?_
      simp only [htrailing, if_true]
      rfl

/-- How a character stands inside a string never begins with a quote. -/
theorem head_characterText {front : List Char} {c : Char} (h : CharacterText front c) :
    ∃ d more, front = d :: more ∧ d ≠ '"' := by
  cases h with
  | plain hquote _ _ => exact ⟨_, _, rfl, hquote⟩
  | short _ | unicode _ _ _ | pair _ _ _ _ => exact ⟨_, _, rfl, by decide⟩

theorem charactersText_of_turns {isFirst : Bool} {cs : List Char}
    (h : Turns moreCharacters character isFirst s cs t) :
    ∃ inside, s = inside ++ t ∧ CharactersText inside cs ∧ t.head? = some '"' := by
  induction h with
  | done hmore =>
      obtain ⟨rfl, c, rest, rfl, hc⟩ := moreCharacters_eq_ok.mp hmore
      have hquote : c = '"' := by simpa using hc
      exact ⟨[], rfl, .nil, congrArg some hquote⟩
  | turn hmore hitem _ ih =>
      obtain ⟨rfl, c, rest, rfl, hc⟩ := moreCharacters_eq_ok.mp hmore
      obtain ⟨inside, rfl, hinside, hhead⟩ := ih
      have hquote : c ≠ '"' := by simpa using hc
      obtain ⟨front, hfront, htext⟩ := character_eq_ok hitem (by simpa using hquote)
      exact ⟨front ++ inside, by rw [hfront, List.append_assoc], .cons htext hinside, hhead⟩

theorem turns_of_charactersText {inside cs : List Char} (h : CharactersText inside cs)
    (isFirst : Bool) (rest : List Char) :
    Turns moreCharacters character isFirst (inside ++ '"' :: rest) cs ('"' :: rest) := by
  induction h generalizing isFirst with
  | nil => exact .done (moreCharacters_eq_ok.mpr ⟨rfl, '"', rest, rfl, rfl⟩)
  | cons hfront _ ih =>
      obtain ⟨d, more, rfl, hd⟩ := head_characterText hfront
      rw [List.append_assoc]
      exact .turn (moreCharacters_eq_ok.mpr ⟨rfl, d, _, rfl, by simpa using hd⟩)
        (character_append hfront) (ih false)

theorem length_le_of_charactersText {inside cs : List Char} (h : CharactersText inside cs) :
    cs.length ≤ inside.length := by
  induction h with
  | nil => exact Nat.le_refl _
  | cons hfront _ ih =>
      obtain ⟨d, more, rfl, -⟩ := head_characterText hfront
      simp only [List.length_cons, List.length_append]
      omega

theorem quoted_eq_ok {string : String} (h : quoted ('"' :: s) = .ok (string, t)) :
    ∃ text, '"' :: s = text ++ t ∧ StringText text string := by
  obtain ⟨cs, hinside, rfl⟩ := map_eq_ok.mp h
  obtain ⟨u, hitems, rfl⟩ := enclosed_cons.mp hinside
  obtain ⟨inside, rfl, htext, hhead⟩ := charactersText_of_turns (turns_of_items hitems)
  obtain ⟨rest, rfl⟩ := List.head?_eq_some_iff.mp hhead
  exact ⟨_, by simp, .quoted htext⟩

theorem quoted_append {text rest : List Char} {string : String} (h : StringText text string) :
    quoted (text ++ rest) = .ok (string, rest) := by
  cases h with
  | @quoted inside cs htext =>
      refine map_eq_ok.mpr ⟨cs, ?_, rfl⟩
      rw [List.cons_append, List.append_assoc]
      refine enclosed_cons.mpr ⟨'"' :: rest, ?_, rfl⟩
      apply items_of_turns (turns_of_charactersText htext true rest)
      have := length_le_of_charactersText htext
      simp only [List.length_append]
      omega

end Scan
end LatencyProbe.Json
