import LatencyProbe.Proofs.Json.Tokens
import LatencyProbe.Proofs.Text.Utf8

/-!
# The reader accepts the grammar

`parseRaw_eq_ok`: a text is read as a value exactly if it is a document of that value. Both
halves are inductions, over the depth that is left and over the derivation. A number is the one
value that could go on, so only for numbers the text that follows matters.
-/

namespace LatencyProbe.Json

namespace Scan

variable {s t : List Char} {depth : Nat}

/-- A value of whatever kind, if the two kinds of containers are read as they should be. -/
theorem denotes_of_dispatch {array object : Scan Json} {v : Json}
    (harray : ∀ {s v t}, array ('[' :: s) = .ok (v, t) →
      ∃ text, '[' :: s = text ++ t ∧ Denotes depth text (.value v))
    (hobject : ∀ {s v t}, object ('{' :: s) = .ok (v, t) →
      ∃ text, '{' :: s = text ++ t ∧ Denotes depth text (.value v))
    (h : Dispatch ⟨.null, .bool, .number <$> number, .string <$> quoted, array, object⟩ s v t) :
    ∃ text, s = text ++ t ∧ Denotes depth text (.value v) := by
  cases h with
  | null => exact ⟨_, rfl, .null⟩
  | true => exact ⟨_, rfl, .true⟩
  | false => exact ⟨_, rfl, .false⟩
  | number _ h =>
      obtain ⟨n, hn, rfl⟩ := map_eq_ok.mp h
      obtain ⟨text, l, htext, hl, hvalue⟩ := number_eq_ok hn
      exact ⟨text, htext, .number hl hvalue⟩
  | string h =>
      obtain ⟨string, hs, rfl⟩ := map_eq_ok.mp h
      obtain ⟨text, htext, hstring⟩ := quoted_eq_ok hs
      exact ⟨text, htext, .string hstring⟩
  | array h => exact harray h
  | object h => exact hobject h

/-- A scan that reads values as the grammar has them, after blanks. -/
def Sound (depth : Nat) (scan : Scan Json) : Prop :=
  ∀ {s v t}, scan s = .ok (v, t) →
    ∃ blanks text, Blanks blanks ∧ s = blanks ++ (text ++ t) ∧ Denotes depth text (.value v)

theorem items_of_turns_moreItems {scan : Scan Json} (sound : Sound depth scan) {isFirst : Bool}
    {vs : List Json} (h : Turns moreItems scan isFirst s vs t) :
    ((vs = [] ∧ ∃ blanks, Blanks blanks ∧ s = blanks ++ t) ∨
      ∃ lead text, Lead isFirst lead ∧ s = lead ++ (text ++ t) ∧ Denotes depth text (.items vs)) ∧
    t.head? = some ']' := by
  induction h with
  | done hmore =>
      obtain ⟨blanks, rest, hb, hs, rfl⟩ := moreItems_eq_false.mp hmore
      exact ⟨.inl ⟨rfl, blanks, hb, hs⟩, rfl⟩
  | turn hmore hitem _ ih =>
      obtain ⟨lead, before, c, rest, hlead, hbefore, rfl, rfl, -⟩ := moreItems_eq_true.mp hmore
      obtain ⟨blanks, text, hblanks, hs, htext⟩ := sound hitem
      obtain ⟨⟨rfl, after, hafter, rfl⟩ | ⟨lead', more, hlead', rfl, hmembers⟩, hhead⟩ := ih
      · refine ⟨.inr ⟨lead, _, hlead, ?_, .lastItem (hbefore.append hblanks) htext hafter⟩, hhead⟩
        rw [hs]
        simp
      · cases hlead' with
        | later hafter =>
            refine ⟨.inr ⟨lead, _, hlead, ?_,
              .item (hbefore.append hblanks) htext hafter hmembers⟩, hhead⟩
            rw [hs]
            simp

theorem member_eq_ok {scan : Scan Json} (sound : Sound depth scan) {key : String} {v : Json}
    (h : member scan ('"' :: s) = .ok ((key, v), t)) :
    ∃ keyText middle blanks text, '"' :: s = keyText ++ (middle ++ ':' :: (blanks ++ (text ++ t))) ∧
      StringText keyText key ∧ Blanks middle ∧ Blanks blanks ∧ Denotes depth text (.value v) := by
  obtain ⟨_, u, hquoted, hrest⟩ := bind_eq_ok.mp h
  obtain ⟨_, w, hcolon, hrest'⟩ := bind_eq_ok.mp hrest
  obtain ⟨_, x, hvalue, hlast⟩ := bind_eq_ok.mp hrest'
  cases pure_eq_ok.mp hlast
  obtain ⟨keyText, hs, hkey⟩ := quoted_eq_ok hquoted
  obtain ⟨middle, hmiddle, rfl⟩ := colon_eq_ok.mp hcolon
  obtain ⟨blanks, text, hblanks, rfl, htext⟩ := sound hvalue
  exact ⟨keyText, middle, blanks, text, hs, hkey, hmiddle, hblanks, htext⟩

theorem members_of_turns_moreMembers {scan : Scan Json} (sound : Sound depth scan)
    {isFirst : Bool} {ms : List (String × Json)}
    (h : Turns moreMembers (member scan) isFirst s ms t) :
    ((ms = [] ∧ ∃ blanks, Blanks blanks ∧ s = blanks ++ t) ∨
      ∃ lead text, Lead isFirst lead ∧ s = lead ++ (text ++ t) ∧
        Denotes depth text (.members ms)) ∧
    t.head? = some '}' := by
  induction h with
  | done hmore =>
      obtain ⟨blanks, rest, hb, hs, rfl⟩ := moreMembers_eq_false.mp hmore
      exact ⟨.inl ⟨rfl, blanks, hb, hs⟩, rfl⟩
  | turn hmore hitem _ ih =>
      obtain ⟨lead, before, rest, hlead, hbefore, rfl, rfl⟩ := moreMembers_eq_true.mp hmore
      obtain ⟨keyText, middle, blanks, text, hs, hkey, hmiddle, hblanks, htext⟩ :=
        member_eq_ok sound hitem
      obtain ⟨⟨rfl, after, hafter, rfl⟩ | ⟨lead', more, hlead', rfl, hmembers⟩, hhead⟩ := ih
      · refine ⟨.inr ⟨lead, _, hlead, ?_,
          .lastMember hbefore hkey hmiddle hblanks htext hafter⟩, hhead⟩
        rw [hs]
        simp
      · cases hlead' with
        | later hafter =>
            refine ⟨.inr ⟨lead, _, hlead, ?_,
              .member hbefore hkey hmiddle hblanks htext hafter hmembers⟩, hhead⟩
            rw [hs]
            simp

theorem array_eq_ok {scan : Scan Json} (sound : Sound depth scan) {v : Json}
    (h : (Json.array <$> enclosed (items moreItems scan) : Scan Json) ('[' :: s) = .ok (v, t)) :
    ∃ text, '[' :: s = text ++ t ∧ Denotes (depth + 1) text (.value v) := by
  obtain ⟨vs, hinside, rfl⟩ := map_eq_ok.mp h
  obtain ⟨u, hitems, rfl⟩ := enclosed_cons.mp hinside
  obtain ⟨hs, hhead⟩ := items_of_turns_moreItems sound (turns_of_items hitems)
  obtain ⟨rest, rfl⟩ := List.head?_eq_some_iff.mp hhead
  rcases hs with ⟨rfl, blanks, hb, rfl⟩ | ⟨lead, text, hlead, rfl, htext⟩
  · exact ⟨_, by simp, .emptyArray hb⟩
  · cases hlead
    exact ⟨_, by simp, .array htext⟩

theorem object_eq_ok {scan : Scan Json} (sound : Sound depth scan) {v : Json}
    (h : (Json.object <$> enclosed (items moreMembers (member scan)) : Scan Json) ('{' :: s) =
      .ok (v, t)) :
    ∃ text, '{' :: s = text ++ t ∧ Denotes (depth + 1) text (.value v) := by
  obtain ⟨ms, hinside, rfl⟩ := map_eq_ok.mp h
  obtain ⟨u, hitems, rfl⟩ := enclosed_cons.mp hinside
  obtain ⟨hs, hhead⟩ := members_of_turns_moreMembers sound (turns_of_items hitems)
  obtain ⟨rest, rfl⟩ := List.head?_eq_some_iff.mp hhead
  rcases hs with ⟨rfl, blanks, hb, rfl⟩ | ⟨lead, text, hlead, rfl, htext⟩
  · exact ⟨_, by simp, .emptyObject hb⟩
  · cases hlead
    exact ⟨_, by simp, .object htext⟩

/-- What is read as a value is, after blanks, a text of that value. -/
theorem sound_value (depth : Nat) : Sound depth (value depth) := by
  induction depth with
  | zero =>
      intro s v t h
      obtain ⟨blanks, u, hb, rfl, hu⟩ := Kinds.scan_eq_ok.mp h
      obtain ⟨text, rfl, htext⟩ :=
        denotes_of_dispatch (fun (h : refuseNext _ _ = _) => by cases h)
          (fun (h : refuseNext _ _ = _) => by cases h) hu
      exact ⟨blanks, text, hb, rfl, htext⟩
  | succ depth ih =>
      intro s v t h
      obtain ⟨blanks, u, hb, rfl, hu⟩ := Kinds.scan_eq_ok.mp h
      obtain ⟨text, rfl, htext⟩ := denotes_of_dispatch (array_eq_ok ih) (object_eq_ok ih) hu
      exact ⟨blanks, text, hb, rfl, htext⟩

/-- The first character of a value's text is its own, and tells whether it is a number. -/
theorem head_denotes {text : List Char} {v : Json} (h : Denotes depth text (.value v)) :
    ∃ c more, text = c :: more ∧ isBlank c = false ∧ c ≠ ']' ∧ startsNumber c = v.isNumber := by
  generalize hp : Phrase.value v = phrase at h
  cases h with
  | @number _ _ l n hl _ =>
      cases hp
      obtain ⟨c, more, rfl, hc⟩ := startsNumber_of_numberText hl
      refine ⟨c, more, rfl, (ne_of_startsNumber hc).1, ?_, hc⟩
      rintro rfl
      exact absurd hc (by decide)
  | string hs =>
      cases hp
      cases hs
      exact ⟨_, _, rfl, rfl, by decide, rfl⟩
  | lastItem | item | lastMember | member => cases hp
  | null | true | false | emptyArray | array | emptyObject | object =>
      cases hp
      exact ⟨_, _, rfl, rfl, by decide, rfl⟩

theorem value_blanks {blanks : List Char} (hb : Blanks blanks) :
    value depth (blanks ++ s) = value depth s := by
  cases depth with
  | zero =>
      change Kinds.scan _ _ = Kinds.scan _ _
      unfold Kinds.scan
      rw [dropBlanks_append hb]
  | succ depth =>
      change Kinds.scan _ _ = Kinds.scan _ _
      unfold Kinds.scan
      rw [dropBlanks_append hb]

theorem length_lt_of_value {v : Json} (h : value depth s = .ok (v, t)) : t.length < s.length := by
  obtain ⟨blanks, text, _, rfl, htext⟩ := sound_value depth h
  obtain ⟨c, more, rfl, -⟩ := head_denotes htext
  simp only [List.length_append, List.length_cons]
  omega

theorem length_lt_of_member {isFirst : Bool} {u : List Char} {m : String × Json}
    (hmore : moreMembers isFirst s = .ok (true, u))
    (h : member (value depth) u = .ok (m, t)) : t.length < u.length := by
  obtain ⟨_, _, _, _, _, _, rfl⟩ := moreMembers_eq_true.mp hmore
  obtain ⟨keyText, middle, blanks, text, hs, -⟩ := member_eq_ok (sound_value depth) h
  rw [hs]
  simp only [List.length_append, List.length_cons]
  omega

/-- How the reader takes a text of a phrase, whatever follows it. -/
def Accepts (depth : Nat) (text : List Char) : Phrase → Prop
  | .value v => ∀ rest, (v.isNumber → Ends rest) → value depth (text ++ rest) = .ok (v, rest)
  | .items vs => ∀ isFirst lead rest, Lead isFirst lead →
      Turns moreItems (value depth) isFirst (lead ++ (text ++ ']' :: rest)) vs (']' :: rest)
  | .members ms => ∀ isFirst lead rest, Lead isFirst lead →
      Turns moreMembers (member (value depth)) isFirst (lead ++ (text ++ '}' :: rest)) ms
        ('}' :: rest)

/-- Values that are no containers are read the same way at every depth. -/
theorem value_of_dispatch {v : Json}
    (h : ∀ array object,
      Dispatch ⟨.null, .bool, .number <$> number, .string <$> quoted, array, object⟩ s v t) :
    value depth s = .ok (v, t) := by
  cases depth with
  | zero => exact Kinds.scan_eq_ok.mpr ⟨[], s, .nil, rfl, h _ _⟩
  | succ depth => exact Kinds.scan_eq_ok.mpr ⟨[], s, .nil, rfl, h _ _⟩

theorem value_array {vs : List Json} {rest : List Char}
    (h : Turns moreItems (value depth) true s vs (']' :: rest)) :
    value (depth + 1) ('[' :: s) = .ok (.array vs, rest) := by
  have hlength := h.length_le length_le_of_moreItems fun _ => length_lt_of_value
  have hitems : items moreItems (value depth) s = .ok (vs, ']' :: rest) :=
    items_of_turns h (by omega)
  exact Kinds.scan_eq_ok.mpr ⟨[], _, .nil, rfl,
    .array (map_eq_ok.mpr ⟨vs, enclosed_cons.mpr ⟨_, hitems, rfl⟩, rfl⟩)⟩

theorem value_object {ms : List (String × Json)} {rest : List Char}
    (h : Turns moreMembers (member (value depth)) true s ms ('}' :: rest)) :
    value (depth + 1) ('{' :: s) = .ok (.object ms, rest) := by
  have hlength := h.length_le length_le_of_moreMembers length_lt_of_member
  have hitems : items moreMembers (member (value depth)) s = .ok (ms, '}' :: rest) :=
    items_of_turns h (by omega)
  exact Kinds.scan_eq_ok.mpr ⟨[], _, .nil, rfl,
    .object (map_eq_ok.mpr ⟨ms, enclosed_cons.mpr ⟨_, hitems, rfl⟩, rfl⟩)⟩

theorem member_append {keyText middle blanks text rest : List Char} {key : String} {v : Json}
    (hkey : StringText keyText key) (hmiddle : Blanks middle) (hblanks : Blanks blanks)
    (hvalue : value depth (text ++ rest) = .ok (v, rest)) :
    member (value depth) (keyText ++ (middle ++ ':' :: (blanks ++ (text ++ rest)))) =
      .ok ((key, v), rest) := by
  refine (bind_of_ok (quoted_append hkey)).trans ?_
  refine (bind_of_ok (colon_eq_ok.mpr ⟨middle, hmiddle, rfl⟩)).trans ?_
  exact (bind_of_ok ((value_blanks hblanks).trans hvalue)).trans rfl

/-- The turn of an item, wherever its text stands. -/
theorem turn_item {isFirst : Bool} {lead before text : List Char} {v : Json} {vs : List Json}
    (hlead : Lead isFirst lead) (hbefore : Blanks before) (hvalue : Denotes depth text (.value v))
    (hitem : value depth (text ++ s) = .ok (v, s))
    (hrest : Turns moreItems (value depth) false s vs t) :
    Turns moreItems (value depth) isFirst (lead ++ (before ++ (text ++ s))) (v :: vs) t := by
  obtain ⟨c, more, rfl, hblank, hc, -⟩ := head_denotes hvalue
  apply Turns.turn _ hitem hrest
  exact moreItems_eq_true.mpr ⟨lead, before, c, _, hlead, hbefore, rfl, rfl, hblank, hc⟩

/-- The turn of a member, wherever its text stands. -/
theorem turn_member {isFirst : Bool} {lead before keyText middle blanks text : List Char}
    {key : String} {v : Json} {ms : List (String × Json)} (hlead : Lead isFirst lead)
    (hbefore : Blanks before) (hkey : StringText keyText key) (hmiddle : Blanks middle)
    (hblanks : Blanks blanks) (hvalue : value depth (text ++ s) = .ok (v, s))
    (hrest : Turns moreMembers (member (value depth)) false s ms t) :
    Turns moreMembers (member (value depth)) isFirst
      (lead ++ (before ++ (keyText ++ (middle ++ ':' :: (blanks ++ (text ++ s))))))
      ((key, v) :: ms) t := by
  have hitem := member_append hkey hmiddle hblanks hvalue
  cases hkey with
  | quoted =>
      apply Turns.turn _ hitem hrest
      exact moreMembers_eq_true.mpr ⟨lead, before, _, hlead, hbefore, rfl, rfl⟩

theorem ends_comma (rest : List Char) : Ends (',' :: rest) := .cons (by decide)

theorem ends_bracket (rest : List Char) : Ends (']' :: rest) := .cons (by decide)

theorem ends_brace (rest : List Char) : Ends ('}' :: rest) := .cons (by decide)

/-- Whatever the grammar has is read, up to where it ends. -/
theorem accepts_of_denotes {text : List Char} {phrase : Phrase} (h : Denotes depth text phrase) :
    Accepts depth text phrase := by
  induction h with
  | null => exact fun _ _ => value_of_dispatch fun _ _ => .null
  | true => exact fun _ _ => value_of_dispatch fun _ _ => .true
  | false => exact fun _ _ => value_of_dispatch fun _ _ => .false
  | @number depth text l n hl hn =>
      intro rest hrest
      have hnumber := number_append hl hn (hrest rfl)
      have hdenotes : Denotes depth text (.value (.number n)) := .number hl hn
      obtain ⟨c, more, rfl, -, -, hc⟩ := head_denotes hdenotes
      exact value_of_dispatch fun _ _ => .number hc (map_eq_ok.mpr ⟨n, hnumber, rfl⟩)
  | @string depth text string hs =>
      intro rest _
      have hquoted : quoted (text ++ rest) = .ok (string, rest) := quoted_append hs
      cases hs with
      | quoted => exact value_of_dispatch fun _ _ => .string (map_eq_ok.mpr ⟨_, hquoted, rfl⟩)
  | emptyArray hb =>
      intro rest _
      refine value_array (.done (moreItems_eq_false.mpr ⟨_, rest, hb, ?_, rfl⟩))
      simp
  | array _ ih =>
      intro rest _
      have hturns := ih true [] rest .first
      exact value_array (by simpa using hturns)
  | emptyObject hb =>
      intro rest _
      refine value_object (.done (moreMembers_eq_false.mpr ⟨_, rest, hb, ?_, rfl⟩))
      simp
  | object _ ih =>
      intro rest _
      have hturns := ih true [] rest .first
      exact value_object (by simpa using hturns)
  | lastItem hbefore hvalue hafter ih =>
      intro isFirst lead rest hlead
      have hitem := ih _ fun _ => Ends.blanks_append hafter (ends_bracket rest)
      have hend : moreItems false _ = .ok (false, ']' :: rest) :=
        moreItems_eq_false.mpr ⟨_, rest, hafter, rfl, rfl⟩
      simpa using turn_item hlead hbefore hvalue hitem (.done hend)
  | @item _ _ _ _ more _ _ hbefore hvalue hafter _ ih ihMore =>
      intro isFirst lead rest hlead
      have hitem := ih _ fun _ => Ends.blanks_append hafter (ends_comma (more ++ ']' :: rest))
      have hmore := ihMore false _ rest (.later hafter)
      simpa using turn_item hlead hbefore hvalue hitem (by simpa using hmore)
  | lastMember hbefore hkey hmiddle hblanks _ hafter ih =>
      intro isFirst lead rest hlead
      have hvalue := ih _ fun _ => Ends.blanks_append hafter (ends_brace rest)
      have hend : moreMembers false _ = .ok (false, '}' :: rest) :=
        moreMembers_eq_false.mpr ⟨_, rest, hafter, rfl, rfl⟩
      simpa using turn_member hlead hbefore hkey hmiddle hblanks hvalue (.done hend)
  | @member _ _ _ _ _ _ _ more _ _ _ hbefore hkey hmiddle hblanks _ hafter _ ih ihMore =>
      intro isFirst lead rest hlead
      have hvalue := ih _ fun _ => Ends.blanks_append hafter (ends_comma (more ++ '}' :: rest))
      have hmore := ihMore false _ rest (.later hafter)
      simpa using turn_member hlead hbefore hkey hmiddle hblanks hvalue (by simpa using hmore)

theorem finish_eq_ok : finish s = .ok ((), t) ↔ Blanks s ∧ t = [] := by
  rw [← dropBlanks_eq_nil]
  rw [finish]
  split
  · next h => simp [h, eq_comm]
  · next h => simp [h, refuseNext]

theorem onDocument_eq_ok {α : Type} {x : Scan α} {a : α} :
    x.onDocument s = .ok a ↔ ∃ t, x s = .ok (a, t) ∧ Blanks t := by
  have hrun : x.onDocument s = .ok a ↔
      ∃ t, (do let a ← x; finish; return a : Scan α) s = .ok (a, t) := by
    rw [onDocument]
    split <;> simp_all
  rw [hrun]
  constructor
  · rintro ⟨t, h⟩
    obtain ⟨a', u, hx, h⟩ := bind_eq_ok.mp h
    obtain ⟨_, v, hfinish, h⟩ := bind_eq_ok.mp h
    cases pure_eq_ok.mp h
    exact ⟨u, hx, (finish_eq_ok.mp hfinish).1⟩
  · rintro ⟨t, hx, hb⟩
    exact ⟨[], (bind_of_ok hx).trans (bind_of_ok (finish_eq_ok.mpr ⟨hb, rfl⟩))⟩

theorem onDocument_map {α β : Type} (x : Scan α) (f : α → β) :
    (f <$> x).onDocument s = f <$> x.onDocument s := by
  have hrun : (do let b ← f <$> x; finish; return b : Scan β) s =
      (fun r : α × List Char => (f r.1, r.2)) <$> (do let a ← x; finish; return a : Scan α) s := by
    change ((x s).map _ >>= _) = _ <$> (x s >>= _)
    cases x s with
    | error fault => rfl
    | ok r =>
        obtain ⟨a, t⟩ := r
        change (finish t >>= _) = _ <$> (finish t >>= _)
        cases finish t <;> rfl
  rw [onDocument, onDocument, hrun]
  cases (do let a ← x; finish; return a : Scan α) s with
  | ok r => rfl
  | error fault => cases fault <;> rfl

/-- A problem that no container gave a place has none. -/
theorem onDocument_of_unplaced {α : Type} {x : Scan α} {problem : Problem} {rest : List Char}
    (h : x s = .error (.unplaced problem rest)) : x.onDocument s = .error ⟨problem, none⟩ := by
  rw [onDocument, bind_of_error h]

end Scan

/-- The reader accepts exactly the documents. -/
theorem parseRaw_eq_ok {text : List Char} {v : Json} : parseRaw text = .ok v ↔ Document text v := by
  rw [parseRaw, Scan.onDocument_eq_ok]
  constructor
  · rintro ⟨t, h, ht⟩
    obtain ⟨blanks, text, hb, rfl, htext⟩ := Scan.sound_value maxDepth h
    exact .around hb htext ht
  · rintro ⟨hbefore, hvalue, hafter⟩
    refine ⟨_, ?_, hafter⟩
    rw [Scan.value_blanks hbefore]
    refine Scan.accepts_of_denotes hvalue _ fun _ => ?_
    simpa using Ends.blanks_append hafter .nil

theorem parse_eq_ok {text : List Char} {v : Json} :
    parse text = .ok v ↔ ∃ raw, Document text raw ∧ raw.collated = v := by
  rw [parse, map_eq_ok_iff]
  simp only [parseRaw_eq_ok]

end LatencyProbe.Json
