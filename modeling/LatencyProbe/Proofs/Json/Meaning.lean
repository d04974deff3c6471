import LatencyProbe.Proofs.Json.Collation
import LatencyProbe.Proofs.Json.Trees
import Mathlib.Data.List.Forall2

/-!
# What a document says

`Means` relates a tree to the value that it says: numbers by their lexemes, arrays item by item,
and an object by its look-ups alone, under each key what the last member with that key says. So
neither the order of the members nor those that are overwritten matter.

A text is read if it spells a tree whose containers are not nested too deep and whose numbers are
all in range, and then it is read as what that tree means (`parse_eq_ok_iff`).
-/

namespace LatencyProbe.Json

/-- A number that is not refused for its size. -/
def Lexeme.InRange (l : Lexeme) : Prop := ∃ n, l.toNumber = .ok n

/-- What a tree says. -/
inductive Means : Tree → Json → Prop
  | null : Means .null .null
  | bool {b} : Means (.bool b) (.bool b)
  | number {l n} : l.toNumber = .ok n → Means (.number l) (.number n)
  | string {s} : Means (.string s) (.string s)
  | array {ts vs} : List.Forall₂ Means ts vs → Means (.array ts) (.array vs)
  | object {ms : List (String × Tree)} {members : List (String × Json)} : Ascending members →
      (∀ key, Option.Rel Means (ms.reverse.lookup key) (members.lookup key)) →
      Means (.object ms) (.object members)

namespace Tree

mutual

/-- How many containers are inside one another at most. -/
def depth : Tree → Nat
  | .array items => depthItems items + 1
  | .object members => depthMembers members + 1
  | _ => 0

/-- The greatest depth of the items of an array. -/
def depthItems : List Tree → Nat
  | [] => 0
  | item :: rest => max item.depth (depthItems rest)

/-- The greatest depth of the members of an object. -/
def depthMembers : List (String × Tree) → Nat
  | [] => 0
  | (_, value) :: rest => max value.depth (depthMembers rest)

end

mutual

/-- The numbers of a tree, overwritten ones and all. -/
def lexemes : Tree → List Lexeme
  | .number l => [l]
  | .array items => lexemesItems items
  | .object members => lexemesMembers members
  | _ => []

/-- The numbers of the items of an array. -/
def lexemesItems : List Tree → List Lexeme
  | [] => []
  | item :: rest => item.lexemes ++ lexemesItems rest

/-- The numbers of the members of an object. -/
def lexemesMembers : List (String × Tree) → List Lexeme
  | [] => []
  | (_, value) :: rest => value.lexemes ++ lexemesMembers rest

end

mutual

/-- The value of a tree with its members as they stand. A number out of range has none. -/
def toJson : Tree → Json
  | .null => .null
  | .bool b => .bool b
  | .number l => l.toNumber.toOption.elim .null .number
  | .string s => .string s
  | .array items => .array (toJsonItems items)
  | .object members => .object (toJsonMembers members)

/-- The values of the items of an array. -/
def toJsonItems : List Tree → List Json
  | [] => []
  | item :: rest => item.toJson :: toJsonItems rest

/-- The values of the members of an object. -/
def toJsonMembers : List (String × Tree) → List (String × Json)
  | [] => []
  | (key, value) :: rest => (key, value.toJson) :: toJsonMembers rest

end

theorem toJsonItems_eq_map (items : List Tree) : toJsonItems items = items.map toJson := by
  induction items with
  | nil => rfl
  | cons item rest ih => rw [toJsonItems, ih, List.map_cons]

theorem toJsonMembers_eq_map (members : List (String × Tree)) :
    toJsonMembers members = members.map fun m => (m.1, m.2.toJson) := by
  induction members with
  | nil => rfl
  | cons member rest ih => rw [toJsonMembers, ih, List.map_cons]

theorem lexemesItems_eq_flatMap (items : List Tree) :
    lexemesItems items = items.flatMap lexemes := by
  induction items with
  | nil => rfl
  | cons item rest ih => rw [lexemesItems, ih, List.flatMap_cons]

theorem lexemesMembers_eq_flatMap (members : List (String × Tree)) :
    lexemesMembers members = members.flatMap fun m => m.2.lexemes := by
  induction members with
  | nil => rfl
  | cons member rest ih => rw [lexemesMembers, ih, List.flatMap_cons]

/-- All numbers of a tree are in range. -/
def InRange (t : Tree) : Prop := ∀ l ∈ t.lexemes, l.InRange

theorem InRange.item {items : List Tree} (h : (array items).InRange) : ∀ t ∈ items, t.InRange := by
  rw [InRange, lexemes, lexemesItems_eq_flatMap] at h
  exact fun t ht l hl => h l (List.mem_flatMap.mpr ⟨t, ht, hl⟩)

theorem InRange.member {members : List (String × Tree)} (h : (object members).InRange) :
    ∀ m ∈ members, m.2.InRange := by
  rw [InRange, lexemes, lexemesMembers_eq_flatMap] at h
  exact fun m hm l hl => h l (List.mem_flatMap.mpr ⟨m, hm, hl⟩)

theorem toJson_number {l : Lexeme} {n : Number} (h : l.toNumber = .ok n) :
    (Tree.number l).toJson = .number n := by
  rw [toJson, h]
  rfl

end Tree

theorem forall₂_iff_eq_map {α β : Type} {R : α → β → Prop} {f : α → β} {as : List α}
    (h : ∀ a ∈ as, ∀ b, R a b ↔ b = f a) (bs : List β) : List.Forall₂ R as bs ↔ bs = as.map f := by
  induction as generalizing bs with
  | nil => simp
  | cons a as ih =>
      obtain ⟨ha, has⟩ := List.forall_mem_cons.mp h
      rw [List.forall₂_cons_left_iff, List.map_cons]
      constructor
      · rintro ⟨b, rest, hb, hrest, rfl⟩
        rw [(ha b).mp hb, (ih has rest).mp hrest]
      · intro hbs
        exact ⟨f a, as.map f, (ha _).mpr rfl, (ih has _).mpr rfl, hbs⟩

theorem rel_iff_eq_map {α β : Type} {R : α → β → Prop} {f : α → β} {x : Option α} {y : Option β}
    (h : ∀ a ∈ x, ∀ b, R a b ↔ b = f a) : Option.Rel R x y ↔ y = x.map f := by
  cases x with
  | none =>
      cases y with
      | none => exact iff_of_true .none rfl
      | some b => exact iff_of_false nofun nofun
  | some a =>
      cases y with
      | none => exact iff_of_false nofun nofun
      | some b =>
          rw [Option.rel_some_some, h a rfl b, Option.map_some, Option.some.injEq]

/-- A tree whose numbers are in range says one thing. -/
theorem means_iff {t : Tree} (h : t.InRange) {v : Json} : Means t v ↔ v = t.toJson.collated := by
  induction t using Tree.ofParts generalizing v with
  | null | bool | string =>
      constructor
      · intro hv
        cases hv
        rfl
      · rintro rfl
        constructor
  | number l =>
      obtain ⟨n, hn⟩ := h l (List.mem_singleton_self l)
      rw [Tree.toJson_number hn]
      constructor
      · rintro (_ | _ | hm)
        rw [hn] at hm
        rw [Except.ok.inj hm]
        rfl
      · rintro rfl
        exact .number hn
  | array items ih =>
      have hitems : ∀ t ∈ items, ∀ v, Means t v ↔ v = t.toJson.collated :=
        fun t ht v => ih t ht (h.item t ht)
      rw [Tree.toJson, Tree.toJsonItems_eq_map, collated_array, List.map_map]
      constructor
      · rintro (_ | _ | _ | _ | hvs)
        rw [(forall₂_iff_eq_map hitems _).mp hvs]
        rfl
      · rintro rfl
        exact .array ((forall₂_iff_eq_map hitems _).mpr rfl)
  | object members ih =>
      have hlast (key : String) (y : Option Json) :
          Option.Rel Means (members.reverse.lookup key) y ↔
            y = (members.reverse.lookup key).map fun t => t.toJson.collated := by
        apply rel_iff_eq_map
        intro t ht v
        have hmem := List.mem_reverse.mp (mem_of_lookup ht)
        exact ih _ hmem (h.member _ hmem)
      have hcollated : (Tree.object members).toJson.collated =
          .object (sortMembers (members.map fun m => (m.1, m.2.toJson.collated))) := by
        rw [Tree.toJson, Tree.toJsonMembers_eq_map, collated_object, List.map_map]
        rfl
      have hsorted (key : String) :
          (sortMembers (members.map fun m => (m.1, m.2.toJson.collated))).lookup key =
            (members.reverse.lookup key).map fun t => t.toJson.collated := by
        rw [lookup_sortMembers, ← List.map_reverse,
          lookup_map_snd key fun t : Tree => t.toJson.collated]
      rw [hcollated]
      constructor
      · rintro (_ | _ | _ | _ | _ | ⟨hascending, hrel⟩)
        congr 1
        apply hascending.eq_of_lookup (ascending_sortMembers _)
        intro key
        rw [(hlast key _).mp (hrel key), hsorted]
      · rintro rfl
        refine .object (ascending_sortMembers _) ?_
        intro key
        exact (hlast key _).mpr (hsorted key)

namespace Tree.Part

/-- How deep a part is nested inside the container that it stands in. -/
def depth : Part → Nat
  | .value t => t.depth
  | .items ts => depthItems ts
  | .members ms => depthMembers ms

/-- The numbers of a part. -/
def lexemes : Part → List Lexeme
  | .value t => t.lexemes
  | .items ts => lexemesItems ts
  | .members ms => lexemesMembers ms

/-- The values of a part. -/
def toPhrase : Part → Phrase
  | .value t => .value t.toJson
  | .items ts => .items (toJsonItems ts)
  | .members ms => .members (toJsonMembers ms)

/-- A part that may stand in a document that is read, inside `d` containers less than the most. -/
structure Fits (d : Nat) (part : Part) : Prop where
  depth_le : part.depth ≤ d
  inRange : ∀ l ∈ part.lexemes, l.InRange

variable {d : Nat} {key : String} {t : Tree} {ts : List Tree} {ms : List (String × Tree)}

theorem fits_nil_items : (items []).Fits d := ⟨Nat.zero_le d, nofun⟩

theorem fits_nil_members : (members []).Fits d := ⟨Nat.zero_le d, nofun⟩

theorem fits_number {l : Lexeme} : (value (.number l)).Fits d ↔ l.InRange :=
  ⟨fun h => h.inRange l (List.mem_singleton_self l),
    fun h => ⟨Nat.zero_le d, List.forall_mem_singleton.mpr h⟩⟩

theorem fits_array : (value (.array ts)).Fits (d + 1) ↔ (items ts).Fits d :=
  ⟨fun h => ⟨Nat.le_of_succ_le_succ h.depth_le, h.inRange⟩,
    fun h => ⟨Nat.succ_le_succ h.depth_le, h.inRange⟩⟩

theorem fits_object : (value (.object ms)).Fits (d + 1) ↔ (members ms).Fits d :=
  ⟨fun h => ⟨Nat.le_of_succ_le_succ h.depth_le, h.inRange⟩,
    fun h => ⟨Nat.succ_le_succ h.depth_le, h.inRange⟩⟩

theorem fits_cons_items : (items (t :: ts)).Fits d ↔ (value t).Fits d ∧ (items ts).Fits d := by
  constructor
  · intro ⟨hdepth, hrange⟩
    obtain ⟨hitem, hrest⟩ := max_le_iff.mp hdepth
    obtain ⟨ritem, rrest⟩ := List.forall_mem_append.mp hrange
    exact ⟨⟨hitem, ritem⟩, ⟨hrest, rrest⟩⟩
  · rintro ⟨⟨hitem, ritem⟩, ⟨hrest, rrest⟩⟩
    exact ⟨max_le hitem hrest, List.forall_mem_append.mpr ⟨ritem, rrest⟩⟩

theorem fits_cons_members :
    (members ((key, t) :: ms)).Fits d ↔ (value t).Fits d ∧ (members ms).Fits d := by
  constructor
  · intro ⟨hdepth, hrange⟩
    obtain ⟨hvalue, hrest⟩ := max_le_iff.mp hdepth
    obtain ⟨rvalue, rrest⟩ := List.forall_mem_append.mp hrange
    exact ⟨⟨hvalue, rvalue⟩, ⟨hrest, rrest⟩⟩
  · rintro ⟨⟨hvalue, rvalue⟩, ⟨hrest, rrest⟩⟩
    exact ⟨max_le hvalue hrest, List.forall_mem_append.mpr ⟨rvalue, rrest⟩⟩

end Tree.Part

open Tree.Part

/-- Whatever is spelled is a text of its value, if the numbers have values and the depth allows. -/
theorem denotes_of_spells {d : Nat} {text : List Char} {part : Tree.Part} (h : Spells text part)
    (fits : part.Fits d) : Denotes d text part.toPhrase := by
  induction h generalizing d with
  | null => exact .null
  | true => exact .true
  | false => exact .false
  | number hl =>
      obtain ⟨n, hn⟩ := fits_number.mp fits
      rw [toPhrase, Tree.toJson_number hn]
      exact .number hl hn
  | string hs => exact .string hs
  | emptyArray hb =>
      obtain ⟨d, rfl⟩ := Nat.exists_eq_add_one.mpr (Nat.zero_lt_of_lt fits.depth_le)
      exact .emptyArray hb
  | array _ ih =>
      obtain ⟨d, rfl⟩ := Nat.exists_eq_add_one.mpr (Nat.zero_lt_of_lt fits.depth_le)
      exact .array (ih (fits_array.mp fits))
  | emptyObject hb =>
      obtain ⟨d, rfl⟩ := Nat.exists_eq_add_one.mpr (Nat.zero_lt_of_lt fits.depth_le)
      exact .emptyObject hb
  | object _ ih =>
      obtain ⟨d, rfl⟩ := Nat.exists_eq_add_one.mpr (Nat.zero_lt_of_lt fits.depth_le)
      exact .object (ih (fits_object.mp fits))
  | lastItem hbefore _ hafter ih =>
      exact .lastItem hbefore (ih (fits_cons_items.mp fits).1) hafter
  | item hbefore _ hafter _ ih ihMore =>
      obtain ⟨hitem, hrest⟩ := fits_cons_items.mp fits
      exact .item hbefore (ih hitem) hafter (ihMore hrest)
  | lastMember hbefore hkey hmiddle hblanks _ hafter ih =>
      exact .lastMember hbefore hkey hmiddle hblanks (ih (fits_cons_members.mp fits).1) hafter
  | member hbefore hkey hmiddle hblanks _ hafter _ ih ihMore =>
      obtain ⟨hvalue, hrest⟩ := fits_cons_members.mp fits
      exact .member hbefore hkey hmiddle hblanks (ih hvalue) hafter (ihMore hrest)

theorem exists_of_toPhrase_eq_value {part : Tree.Part} {v : Json} (h : part.toPhrase = .value v) :
    ∃ t, part = .value t ∧ t.toJson = v := by
  cases part with
  | value t => exact ⟨t, rfl, Phrase.value.inj h⟩
  | items | members => cases h

theorem exists_of_toPhrase_eq_items {part : Tree.Part} {vs : List Json}
    (h : part.toPhrase = .items vs) : ∃ ts, part = .items ts ∧ Tree.toJsonItems ts = vs := by
  cases part with
  | items ts => exact ⟨ts, rfl, Phrase.items.inj h⟩
  | value | members => cases h

theorem exists_of_toPhrase_eq_members {part : Tree.Part} {vs : List (String × Json)}
    (h : part.toPhrase = .members vs) :
    ∃ ms, part = .members ms ∧ Tree.toJsonMembers ms = vs := by
  cases part with
  | members ms => exact ⟨ms, rfl, Phrase.members.inj h⟩
  | value | items => cases h

/-- Whatever is a text of a value is spelled. -/
theorem spells_of_denotes {d : Nat} {text : List Char} {phrase : Phrase}
    (h : Denotes d text phrase) :
    ∃ part : Tree.Part, Spells text part ∧ part.Fits d ∧ part.toPhrase = phrase := by
  induction h with
  | null => exact ⟨_, .null, ⟨Nat.zero_le _, nofun⟩, rfl⟩
  | true => exact ⟨_, .true, ⟨Nat.zero_le _, nofun⟩, rfl⟩
  | false => exact ⟨_, .false, ⟨Nat.zero_le _, nofun⟩, rfl⟩
  | number hl hn =>
      refine ⟨_, .number hl, fits_number.mpr ⟨_, hn⟩, ?_⟩
      rw [toPhrase, Tree.toJson_number hn]
  | string hs => exact ⟨_, .string hs, ⟨Nat.zero_le _, nofun⟩, rfl⟩
  | emptyArray hb => exact ⟨_, .emptyArray hb, fits_array.mpr fits_nil_items, rfl⟩
  | array _ ih =>
      obtain ⟨_, hspells, hfits, hphrase⟩ := ih
      obtain ⟨ts, rfl, rfl⟩ := exists_of_toPhrase_eq_items hphrase
      exact ⟨_, .array hspells, fits_array.mpr hfits, rfl⟩
  | emptyObject hb => exact ⟨_, .emptyObject hb, fits_object.mpr fits_nil_members, rfl⟩
  | object _ ih =>
      obtain ⟨_, hspells, hfits, hphrase⟩ := ih
      obtain ⟨ms, rfl, rfl⟩ := exists_of_toPhrase_eq_members hphrase
      exact ⟨_, .object hspells, fits_object.mpr hfits, rfl⟩
  | lastItem hbefore _ hafter ih =>
      obtain ⟨_, hspells, hfits, hphrase⟩ := ih
      obtain ⟨t, rfl, rfl⟩ := exists_of_toPhrase_eq_value hphrase
      exact ⟨_, .lastItem hbefore hspells hafter, fits_cons_items.mpr ⟨hfits, fits_nil_items⟩, rfl⟩
  | item hbefore _ hafter _ ih ihMore =>
      obtain ⟨_, hspells, hfits, hphrase⟩ := ih
      obtain ⟨t, rfl, rfl⟩ := exists_of_toPhrase_eq_value hphrase
      obtain ⟨_, hmore, hrest, hphrases⟩ := ihMore
      obtain ⟨ts, rfl, rfl⟩ := exists_of_toPhrase_eq_items hphrases
      exact ⟨_, .item hbefore hspells hafter hmore, fits_cons_items.mpr ⟨hfits, hrest⟩, rfl⟩
  | lastMember hbefore hkey hmiddle hblanks _ hafter ih =>
      obtain ⟨_, hspells, hfits, hphrase⟩ := ih
      obtain ⟨t, rfl, rfl⟩ := exists_of_toPhrase_eq_value hphrase
      exact ⟨_, .lastMember hbefore hkey hmiddle hblanks hspells hafter,
        fits_cons_members.mpr ⟨hfits, fits_nil_members⟩, rfl⟩
  | member hbefore hkey hmiddle hblanks _ hafter _ ih ihMore =>
      obtain ⟨_, hspells, hfits, hphrase⟩ := ih
      obtain ⟨t, rfl, rfl⟩ := exists_of_toPhrase_eq_value hphrase
      obtain ⟨_, hmore, hrest, hphrases⟩ := ihMore
      obtain ⟨ms, rfl, rfl⟩ := exists_of_toPhrase_eq_members hphrases
      exact ⟨_, .member hbefore hkey hmiddle hblanks hspells hafter hmore,
        fits_cons_members.mpr ⟨hfits, hrest⟩, rfl⟩

theorem Denotes.mono {d d' : Nat} {text : List Char} {phrase : Phrase} (h : Denotes d text phrase)
    (hle : d ≤ d') : Denotes d' text phrase := by
  obtain ⟨part, hspells, hfits, rfl⟩ := spells_of_denotes h
  exact denotes_of_spells hspells ⟨hfits.depth_le.trans hle, hfits.inRange⟩

/-- The members of an object, or those that stand between its brackets. -/
def Phrase.memberList : Phrase → List (String × Json)
  | .value (.object ms) | .members ms => ms
  | _ => []

/-- Inside the text of an object every member's value has a text of its own. -/
theorem Denotes.exists_of_mem {d : Nat} {text : List Char} {phrase : Phrase}
    (h : Denotes d text phrase) {m : String × Json} (hm : m ∈ phrase.memberList) :
    ∃ inner, inner <:+: text ∧ Denotes d inner (.value m.2) := by
  induction h with
  | object _ ih =>
      obtain ⟨inner, hinner, hvalue⟩ := ih hm
      exact ⟨inner, hinner.trans (List.infix_append ['{'] _ ['}']), hvalue.mono (Nat.le_succ _)⟩
  | @lastMember _ before keyText middle blanks text after _ _ _ _ _ _ hvalue _ _ =>
      obtain rfl := List.mem_singleton.mp hm
      exact ⟨text, ⟨before ++ keyText ++ middle ++ ':' :: blanks, after, by simp⟩, hvalue⟩
  | @member _ before keyText middle blanks text after more _ _ _ _ _ _ _ hvalue _ _ _ ih =>
      rcases List.mem_cons.mp hm with rfl | hm
      · exact ⟨text, ⟨before ++ keyText ++ middle ++ ':' :: blanks, after ++ ',' :: more,
          by simp⟩, hvalue⟩
      · obtain ⟨inner, hinner, hvalue⟩ := ih hm
        refine ⟨inner, hinner.trans ?_, hvalue⟩
        exact ⟨before ++ keyText ++ middle ++ ':' :: blanks ++ text ++ after ++ [','], [], by simp⟩
  | null | true | false | number | string | emptyArray | array | emptyObject | lastItem | item =>
      cases hm

/-- Every member's value stands in a document as a document of its own. -/
theorem Document.exists_of_mem {text : List Char} {ms : List (String × Json)}
    (h : Document text (.object ms)) {m : String × Json} (hm : m ∈ ms) :
    ∃ inner, inner <:+: text ∧ Document inner m.2 := by
  cases h with
  | @around before _ after _ _ hobject _ =>
      obtain ⟨inner, hinner, hvalue⟩ := hobject.exists_of_mem hm
      have hdocument : Document ([] ++ (inner ++ [])) m.2 := .around .nil hvalue .nil
      refine ⟨inner, hinner.trans ?_, by simpa using hdocument⟩
      exact ⟨before, after, by simp⟩

/-- A document is a text that spells a tree of that value. -/
theorem document_iff {text : List Char} {v : Json} : Document text v ↔
    ∃ t, SpellsDocument text t ∧ t.depth ≤ maxDepth ∧ t.InRange ∧ t.toJson = v := by
  constructor
  · intro h
    cases h with
    | around hbefore hvalue hafter =>
        obtain ⟨_, hspells, hfits, hphrase⟩ := spells_of_denotes hvalue
        obtain ⟨t, rfl, rfl⟩ := exists_of_toPhrase_eq_value hphrase
        exact ⟨t, .around hbefore hspells hafter, hfits.depth_le, hfits.inRange, rfl⟩
  · rintro ⟨t, htext, hdepth, hrange, rfl⟩
    cases htext with
    | around hbefore hspells hafter =>
        exact .around hbefore (denotes_of_spells hspells ⟨hdepth, hrange⟩) hafter

/-- A text is read exactly if it spells a tree that is not too deep and has all its numbers in
range, and then as what the tree means. -/
theorem parse_eq_ok_iff {text : List Char} {v : Json} : parse text = .ok v ↔
    ∃ t, SpellsDocument text t ∧ t.depth ≤ maxDepth ∧ t.InRange ∧ Means t v := by
  rw [parse_eq_ok]
  constructor
  · rintro ⟨raw, hraw, rfl⟩
    obtain ⟨t, htext, hdepth, hrange, rfl⟩ := document_iff.mp hraw
    exact ⟨t, htext, hdepth, hrange, (means_iff hrange).mpr rfl⟩
  · rintro ⟨t, htext, hdepth, hrange, hmeans⟩
    rw [(means_iff hrange).mp hmeans]
    exact ⟨_, document_iff.mpr ⟨t, htext, hdepth, hrange, rfl⟩, rfl⟩

namespace Means

theorem get? {t : Tree} {v : Json} (h : Means t v) (key : String) :
    Option.Rel Means (t.get? key) (v.get? key) := by
  cases h with
  | object _ hlast => exact hlast key
  | null | bool | number | string | array => exact .none

theorem get?_get? {t : Tree} {v : Json} (h : Means t v) (part key : String) :
    Option.Rel Means ((t.get? part).bind (Tree.get? key)) ((v.get? part).bind (Json.get? key)) := by
  have hpart := h.get? part
  generalize t.get? part = x, v.get? part = y at hpart
  cases hpart with
  | some h => exact h.get? key
  | none => exact .none

end Means

end LatencyProbe.Json
