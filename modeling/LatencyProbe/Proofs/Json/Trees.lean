import LatencyProbe.Proofs.Json.Documents

/-!
# Documents as they are written

A `Tree` is a document before anything is made of it: its numbers are lexemes, and its objects have
their members in order, repeated keys and all. `Spells` is the grammar of documents over trees. It
knows neither a limit of depth nor which numbers are in range.

No text spells two trees (`SpellsDocument.unique`), so one may speak of what stands in a document.
-/

namespace LatencyProbe.Json

/-- A document as it is written. -/
inductive Tree where
  | null
  | bool (b : Bool)
  | number (l : Lexeme)
  | string (s : String)
  | array (items : List Tree)
  | object (members : List (String × Tree))

namespace Tree

/-- What holds of a container if it holds of its parts holds of every tree. -/
theorem ofParts {P : Tree → Prop} (null : P .null) (bool : ∀ b, P (.bool b))
    (number : ∀ l, P (.number l)) (string : ∀ s, P (.string s))
    (array : ∀ items, (∀ t ∈ items, P t) → P (.array items))
    (object : ∀ members, (∀ m ∈ members, P m.2) → P (.object members)) (t : Tree) : P t :=
  @Tree.rec P (fun items => ∀ t ∈ items, P t) (fun members => ∀ m ∈ members, P m.2)
    (fun m => P m.2) null bool number string array object
    (by simp) (fun _ _ hitem hrest => List.forall_mem_cons.mpr ⟨hitem, hrest⟩)
    (by simp) (fun _ _ hmember hrest => List.forall_mem_cons.mpr ⟨hmember, hrest⟩)
    (fun _ _ h => h) t

/-- The last member of an object under a key. Trees of other kinds have no members. -/
def get? (key : String) : Tree → Option Tree
  | .object members => members.reverse.lookup key
  | _ => none

/-- A tree, or what stands between the brackets of a container that is not empty. -/
inductive Part where
  | value (t : Tree)
  | items (ts : List Tree)
  | members (ms : List (String × Tree))

end Tree

/-- A text and the tree that it spells, or the part of a container. Blanks belong to the containers
that they stand in. -/
inductive Spells : List Char → Tree.Part → Prop
  | null : Spells ['n', 'u', 'l', 'l'] (.value .null)
  | true : Spells ['t', 'r', 'u', 'e'] (.value (.bool true))
  | false : Spells ['f', 'a', 'l', 's', 'e'] (.value (.bool false))
  | number {text l} : NumberText text l → Spells text (.value (.number l))
  | string {text s} : StringText text s → Spells text (.value (.string s))
  | emptyArray {blanks} : Blanks blanks → Spells ('[' :: (blanks ++ [']'])) (.value (.array []))
  | array {text ts} : Spells text (.items ts) →
      Spells ('[' :: (text ++ [']'])) (.value (.array ts))
  | emptyObject {blanks} : Blanks blanks →
      Spells ('{' :: (blanks ++ ['}'])) (.value (.object []))
  | object {text ms} : Spells text (.members ms) →
      Spells ('{' :: (text ++ ['}'])) (.value (.object ms))
  | lastItem {before text after t} : Blanks before → Spells text (.value t) → Blanks after →
      Spells (before ++ (text ++ after)) (.items [t])
  | item {before text after more t ts} : Blanks before → Spells text (.value t) → Blanks after →
      Spells more (.items ts) →
      Spells (before ++ (text ++ (after ++ ',' :: more))) (.items (t :: ts))
  | lastMember {before keyText middle blanks text after key t} : Blanks before →
      StringText keyText key → Blanks middle → Blanks blanks → Spells text (.value t) →
      Blanks after →
      Spells (before ++ (keyText ++ (middle ++ ':' :: (blanks ++ (text ++ after)))))
        (.members [(key, t)])
  | member {before keyText middle blanks text after more key t ms} : Blanks before →
      StringText keyText key → Blanks middle → Blanks blanks → Spells text (.value t) →
      Blanks after → Spells more (.members ms) →
      Spells
        (before ++ (keyText ++ (middle ++ ':' :: (blanks ++ (text ++ (after ++ ',' :: more))))))
        (.members ((key, t) :: ms))

/-- A whole text that spells a tree, with blanks around it. -/
inductive SpellsDocument : List Char → Tree → Prop
  | around {before text after t} : Blanks before → Spells text (.value t) → Blanks after →
      SpellsDocument (before ++ (text ++ after)) t

namespace Tree

/-- The kinds of trees that their first characters tell apart. -/
inductive Kind where
  | null
  | true
  | false
  | number
  | string
  | array
  | object
  deriving DecidableEq

/-- The kind of a tree. -/
def kind : Tree → Kind
  | .null => .null
  | .bool true => .true
  | .bool false => .false
  | .number _ => .number
  | .string _ => .string
  | .array _ => .array
  | .object _ => .object

/-- The kind of the trees that begin with a character. -/
def kindOf (c : Char) : Kind :=
  if c = 'n' then .null
  else if c = 't' then .true
  else if c = 'f' then .false
  else if c = '"' then .string
  else if c = '[' then .array
  else if c = '{' then .object
  else .number

end Tree

open Scan

theorem kindOf_of_startsNumber {c : Char} (h : startsNumber c) : Tree.kindOf c = .number := by
  rw [Tree.kindOf]
  split_ifs with h₁ h₂ h₃ h₄ h₅ h₆
  · subst h₁
    cases h
  · subst h₂
    cases h
  · subst h₃
    cases h
  · subst h₄
    cases h
  · subst h₅
    cases h
  · subst h₆
    cases h
  · rfl

/-- The first character of a tree's text is its own and tells the kind of the tree. -/
theorem head_spells {text : List Char} {t : Tree} (h : Spells text (.value t)) :
    ∃ c more, text = c :: more ∧ isBlank c = false ∧ c ≠ ']' ∧ Tree.kindOf c = t.kind := by
  cases h with
  | number hl =>
      obtain ⟨c, more, rfl, hc⟩ := startsNumber_of_numberText hl
      refine ⟨c, more, rfl, (ne_of_startsNumber hc).1, ?_, kindOf_of_startsNumber hc⟩
      rintro rfl
      cases hc
  | string hs =>
      cases hs with
      | quoted => exact ⟨_, _, rfl, rfl, by decide, rfl⟩
  | null | true | false | emptyArray | array | emptyObject | object =>
      exact ⟨_, _, rfl, rfl, by decide, rfl⟩

theorem dropBlanks_spells {text : List Char} {t : Tree} (h : Spells text (.value t))
    (rest : List Char) : dropBlanks (text ++ rest) = text ++ rest := by
  obtain ⟨c, more, rfl, hc, -⟩ := head_spells h
  exact dropBlanks_cons hc

theorem dropBlanks_stringText {text rest : List Char} {s : String} (h : StringText text s) :
    dropBlanks (text ++ rest) = text ++ rest := by
  cases h with
  | quoted => rfl

/-- Texts that are the same after blanks are the same. -/
theorem eq_of_blanks_append {blanks blanks' s s' : List Char} (hb : Blanks blanks)
    (hb' : Blanks blanks') (hs : dropBlanks s = s) (hs' : dropBlanks s' = s')
    (h : blanks ++ s = blanks' ++ s') : s = s' := by
  have hdrop := congrArg dropBlanks h
  rwa [dropBlanks_append hb, dropBlanks_append hb', hs, hs'] at hdrop

theorem head_spells_items {text : List Char} {ts : List Tree} (h : Spells text (.items ts)) :
    ∃ blanks c more, Blanks blanks ∧ text = blanks ++ c :: more ∧ isBlank c = false ∧ c ≠ ']' := by
  cases h with
  | lastItem hbefore ht _ | item hbefore ht _ _ =>
      obtain ⟨c, more, rfl, hc, hclose, -⟩ := head_spells ht
      exact ⟨_, c, _, hbefore, rfl, hc, hclose⟩

theorem head_spells_members {text : List Char} {ms : List (String × Tree)}
    (h : Spells text (.members ms)) :
    ∃ blanks more, Blanks blanks ∧ text = blanks ++ '"' :: more := by
  cases h with
  | lastMember hbefore hkey _ _ _ _ | member hbefore hkey _ _ _ _ _ =>
      cases hkey with
      | quoted => exact ⟨_, _, hbefore, rfl⟩

/-- What a text spells is settled before it ends: no other text that the same characters begin with
spells anything else. A number is settled only by what follows it. -/
def Settled (text : List Char) : Tree.Part → Prop
  | .value t => ∀ text' t' rest rest', Spells text' (.value t') → text ++ rest = text' ++ rest' →
      (t.kind = .number → Ends rest) → (t'.kind = .number → Ends rest') → t = t' ∧ rest = rest'
  | .items ts => ∀ text' ts' rest rest', Spells text' (.items ts') →
      text ++ ']' :: rest = text' ++ ']' :: rest' → ts = ts' ∧ rest = rest'
  | .members ms => ∀ text' ms' rest rest', Spells text' (.members ms') →
      text ++ '}' :: rest = text' ++ '}' :: rest' → ms = ms' ∧ rest = rest'

theorem kind_eq {text text' rest rest' : List Char} {t t' : Tree} (h : Spells text (.value t))
    (h' : Spells text' (.value t')) (heq : text ++ rest = text' ++ rest') : t.kind = t'.kind := by
  obtain ⟨c, more, rfl, -, -, hc⟩ := head_spells h
  obtain ⟨c', more', rfl, -, -, hc'⟩ := head_spells h'
  rw [← hc, ← hc', (List.cons.inj heq).1]

/-- A tree that is known by its kind is spelled in one way. -/
theorem settled_literal {text : List Char} {t : Tree} (h : Spells text (.value t))
    (hkind : t.kind ≠ .number ∧ t.kind ≠ .string ∧ t.kind ≠ .array ∧ t.kind ≠ .object) :
    Settled text (.value t) := by
  intro text' t' rest rest' h' heq _ _
  have hsame := kind_eq h h' heq
  cases h with
  | null | true | false =>
      cases h' with
      | null | true | false =>
          first
          | exact ⟨rfl, List.append_cancel_left heq⟩
          | cases hsame
      | _ => cases hsame
  | _ => simp [Tree.kind] at hkind

theorem settled_number {text : List Char} {l : Lexeme} (h : NumberText text l) :
    Settled text (.value (.number l)) := by
  intro text' t' rest rest' h' heq hends hends'
  have hkind := kind_eq (.number h) h' heq
  cases h' with
  | @number _ l' hl' =>
      have hread : lexeme .invalidNumber (text ++ rest) = .ok (l, rest) :=
        lexeme_append h (hends rfl)
      rw [heq, lexeme_append hl' (hends' rfl)] at hread
      cases hread
      exact ⟨rfl, rfl⟩
  | _ => cases hkind

theorem settled_string {text : List Char} {s : String} (h : StringText text s) :
    Settled text (.value (.string s)) := by
  intro text' t' rest rest' h' heq _ _
  have hkind := kind_eq (.string h) h' heq
  cases h' with
  | @string _ s' hs' =>
      have hread : quoted (text ++ rest) = .ok (s, rest) := quoted_append h
      rw [heq, quoted_append hs'] at hread
      cases hread
      exact ⟨rfl, rfl⟩
  | _ => cases hkind

theorem settled_emptyArray {blanks : List Char} (hb : Blanks blanks) :
    Settled ('[' :: (blanks ++ [']'])) (.value (.array [])) := by
  intro text' t' rest rest' h' heq _ _
  have hkind := kind_eq (.emptyArray hb) h' heq
  cases h' with
  | emptyArray hb' =>
      simp only [List.cons_append, List.append_assoc, List.nil_append, List.cons.injEq,
        true_and] at heq
      have hrest := eq_of_blanks_append hb hb' rfl rfl heq
      exact ⟨rfl, (List.cons.inj hrest).2⟩
  | array hts =>
      obtain ⟨blanks', c, more, hb', rfl, hc, hclose⟩ := head_spells_items hts
      simp only [List.cons_append, List.append_assoc, List.nil_append, List.cons.injEq,
        true_and] at heq
      have hrest := eq_of_blanks_append hb hb' rfl (dropBlanks_cons hc) heq
      exact absurd (List.cons.inj hrest).1.symm hclose
  | _ => cases hkind

theorem settled_array {text : List Char} {ts : List Tree} (h : Spells text (.items ts))
    (ih : Settled text (.items ts)) : Settled ('[' :: (text ++ [']'])) (.value (.array ts)) := by
  intro text' t' rest rest' h' heq _ _
  have hkind := kind_eq (.array h) h' heq
  cases h' with
  | emptyArray hb' =>
      obtain ⟨blanks, c, more, hb, rfl, hc, hclose⟩ := head_spells_items h
      simp only [List.cons_append, List.append_assoc, List.nil_append, List.cons.injEq,
        true_and] at heq
      have hrest := eq_of_blanks_append hb hb' (dropBlanks_cons hc) rfl heq
      exact absurd (List.cons.inj hrest).1 hclose
  | array hts =>
      simp only [List.cons_append, List.append_assoc, List.nil_append, List.cons.injEq,
        true_and] at heq
      obtain ⟨rfl, rfl⟩ := ih _ _ _ _ hts heq
      exact ⟨rfl, rfl⟩
  | _ => cases hkind

theorem settled_emptyObject {blanks : List Char} (hb : Blanks blanks) :
    Settled ('{' :: (blanks ++ ['}'])) (.value (.object [])) := by
  intro text' t' rest rest' h' heq _ _
  have hkind := kind_eq (.emptyObject hb) h' heq
  cases h' with
  | emptyObject hb' =>
      simp only [List.cons_append, List.append_assoc, List.nil_append, List.cons.injEq,
        true_and] at heq
      have hrest := eq_of_blanks_append hb hb' rfl rfl heq
      exact ⟨rfl, (List.cons.inj hrest).2⟩
  | object hms =>
      obtain ⟨blanks', more, hb', rfl⟩ := head_spells_members hms
      simp only [List.cons_append, List.append_assoc, List.nil_append, List.cons.injEq,
        true_and] at heq
      have hrest := eq_of_blanks_append hb hb' rfl rfl heq
      cases hrest
  | _ => cases hkind

theorem settled_object {text : List Char} {ms : List (String × Tree)}
    (h : Spells text (.members ms)) (ih : Settled text (.members ms)) :
    Settled ('{' :: (text ++ ['}'])) (.value (.object ms)) := by
  intro text' t' rest rest' h' heq _ _
  have hkind := kind_eq (.object h) h' heq
  cases h' with
  | emptyObject hb' =>
      obtain ⟨blanks, more, hb, rfl⟩ := head_spells_members h
      simp only [List.cons_append, List.append_assoc, List.nil_append, List.cons.injEq,
        true_and] at heq
      have hrest := eq_of_blanks_append hb hb' rfl rfl heq
      cases hrest
  | object hms =>
      simp only [List.cons_append, List.append_assoc, List.nil_append, List.cons.injEq,
        true_and] at heq
      obtain ⟨rfl, rfl⟩ := ih _ _ _ _ hms heq
      exact ⟨rfl, rfl⟩
  | _ => cases hkind

/-- The texts of an item agree after the blanks in front of them. -/
theorem settled_front {before before' text text' s s' : List Char} {t t' : Tree}
    (hbefore : Blanks before) (hbefore' : Blanks before') (h : Spells text (.value t))
    (h' : Spells text' (.value t')) (ih : Settled text (.value t))
    (hends : Ends s) (hends' : Ends s')
    (heq : before ++ (text ++ s) = before' ++ (text' ++ s')) : t = t' ∧ s = s' :=
  ih _ _ _ _ h'
    (eq_of_blanks_append hbefore hbefore' (dropBlanks_spells h s) (dropBlanks_spells h' s') heq)
    (fun _ => hends) (fun _ => hends')

/-- The texts of a member agree after the blanks in front of them. -/
theorem settled_member_front {before before' keyText keyText' middle middle' blanks blanks' text
    text' s s' : List Char} {key key' : String} {t t' : Tree} (hbefore : Blanks before)
    (hbefore' : Blanks before') (hkey : StringText keyText key) (hkey' : StringText keyText' key')
    (hmiddle : Blanks middle) (hmiddle' : Blanks middle') (hblanks : Blanks blanks)
    (hblanks' : Blanks blanks') (h : Spells text (.value t)) (h' : Spells text' (.value t'))
    (ih : Settled text (.value t)) (hends : Ends s) (hends' : Ends s')
    (heq : before ++ (keyText ++ (middle ++ ':' :: (blanks ++ (text ++ s)))) =
      before' ++ (keyText' ++ (middle' ++ ':' :: (blanks' ++ (text' ++ s'))))) :
    key = key' ∧ t = t' ∧ s = s' := by
  have hfront := eq_of_blanks_append hbefore hbefore' (dropBlanks_stringText hkey)
    (dropBlanks_stringText hkey') heq
  have hread : quoted (keyText ++ (middle ++ ':' :: (blanks ++ (text ++ s)))) =
      .ok (key, middle ++ ':' :: (blanks ++ (text ++ s))) := quoted_append hkey
  rw [hfront, quoted_append hkey', Except.ok.injEq, Prod.mk.injEq] at hread
  obtain ⟨rfl, hmid⟩ := hread
  have hcolon := eq_of_blanks_append hmiddle' hmiddle rfl rfl hmid
  have hvalue := (List.cons.inj hcolon).2.symm
  exact ⟨rfl, settled_front hblanks hblanks' h h' ih hends hends' hvalue⟩

section Lists

variable {before keyText middle blanks text after more : List Char} {key : String} {t : Tree}

theorem settled_lastItem (hbefore : Blanks before) (h : Spells text (.value t))
    (hafter : Blanks after) (ih : Settled text (.value t)) :
    Settled (before ++ (text ++ after)) (.items [t]) := by
  intro text' ts' rest rest' h' heq
  have hends := Ends.blanks_append hafter (ends_bracket rest)
  cases h' with
  | lastItem hbefore' ht' hafter' =>
      simp only [List.append_assoc] at heq
      obtain ⟨rfl, hs⟩ := settled_front hbefore hbefore' h ht' ih hends
        (Ends.blanks_append hafter' (ends_bracket rest')) heq
      have hrest := eq_of_blanks_append hafter hafter' rfl rfl hs
      exact ⟨rfl, (List.cons.inj hrest).2⟩
  | @item _ _ _ more' _ _ hbefore' ht' hafter' _ =>
      simp only [List.append_assoc, List.cons_append] at heq
      obtain ⟨-, hs⟩ := settled_front hbefore hbefore' h ht' ih hends
        (Ends.blanks_append hafter' (ends_comma (more' ++ ']' :: rest'))) heq
      cases eq_of_blanks_append hafter hafter' rfl rfl hs

theorem settled_item {ts : List Tree} (hbefore : Blanks before) (h : Spells text (.value t))
    (hafter : Blanks after) (ih : Settled text (.value t)) (ihMore : Settled more (.items ts)) :
    Settled (before ++ (text ++ (after ++ ',' :: more))) (.items (t :: ts)) := by
  intro text' ts' rest rest' h' heq
  have hends := Ends.blanks_append hafter (ends_comma (more ++ ']' :: rest))
  cases h' with
  | lastItem hbefore' ht' hafter' =>
      simp only [List.append_assoc, List.cons_append] at heq
      obtain ⟨-, hs⟩ := settled_front hbefore hbefore' h ht' ih hends
        (Ends.blanks_append hafter' (ends_bracket rest')) heq
      cases eq_of_blanks_append hafter hafter' rfl rfl hs
  | @item _ _ _ more' _ _ hbefore' ht' hafter' hmore' =>
      simp only [List.append_assoc, List.cons_append] at heq
      obtain ⟨rfl, hs⟩ := settled_front hbefore hbefore' h ht' ih hends
        (Ends.blanks_append hafter' (ends_comma (more' ++ ']' :: rest'))) heq
      have hcomma := eq_of_blanks_append hafter hafter' rfl rfl hs
      obtain ⟨rfl, rfl⟩ := ihMore _ _ _ _ hmore' (List.cons.inj hcomma).2
      exact ⟨rfl, rfl⟩

theorem settled_lastMember (hbefore : Blanks before) (hkey : StringText keyText key)
    (hmiddle : Blanks middle) (hblanks : Blanks blanks) (h : Spells text (.value t))
    (hafter : Blanks after) (ih : Settled text (.value t)) :
    Settled (before ++ (keyText ++ (middle ++ ':' :: (blanks ++ (text ++ after)))))
      (.members [(key, t)]) := by
  intro text' ms' rest rest' h' heq
  have hends := Ends.blanks_append hafter (ends_brace rest)
  cases h' with
  | lastMember hbefore' hkey' hmiddle' hblanks' ht' hafter' =>
      simp only [List.append_assoc, List.cons_append] at heq
      obtain ⟨rfl, rfl, hs⟩ := settled_member_front hbefore hbefore' hkey hkey' hmiddle hmiddle'
        hblanks hblanks' h ht' ih hends (Ends.blanks_append hafter' (ends_brace rest')) heq
      have hrest := eq_of_blanks_append hafter hafter' rfl rfl hs
      exact ⟨rfl, (List.cons.inj hrest).2⟩
  | @member _ _ _ _ _ _ more' _ _ _ hbefore' hkey' hmiddle' hblanks' ht' hafter' _ =>
      simp only [List.append_assoc, List.cons_append] at heq
      obtain ⟨-, -, hs⟩ := settled_member_front hbefore hbefore' hkey hkey' hmiddle hmiddle'
        hblanks hblanks' h ht' ih hends
        (Ends.blanks_append hafter' (ends_comma (more' ++ '}' :: rest'))) heq
      cases eq_of_blanks_append hafter hafter' rfl rfl hs

theorem settled_member {ms : List (String × Tree)} (hbefore : Blanks before)
    (hkey : StringText keyText key) (hmiddle : Blanks middle) (hblanks : Blanks blanks)
    (h : Spells text (.value t)) (hafter : Blanks after) (ih : Settled text (.value t))
    (ihMore : Settled more (.members ms)) :
    Settled
      (before ++ (keyText ++ (middle ++ ':' :: (blanks ++ (text ++ (after ++ ',' :: more))))))
      (.members ((key, t) :: ms)) := by
  intro text' ms' rest rest' h' heq
  have hends := Ends.blanks_append hafter (ends_comma (more ++ '}' :: rest))
  cases h' with
  | lastMember hbefore' hkey' hmiddle' hblanks' ht' hafter' =>
      simp only [List.append_assoc, List.cons_append] at heq
      obtain ⟨-, -, hs⟩ := settled_member_front hbefore hbefore' hkey hkey' hmiddle hmiddle'
        hblanks hblanks' h ht' ih hends (Ends.blanks_append hafter' (ends_brace rest')) heq
      cases eq_of_blanks_append hafter hafter' rfl rfl hs
  | @member _ _ _ _ _ _ more' _ _ _ hbefore' hkey' hmiddle' hblanks' ht' hafter' hmore' =>
      simp only [List.append_assoc, List.cons_append] at heq
      obtain ⟨rfl, rfl, hs⟩ := settled_member_front hbefore hbefore' hkey hkey' hmiddle hmiddle'
        hblanks hblanks' h ht' ih hends
        (Ends.blanks_append hafter' (ends_comma (more' ++ '}' :: rest'))) heq
      have hcomma := eq_of_blanks_append hafter hafter' rfl rfl hs
      obtain ⟨rfl, rfl⟩ := ihMore _ _ _ _ hmore' (List.cons.inj hcomma).2
      exact ⟨rfl, rfl⟩

end Lists

theorem settled_of_spells {text : List Char} {part : Tree.Part} (h : Spells text part) :
    Settled text part := by
  induction h with
  | null => exact settled_literal .null (by decide)
  | true => exact settled_literal .true (by decide)
  | false => exact settled_literal .false (by decide)
  | number hl => exact settled_number hl
  | string hs => exact settled_string hs
  | emptyArray hb => exact settled_emptyArray hb
  | array h ih => exact settled_array h ih
  | emptyObject hb => exact settled_emptyObject hb
  | object h ih => exact settled_object h ih
  | lastItem hbefore h hafter ih => exact settled_lastItem hbefore h hafter ih
  | item hbefore h hafter _ ih ihMore => exact settled_item hbefore h hafter ih ihMore
  | lastMember hbefore hkey hmiddle hblanks h hafter ih =>
      exact settled_lastMember hbefore hkey hmiddle hblanks h hafter ih
  | member hbefore hkey hmiddle hblanks h hafter _ ih ihMore =>
      exact settled_member hbefore hkey hmiddle hblanks h hafter ih ihMore

/-- A text is the document of one tree at most. -/
theorem SpellsDocument.unique {text : List Char} {t t' : Tree} (h : SpellsDocument text t)
    (h' : SpellsDocument text t') : t = t' := by
  generalize htext : text = text' at h'
  cases h with
  | around hbefore ht hafter =>
      cases h' with
      | around hbefore' ht' hafter' =>
          have hends {blanks : List Char} (hb : Blanks blanks) : Ends blanks := by
            simpa using Ends.blanks_append hb .nil
          exact (settled_front hbefore hbefore' ht ht' (settled_of_spells ht) (hends hafter)
            (hends hafter') htext).1

end LatencyProbe.Json
