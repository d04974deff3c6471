import LatencyProbe.Proofs.Json.Documents
import LatencyProbe.Proofs.Json.Numerals

/-!
# What is printed is read back

Both layouts print documents of the value, but for its doubles, which may be read as others:
`reread` is the value with every number as it is read back. The printed text nests as deep as the
value, so `depth` bounds what may be printed.

On one line a text holds no character that could end the line, whatever strings the value holds.
-/

namespace LatencyProbe.Json

theorem hexValue?_digitChar : ∀ n < 16, hexValue? n.digitChar = some n := by decide

/-- A control character as four hexadecimal digits. -/
theorem hexFour_control {n : Nat} (h : n < 32) :
    HexFour ['0', '0', (n / 16).digitChar, (n % 16).digitChar] n := by
  have hzero : hexValue? '0' = some 0 := rfl
  have hhigh := hexValue?_digitChar (n / 16) (by omega)
  have hlow := hexValue?_digitChar (n % 16) (by omega)
  have hn : ((0 * 16 + 0) * 16 + n / 16) * 16 + n % 16 = n := by omega
  have hdigits := HexFour.digits hzero hzero hhigh hlow
  rwa [hn] at hdigits

theorem characterText_escape (c : Char) : CharacterText (escape c) c := by
  have hback (n : Nat) (h : c.toNat = n) : c = Char.ofNat n := by rw [← h, Char.ofNat_toNat]
  rw [escape]
  split_ifs with hquote hbackslash hnewline hreturn htab hbackspace hfeed hcontrol
  · subst hquote
    exact .short .quote
  · subst hbackslash
    exact .short .backslash
  · subst hnewline
    exact .short .newline
  · subst hreturn
    exact .short .return
  · subst htab
    exact .short .tab
  · rw [hback 8 hbackspace]
    exact .short .backspace
  · rw [hback 12 hfeed]
    exact .short .formFeed
  · have hunicode := CharacterText.unicode (hexFour_control hcontrol)
      (by simp [isLeading]; omega) (by simp [isTrailing]; omega)
    rwa [Char.ofNat_toNat] at hunicode
  · exact .plain hquote hbackslash (Nat.not_lt.mp hcontrol)

theorem charactersText_escape (cs : List Char) : CharactersText (cs.flatMap escape) cs := by
  induction cs with
  | nil => exact .nil
  | cons c cs ih => exact .cons (characterText_escape c) ih

theorem stringText_quote (s : String) : StringText (quote s) s := by
  have h := StringText.quoted (charactersText_escape s.toList)
  rwa [String.ofList_toList] at h

mutual

/-- The value with every number as it is read back. -/
def reread : Json → Json
  | .number n => .number n.reread
  | .array items => .array (rereadItems items)
  | .object members => .object (rereadMembers members)
  | value => value

/-- The items of an array as they are read back. -/
def rereadItems : List Json → List Json
  | [] => []
  | item :: rest => item.reread :: rereadItems rest

/-- The members of an object as they are read back. -/
def rereadMembers : List (String × Json) → List (String × Json)
  | [] => []
  | (key, value) :: rest => (key, value.reread) :: rereadMembers rest

end

mutual

/-- How many containers are inside one another at most. -/
def depth : Json → Nat
  | .array items => depthItems items + 1
  | .object members => depthMembers members + 1
  | _ => 0

/-- The greatest depth of the items of an array. -/
def depthItems : List Json → Nat
  | [] => 0
  | item :: rest => max item.depth (depthItems rest)

/-- The greatest depth of the values of an object. -/
def depthMembers : List (String × Json) → Nat
  | [] => 0
  | (_, value) :: rest => max value.depth (depthMembers rest)

end

/-- A layout that only has blanks besides its colon. -/
structure Layout.IsBlank (layout : Layout) : Prop where
  line : ∀ depth, Blanks (layout.line depth)
  colon : ∃ blanks, Blanks blanks ∧ layout.colon = ':' :: blanks

theorem Layout.isBlank_compact : Layout.compact.IsBlank :=
  ⟨fun _ => .nil, [], .nil, rfl⟩

theorem Layout.isBlank_pretty : Layout.pretty.IsBlank := by
  refine ⟨?_, [' '], .cons rfl .nil, rfl⟩
  intro depth
  refine .cons rfl ?_
  intro c hc
  rw [List.eq_of_mem_replicate hc]
  rfl

section Render

variable {layout : Layout}

mutual

/-- A printed value is a text of the value as it is read back. -/
theorem denotes_render (blank : layout.IsBlank) {d : Nat} (n : Nat) (v : Json) (h : v.depth ≤ d) :
    Denotes d (render layout n v) (.value v.reread) := by
  cases v with
  | null => exact .null
  | bool b =>
      cases b with
      | false => exact .false
      | true => exact .true
  | number m =>
      obtain ⟨l, htext, hl⟩ := exists_lexeme m
      exact .number htext hl
  | string s => exact .string (stringText_quote s)
  | array items =>
      have hpos : depthItems items + 1 ≤ d := h
      obtain ⟨d, rfl⟩ : ∃ k, d = k + 1 := ⟨d - 1, by omega⟩
      cases items with
      | nil => exact .emptyArray .nil
      | cons item rest =>
          have hdepth : max item.depth (depthItems rest) + 1 ≤ d + 1 := h
          have hitem := denotes_render blank (d := d) (n + 1) item (by omega)
          obtain ⟨tail, htail, hitems⟩ := exists_renderItems blank (d := d) n rest (by omega)
          have harray := Denotes.array (hitems (blank.line (n + 1)) hitem)
          simpa [render, reread, rereadItems, htail] using harray
  | object members =>
      have hpos : depthMembers members + 1 ≤ d := h
      obtain ⟨d, rfl⟩ : ∃ k, d = k + 1 := ⟨d - 1, by omega⟩
      cases members with
      | nil => exact .emptyObject .nil
      | cons member rest =>
          obtain ⟨key, value⟩ := member
          have hdepth : max value.depth (depthMembers rest) + 1 ≤ d + 1 := h
          have hvalue := denotes_render blank (d := d) (n + 1) value (by omega)
          obtain ⟨tail, htail, hmembers⟩ := exists_renderMembers blank (d := d) n rest (by omega)
          obtain ⟨blanks, hblanks, hcolon⟩ := blank.colon
          have hobject := Denotes.object
            (hmembers (blank.line (n + 1)) (stringText_quote key) hblanks hvalue)
          simpa [render, reread, rereadMembers, htail, hcolon] using hobject

/-- What is printed after the first item of an array. -/
theorem exists_renderItems (blank : layout.IsBlank) {d : Nat} (n : Nat) (rest : List Json)
    (h : depthItems rest ≤ d) :
    ∃ tail, renderItems layout n rest = tail ++ [']'] ∧
      ∀ {before text v}, Blanks before → Denotes d text (.value v) →
        Denotes d (before ++ (text ++ tail)) (.items (v :: rereadItems rest)) := by
  cases rest with
  | nil => exact ⟨layout.line n, rfl, fun hbefore htext => .lastItem hbefore htext (blank.line n)⟩
  | cons item rest =>
      have hdepth : max item.depth (depthItems rest) ≤ d := h
      have hitem := denotes_render blank (d := d) (n + 1) item (by omega)
      obtain ⟨tail, htail, hitems⟩ := exists_renderItems blank (d := d) n rest (by omega)
      refine ⟨',' :: (layout.line (n + 1) ++ (render layout (n + 1) item ++ tail)), ?_, ?_⟩
      · simp [renderItems, htail]
      · intro before text v hbefore htext
        exact .item hbefore htext .nil (hitems (blank.line (n + 1)) hitem)

/-- What is printed after the first member of an object. -/
theorem exists_renderMembers (blank : layout.IsBlank) {d : Nat} (n : Nat)
    (rest : List (String × Json)) (h : depthMembers rest ≤ d) :
    ∃ tail, renderMembers layout n rest = tail ++ ['}'] ∧
      ∀ {before keyText blanks text key v}, Blanks before → StringText keyText key →
        Blanks blanks → Denotes d text (.value v) →
        Denotes d (before ++ (keyText ++ ':' :: (blanks ++ (text ++ tail))))
          (.members ((key, v) :: rereadMembers rest)) := by
  cases rest with
  | nil =>
      refine ⟨layout.line n, rfl, ?_⟩
      intro before keyText blanks text key v hbefore hkey hblanks htext
      exact .lastMember hbefore hkey .nil hblanks htext (blank.line n)
  | cons member rest =>
      obtain ⟨key, value⟩ := member
      have hdepth : max value.depth (depthMembers rest) ≤ d := h
      have hvalue := denotes_render blank (d := d) (n + 1) value (by omega)
      obtain ⟨tail, htail, hmembers⟩ := exists_renderMembers blank (d := d) n rest (by omega)
      obtain ⟨inner, hinner, hcolon⟩ := blank.colon
      refine ⟨',' :: (layout.line (n + 1) ++ (quote key ++
        ':' :: (inner ++ (render layout (n + 1) value ++ tail)))), ?_, ?_⟩
      · simp [renderMembers, htail, hcolon]
      · intro before keyText blanks text key' v hbefore hkey hblanks htext
        exact .member hbefore hkey .nil hblanks htext .nil
          (hmembers (blank.line (n + 1)) (stringText_quote key) hinner hvalue)

end

end Render

/-- A printed value is read back, in either layout. -/
theorem document_render {layout : Layout} (blank : layout.IsBlank) (n : Nat) {v : Json}
    (h : v.depth ≤ maxDepth) : Document (render layout n v) v.reread := by
  have hdocument := Document.around .nil (denotes_render blank n v h) .nil
  rwa [List.nil_append, List.append_nil] at hdocument

theorem document_compact {v : Json} (h : v.depth ≤ maxDepth) (hreread : v.reread = v) :
    Document v.compact v := by
  have hdocument := document_render Layout.isBlank_compact 0 h
  rwa [hreread] at hdocument

/-- A text without control characters. -/
def Printable (text : List Char) : Prop := ∀ c ∈ text, 0x20 ≤ c.toNat

namespace Printable

theorem nil : Printable [] := by
  intro c hc
  cases hc

theorem cons {c : Char} {text : List Char} (hc : 0x20 ≤ c.toNat) (h : Printable text) :
    Printable (c :: text) := by
  intro d hd
  cases hd with
  | head => exact hc
  | tail _ hd => exact h d hd

theorem append {front text : List Char} (hf : Printable front) (h : Printable text) :
    Printable (front ++ text) := by
  intro c hc
  exact (List.mem_append.mp hc).elim (hf c) (h c)

end Printable

theorem toNat_of_hexValue? {c : Char} {n : Nat} (h : hexValue? c = some n) : 0x20 ≤ c.toNat := by
  rw [hexValue?] at h
  split_ifs at h with hdigit hlower hupper
  · exact Nat.le_trans (by decide) hdigit.1
  · exact Nat.le_trans (by decide) hlower.1
  · exact Nat.le_trans (by decide) hupper.1

theorem printable_hexFour {digits : List Char} {n : Nat} (h : HexFour digits n) :
    Printable digits := by
  cases h with
  | digits ha hb hc hd =>
      exact .cons (toNat_of_hexValue? ha) (.cons (toNat_of_hexValue? hb)
        (.cons (toNat_of_hexValue? hc) (.cons (toNat_of_hexValue? hd) .nil)))

theorem printable_characterText {front : List Char} {c : Char} (h : CharacterText front c) :
    Printable front := by
  cases h with
  | plain _ _ hcontrol => exact .cons hcontrol .nil
  | short hescape => cases hescape <;> exact .cons (by decide) (.cons (by decide) .nil)
  | unicode hdigits _ _ =>
      exact .cons (by decide) (.cons (by decide) (printable_hexFour hdigits))
  | pair hdigits _ hdigits' _ =>
      exact .cons (by decide) (.cons (by decide) ((printable_hexFour hdigits).append
        (.cons (by decide) (.cons (by decide) (printable_hexFour hdigits')))))

theorem printable_charactersText {inside cs : List Char} (h : CharactersText inside cs) :
    Printable inside := by
  induction h with
  | nil => exact .nil
  | cons hfront _ ih => exact (printable_characterText hfront).append ih

/-- Strings have no control characters in any of their texts. -/
theorem printable_stringText {text : List Char} {s : String} (h : StringText text s) :
    Printable text := by
  cases h with
  | quoted hinside =>
      exact .cons (by decide)
        ((printable_charactersText hinside).append (.cons (by decide) .nil))

theorem printable_key (key : String) : Printable (quote key ++ [':']) :=
  (printable_stringText (stringText_quote key)).append (.cons (by decide) .nil)

theorem printable_number (n : Number) : Printable n.text := by
  obtain ⟨l, htext, -⟩ := exists_lexeme n
  intro c hc
  exact (visible_of_mem_numberText htext c hc).1.le

mutual

/-- A value on one line has no character that could end the line. -/
theorem printable_render (n : Nat) (v : Json) : Printable (render .compact n v) := by
  cases v with
  | null => simp [render, Printable]
  | bool b => cases b <;> simp [render, Printable]
  | number m => exact printable_number m
  | string s => exact printable_stringText (stringText_quote s)
  | array items =>
      cases items with
      | nil => simp [render, Printable]
      | cons item rest =>
          exact .cons (by decide)
            ((printable_render (n + 1) item).append (printable_renderItems n rest))
  | object members =>
      cases members with
      | nil => simp [render, Printable]
      | cons member rest =>
          obtain ⟨key, value⟩ := member
          exact .cons (by decide) (((printable_key key).append
            (printable_render (n + 1) value)).append (printable_renderMembers n rest))

theorem printable_renderItems (n : Nat) (rest : List Json) :
    Printable (renderItems .compact n rest) := by
  cases rest with
  | nil => exact .cons (by decide) .nil
  | cons item rest =>
      exact .cons (by decide)
        ((printable_render (n + 1) item).append (printable_renderItems n rest))

theorem printable_renderMembers (n : Nat) (rest : List (String × Json)) :
    Printable (renderMembers .compact n rest) := by
  cases rest with
  | nil => exact .cons (by decide) .nil
  | cons member rest =>
      obtain ⟨key, value⟩ := member
      exact .cons (by decide) (((printable_key key).append
        (printable_render (n + 1) value)).append (printable_renderMembers n rest))

end

theorem printable_compact (v : Json) : Printable v.compact := printable_render 0 v

end LatencyProbe.Json
