import LatencyProbe.Json.Parser

/-!
# The grammar of documents

Which texts are documents, and of which values, said without the reader. Every relation holds
between a text and what it stands for; none of them says how the text is found or where to stop.

`Denotes depth` relates the text of a value to the value, of whose containers at most `depth` are
open at once. The parts of a container, separated by commas, are texts of their own: a `Phrase` is
a value or such a list of items or members.
-/

namespace LatencyProbe.Json

/-- Characters that may stand between tokens. -/
def Blanks (text : List Char) : Prop := ∀ c ∈ text, Scan.isBlank c

/-- One decimal digit or more. -/
def Digits (text : List Char) : Prop := text ≠ [] ∧ ∀ c ∈ text, c.isDigit

/-- The digits before the point: a zero alone, or digits that do not begin with one. -/
inductive WholeDigits : List Char → Prop
  | zero : WholeDigits ['0']
  | digits {d : Char} {ds : List Char} : d ≠ '0' → Digits (d :: ds) → WholeDigits (d :: ds)

/-- The point with the digits after it. -/
inductive FractionText : List Char → List Char → Prop
  | none : FractionText [] []
  | some {ds : List Char} : Digits ds → FractionText ('.' :: ds) ds

/-- The exponent, in either case of its mark and with or without a sign. -/
inductive ExponentText : List Char → Option Lexeme.Exponent → Prop
  | none : ExponentText [] none
  | bare {e : Char} {ds : List Char} : e = 'e' ∨ e = 'E' → Digits ds →
      ExponentText (e :: ds) (some ⟨false, ds⟩)
  | plus {e : Char} {ds : List Char} : e = 'e' ∨ e = 'E' → Digits ds →
      ExponentText (e :: '+' :: ds) (some ⟨false, ds⟩)
  | minus {e : Char} {ds : List Char} : e = 'e' ∨ e = 'E' → Digits ds →
      ExponentText (e :: '-' :: ds) (some ⟨true, ds⟩)

/-- A number as it is written. -/
inductive NumberText : List Char → Lexeme → Prop
  | positive {whole fractionText exponentText fraction exponent} : WholeDigits whole →
      FractionText fractionText fraction → ExponentText exponentText exponent →
      NumberText (whole ++ (fractionText ++ exponentText)) ⟨false, whole, fraction, exponent⟩
  | negative {whole fractionText exponentText fraction exponent} : WholeDigits whole →
      FractionText fractionText fraction → ExponentText exponentText exponent →
      NumberText ('-' :: (whole ++ (fractionText ++ exponentText)))
        ⟨true, whole, fraction, exponent⟩

/-- The letter of a short escape and the character that it stands for. -/
inductive ShortEscape : Char → Char → Prop
  | quote : ShortEscape '"' '"'
  | backslash : ShortEscape '\\' '\\'
  | slash : ShortEscape '/' '/'
  | backspace : ShortEscape 'b' (Char.ofNat 8)
  | formFeed : ShortEscape 'f' (Char.ofNat 12)
  | newline : ShortEscape 'n' '\n'
  | return : ShortEscape 'r' '\r'
  | tab : ShortEscape 't' '\t'

/-- Four hexadecimal digits and the number that they are. -/
inductive HexFour : List Char → Nat → Prop
  | digits {a b c d : Char} {w x y z : Nat} : hexValue? a = some w → hexValue? b = some x →
      hexValue? c = some y → hexValue? d = some z →
      HexFour [a, b, c, d] (((w * 16 + x) * 16 + y) * 16 + z)

/-- How a character may stand inside a string. -/
inductive CharacterText : List Char → Char → Prop
  | plain {c : Char} : c ≠ '"' → c ≠ '\\' → 0x20 ≤ c.toNat → CharacterText [c] c
  | short {c d : Char} : ShortEscape c d → CharacterText ['\\', c] d
  | unicode {digits : List Char} {n : Nat} : HexFour digits n → isLeading n = false →
      isTrailing n = false → CharacterText ('\\' :: 'u' :: digits) (Char.ofNat n)
  | pair {digits digits' : List Char} {n n' : Nat} : HexFour digits n → isLeading n →
      HexFour digits' n' → isTrailing n' →
      CharacterText ('\\' :: 'u' :: (digits ++ '\\' :: 'u' :: digits')) (pairedChar n n')

/-- What may stand between the quotes of a string. -/
inductive CharactersText : List Char → List Char → Prop
  | nil : CharactersText [] []
  | cons {front text : List Char} {c : Char} {cs : List Char} : CharacterText front c →
      CharactersText text cs → CharactersText (front ++ text) (c :: cs)

/-- A string with its quotes. -/
inductive StringText : List Char → String → Prop
  | quoted {inside cs : List Char} : CharactersText inside cs →
      StringText ('"' :: (inside ++ ['"'])) (String.ofList cs)

/-- A value, or what stands between the brackets of a container that is not empty. -/
inductive Phrase where
  | value (v : Json)
  | items (vs : List Json)
  | members (ms : List (String × Json))

/-- A text and the phrase that it is. Blanks belong to the containers that they stand in. -/
inductive Denotes : Nat → List Char → Phrase → Prop
  | null {depth} : Denotes depth ['n', 'u', 'l', 'l'] (.value .null)
  | true {depth} : Denotes depth ['t', 'r', 'u', 'e'] (.value (.bool true))
  | false {depth} : Denotes depth ['f', 'a', 'l', 's', 'e'] (.value (.bool false))
  | number {depth text l n} : NumberText text l → l.toNumber = .ok n →
      Denotes depth text (.value (.number n))
  | string {depth text s} : StringText text s → Denotes depth text (.value (.string s))
  | emptyArray {depth blanks} : Blanks blanks →
      Denotes (depth + 1) ('[' :: (blanks ++ [']'])) (.value (.array []))
  | array {depth text vs} : Denotes depth text (.items vs) →
      Denotes (depth + 1) ('[' :: (text ++ [']'])) (.value (.array vs))
  | emptyObject {depth blanks} : Blanks blanks →
      Denotes (depth + 1) ('{' :: (blanks ++ ['}'])) (.value (.object []))
  | object {depth text ms} : Denotes depth text (.members ms) →
      Denotes (depth + 1) ('{' :: (text ++ ['}'])) (.value (.object ms))
  | lastItem {depth before text after v} : Blanks before → Denotes depth text (.value v) →
      Blanks after → Denotes depth (before ++ (text ++ after)) (.items [v])
  | item {depth before text after more v vs} : Blanks before → Denotes depth text (.value v) →
      Blanks after → Denotes depth more (.items vs) →
      Denotes depth (before ++ (text ++ (after ++ ',' :: more))) (.items (v :: vs))
  | lastMember {depth before keyText middle blanks text after key v} : Blanks before →
      StringText keyText key → Blanks middle → Blanks blanks → Denotes depth text (.value v) →
      Blanks after →
      Denotes depth (before ++ (keyText ++ (middle ++ ':' :: (blanks ++ (text ++ after)))))
        (.members [(key, v)])
  | member {depth before keyText middle blanks text after more key v ms} : Blanks before →
      StringText keyText key → Blanks middle → Blanks blanks → Denotes depth text (.value v) →
      Blanks after → Denotes depth more (.members ms) →
      Denotes depth
        (before ++ (keyText ++ (middle ++ ':' :: (blanks ++ (text ++ (after ++ ',' :: more))))))
        (.members ((key, v) :: ms))

/-- A document: one value with blanks around it. -/
inductive Document : List Char → Json → Prop
  | around {before text after v} : Blanks before → Denotes maxDepth text (.value v) →
      Blanks after → Document (before ++ (text ++ after)) v

/-- A value that is a number. -/
def isNumber : Json → Bool
  | .number _ => true
  | _ => false

/-- A character that a number may begin with. -/
def startsNumber (c : Char) : Bool := c = '-' || c.isDigit

end LatencyProbe.Json
