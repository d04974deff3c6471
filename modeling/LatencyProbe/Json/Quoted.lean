import LatencyProbe.Json.Scan

/-!
# Reading strings

A string holds any character but the quote, the backslash and the controls, and escapes for all of
them. An escaped number is a character, or one half of a pair that stands for a character above the
first 65536; half a pair alone is refused.

The strings of skipped values are read more loosely: their escaped numbers need four digits but not
the right ones.
-/

namespace LatencyProbe.Json

/-- The character that a one-letter escape stands for. -/
def unescape? (c : Char) : Option Char :=
  if c = '"' then some '"'
  else if c = '\\' then some '\\'
  else if c = '/' then some '/'
  else if c = 'b' then some (Char.ofNat 8)
  else if c = 'f' then some (Char.ofNat 12)
  else if c = 'n' then some '\n'
  else if c = 'r' then some '\r'
  else if c = 't' then some '\t'
  else none

/-- The value of a hexadecimal digit, in either case. -/
def hexValue? (c : Char) : Option Nat :=
  if '0' ≤ c ∧ c ≤ '9' then some (c.toNat - '0'.toNat)
  else if 'a' ≤ c ∧ c ≤ 'f' then some (c.toNat - 'a'.toNat + 10)
  else if 'A' ≤ c ∧ c ≤ 'F' then some (c.toNat - 'A'.toNat + 10)
  else none

/-- A number that stands for a character only together with a trailing one after it. -/
def isLeading (n : Nat) : Bool := 0xD800 ≤ n && n < 0xDC00

/-- A number that completes a leading one. -/
def isTrailing (n : Nat) : Bool := 0xDC00 ≤ n && n < 0xE000

/-- The character of a pair of numbers. -/
def pairedChar (leading trailing : Nat) : Char :=
  Char.ofNat (0x10000 + (leading - 0xD800) * 0x400 + (trailing - 0xDC00))

namespace Scan

/-- Refuses four bytes that are no hexadecimal digits, or the end of the text before there are
four. -/
def refuseFour {α : Type} : Scan α := fun s =>
  if Utf8.size s < 4 then .error (.placed .stringUnfinished 0)
  else .error (.placed .invalidEscape (Utf8.size s - 4))

/-- Takes four hexadecimal digits off. -/
def hexFour : Scan Nat := fun s =>
  match s with
  | a :: b :: c :: d :: rest =>
    match hexValue? a, hexValue? b, hexValue? c, hexValue? d with
    | some a, some b, some c, some d => .ok (((a * 16 + b) * 16 + c) * 16 + d, rest)
    | _, _, _, _ => refuseFour s
  | _ => refuseFour s

/-- Takes a character off that has to be there for a pair to go on. -/
def pairMark (mark : Char) : Scan Unit := fun s =>
  match s with
  | [] => refuse .stringUnfinished []
  | c :: rest => if c = mark then .ok ((), rest) else refuseNext .escapeUnfinished (c :: rest)

/-- Reads an escaped number, or a pair of them, after the first `u`. -/
def unicodeEscape : Scan Char := do
  let n ← hexFour
  if isTrailing n then refuse .loneSurrogate
  else if isLeading n then
    pairMark '\\'
    pairMark 'u'
    let trailing ← hexFour
    if isTrailing trailing then return pairedChar n trailing
    else refuse .loneSurrogate
  else return Char.ofNat n

/-- Reads an escape after its backslash. -/
def escapeSequence : Scan Char := fun s =>
  match s with
  | [] => refuse .stringUnfinished []
  | c :: rest =>
    if c = 'u' then unicodeEscape rest
    else match unescape? c with
      | some d => .ok (d, rest)
      | none => refuseNext .invalidEscape (c :: rest)

/-- Reads a character of a string. -/
def character : Scan Char := fun s =>
  match s with
  | [] => refuse .stringUnfinished []
  | c :: rest =>
    if c = '\\' then escapeSequence rest
    else if c.toNat < 32 then refuseNext .controlCharacter (c :: rest)
    else .ok (c, rest)

/-- Whether another character of a string comes next. The closing quote is left in the text. -/
def moreCharacters (_isFirst : Bool) : Scan Bool := fun s =>
  match s with
  | [] => refuse .stringUnfinished []
  | c :: rest => .ok (c != '"', c :: rest)

/-- Reads a string, from its opening quote on. -/
def quoted : Scan String := String.ofList <$> enclosed (items moreCharacters character)

/-- Passes over an escape after its backslash. -/
def skipEscape : Scan Unit := fun s =>
  match s with
  | [] => refuse .stringUnfinished []
  | c :: rest =>
    if c = 'u' then (do let _ ← hexFour; return ()) rest
    else match unescape? c with
      | some _ => .ok ((), rest)
      | none => refuseNext .invalidEscape (c :: rest)

/-- Passes over a character of a string. A control character is refused before it is read. -/
def skipCharacter : Scan Unit := fun s =>
  match s with
  | [] => refuse .stringUnfinished []
  | c :: rest =>
    if c = '\\' then skipEscape rest
    else if c.toNat < 32 then refuse .controlCharacter (c :: rest)
    else .ok ((), rest)

/-- Passes over a string, from its opening quote on. -/
def skipQuoted : Scan Unit := do
  let _ ← enclosed (items moreCharacters skipCharacter)
  return ()

end Scan
end LatencyProbe.Json
