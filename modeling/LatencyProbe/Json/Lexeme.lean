import LatencyProbe.Json.Scan

/-!
# Reading numbers

A lexeme is a number as it is written: sign, digits, fraction, exponent. Its meaning is worked out
in 64 bits and in doubles, and is not always the number nearest to the one written.

The digits are gathered in a 64-bit significand from left to right. Digits before the point that no
longer fit count as a factor of ten each, digits after it are dropped. A number without point and
exponent whose digits all fit is a whole number, unless it is a negative one below the signed range
or a minus zero. Every other number is the significand as a double, scaled by a power of ten with
the roundings of `Double.scale`.
-/

namespace LatencyProbe.Json

/-- The exponent part of a number. -/
structure Lexeme.Exponent where
  negative : Bool
  digits : List Char
  deriving DecidableEq, Repr

/-- A number as it is written. -/
structure Lexeme where
  negative : Bool
  whole : List Char
  /-- The digits after the point; none if there is no point. -/
  fraction : List Char
  exponent : Option Lexeme.Exponent
  deriving DecidableEq, Repr

namespace Scan

/-- Takes digits off, at least one. The end of the text instead of a digit is the problem
`atEnd`. -/
def someDigits (atEnd : Problem) : Scan (List Char) := fun s =>
  match s.takeWhile Char.isDigit with
  | [] => if s.isEmpty then refuse atEnd s else refuseNext .invalidNumber s
  | d :: ds => .ok (d :: ds, s.dropWhile Char.isDigit)

/-- Takes the digits before the point off. A zero is the only one if it comes first. -/
def wholeDigits (atEnd : Problem) : Scan (List Char) := fun s =>
  match s with
  | '0' :: rest =>
    if rest.head?.any Char.isDigit then refuseNext .invalidNumber rest else .ok (['0'], rest)
  | _ => someDigits atEnd s

/-- Takes a point and the digits after it off, if there is one. -/
def fractionDigits (atEnd : Problem) : Scan (List Char) := fun s =>
  match s with
  | '.' :: rest => someDigits atEnd rest
  | _ => .ok ([], s)

/-- Takes the sign of a number off; without one it is positive. -/
def minusSign : Scan Bool := fun s =>
  match s with
  | '-' :: rest => .ok (true, rest)
  | _ => .ok (false, s)

/-- Takes the sign of an exponent off; without one it is positive. -/
def exponentSign : Scan Bool := fun s =>
  match s with
  | '+' :: rest => .ok (false, rest)
  | '-' :: rest => .ok (true, rest)
  | _ => .ok (false, s)

/-- Takes the sign and the digits of an exponent off. -/
def exponentDigits (atEnd : Problem) : Scan Lexeme.Exponent := do
  let negative ← exponentSign
  let digits ← someDigits atEnd
  return ⟨negative, digits⟩

/-- Takes an exponent off, if there is one. -/
def exponentPart (atEnd : Problem) : Scan (Option Lexeme.Exponent) := fun s =>
  match s with
  | [] => .ok (none, [])
  | c :: rest =>
    if c = 'e' ∨ c = 'E' then (some <$> exponentDigits atEnd : Scan _) rest
    else .ok (none, c :: rest)

/-- Takes a number off as it is written. The end of the text where a digit has to follow is the
problem `atEnd`. -/
def lexeme (atEnd : Problem) : Scan Lexeme := do
  let negative ← minusSign
  let whole ← wholeDigits atEnd
  let fraction ← fractionDigits atEnd
  let exponent ← exponentPart atEnd
  return ⟨negative, whole, fraction, exponent⟩

end Scan

/-- Appends digits to a number while it stays below a bound, and tells which were left over. -/
def gather (bound : Nat) : Nat → List Char → Nat × List Char
  | n, [] => (n, [])
  | n, d :: ds =>
    if n * 10 + (d.toNat - '0'.toNat) < bound then
      gather bound (n * 10 + (d.toNat - '0'.toNat)) ds
    else (n, d :: ds)

namespace Lexeme

/-- The significand of the digits before the point, and the digits that did not fit. -/
def wholePart (l : Lexeme) : Nat × List Char := gather 0x10000000000000000 0 l.whole

/-- The significand of all digits, and those after the point that did not fit. -/
def significand (l : Lexeme) : Nat × List Char := gather 0x10000000000000000 l.wholePart.1 l.fraction

/-- By how many places the digits before and after the point move the significand. -/
def places (l : Lexeme) : Int :=
  (l.wholePart.2.length : Int) - ((l.fraction.length : Int) - l.significand.2.length)

/-- The double of a sign and a significand times a power of ten. -/
def scaled? (l : Lexeme) (e : Int) : Option Double.Finite := do
  let m ← Double.scale (Double.nearest (l.significand.1 * Double.perOne) 1) e
  Double.Finite.ofMagnitude? l.negative m

/-- The double that a lexeme stands for, or how many digits of its exponent were not looked at when
it proved to be out of range. The exponent is counted in 32 bits; if it does not fit, a number that
would grow is out of range and any other is a zero. -/
def toDouble (l : Lexeme) : Except Nat Double.Finite :=
  match l.exponent with
  | none => (l.scaled? l.places).elim (.error 0) .ok
  | some exponent =>
    match gather 0x80000000 0 exponent.digits with
    | (e, []) =>
      (l.scaled? (l.places + if exponent.negative then -(e : Int) else e)).elim (.error 0) .ok
    | (_, _ :: unread) =>
      if l.significand.1 ≠ 0 ∧ !exponent.negative then .error unread.length
      else .ok ⟨l.negative, 0, by decide⟩

/-- The number that a lexeme stands for, or how many digits of its exponent were not looked at when
it proved to be out of range. -/
def toNumber (l : Lexeme) : Except Nat Number :=
  if l.fraction.isEmpty ∧ l.exponent.isNone ∧ l.wholePart.2.isEmpty then
    let n := l.wholePart.1
    if !l.negative then
      if h : n < 0x10000000000000000 then .ok (.integer n (by omega)) else .error 0
    else if h : 0 < n ∧ n ≤ 0x8000000000000000 then .ok (.integer (-n) (by omega))
    else .float <$> l.toDouble
  else .float <$> l.toDouble

end Lexeme

/-- Reads a number. -/
def Scan.number : Scan Number := do
  let l ← lexeme .valueUnfinished
  match l.toNumber with
  | .ok n => return n
  | .error unread => fun s => .error (.placed .numberOutOfRange (Utf8.size s + unread))

end LatencyProbe.Json
