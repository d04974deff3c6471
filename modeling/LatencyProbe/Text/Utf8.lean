import LatencyProbe.Text.Decimal

/-!
# UTF-8

Writing and reading texts as bytes. Reading stops at the first byte that no character can hold and
says how many bytes before it belonged to the broken sequence; bytes that end inside a character
are told apart from bytes that break one, because only the former could still be completed.

The second byte of a sequence has a narrower range after four of the first bytes: it keeps out
forms that are too long, surrogates, and numbers above the last character.
-/

namespace LatencyProbe.Utf8

/-- The bytes of a text. -/
def encode (cs : List Char) : List UInt8 := cs.flatMap String.utf8EncodeChar

@[simp] theorem encode_nil : encode [] = [] := rfl

@[simp] theorem encode_cons (c : Char) (cs : List Char) :
    encode (c :: cs) = String.utf8EncodeChar c ++ encode cs := rfl

@[simp] theorem encode_append (cs ds : List Char) : encode (cs ++ ds) = encode cs ++ encode ds := by
  simp [encode]

/-- How many bytes a text takes. -/
def size : List Char → Nat
  | [] => 0
  | c :: cs => c.utf8Size + size cs

theorem length_encode (cs : List Char) : (encode cs).length = size cs := by
  induction cs with
  | nil => rfl
  | cons c cs ih => simp [size, ih]

/-- Why bytes are no text, and where the sequence at fault begins. -/
inductive Fault where
  /-- The first `length` bytes of the sequence cannot be continued by what follows. -/
  | broken (length index : Nat)
  /-- The bytes end before the sequence does. -/
  | unfinished (index : Nat)
  deriving DecidableEq, Repr

/-- The message for bytes that are no text. -/
def Fault.message : Fault → String
  | .broken length index =>
    "invalid utf-8 sequence of " ++ Text.ofInt length ++ " bytes from index " ++ Text.ofInt index
  | .unfinished index => "incomplete utf-8 byte sequence from index " ++ Text.ofInt index

/-- A byte that may follow the first two of a sequence. -/
def isTail (b : UInt8) : Bool := 0x80 ≤ b.toNat && b.toNat < 0xC0

/-- A byte that may be the second after the first byte `a`. -/
def isSecond (a b : UInt8) : Bool :=
  if a.toNat = 0xE0 then 0xA0 ≤ b.toNat && b.toNat < 0xC0
  else if a.toNat = 0xED then 0x80 ≤ b.toNat && b.toNat < 0xA0
  else if a.toNat = 0xF0 then 0x90 ≤ b.toNat && b.toNat < 0xC0
  else if a.toNat = 0xF4 then 0x80 ≤ b.toNat && b.toNat < 0x90
  else isTail b

/-- The character of a sequence of two bytes. -/
def char2 (a b : UInt8) : Char := Char.ofNat (a.toNat % 32 * 64 + b.toNat % 64)

/-- The character of a sequence of three bytes. -/
def char3 (a b c : UInt8) : Char :=
  Char.ofNat (a.toNat % 16 * 4096 + b.toNat % 64 * 64 + c.toNat % 64)

/-- The character of a sequence of four bytes. -/
def char4 (a b c d : UInt8) : Char :=
  Char.ofNat (a.toNat % 8 * 262144 + b.toNat % 64 * 4096 + c.toNat % 64 * 64 + d.toNat % 64)

/-- Reads the bytes from position `i` of a text on. -/
def decodeFrom (i : Nat) : List UInt8 → Except Fault (List Char)
  | [] => .ok []
  | a :: rest =>
    if a.toNat < 0x80 then (Char.ofNat a.toNat :: ·) <$> decodeFrom (i + 1) rest
    else if a.toNat < 0xC2 then .error (.broken 1 i)
    else if a.toNat < 0xE0 then
      match rest with
      | [] => .error (.unfinished i)
      | b :: rest =>
        if isSecond a b then (char2 a b :: ·) <$> decodeFrom (i + 2) rest
        else .error (.broken 1 i)
    else if a.toNat < 0xF0 then
      match rest with
      | [] => .error (.unfinished i)
      | b :: rest =>
        if isSecond a b then
          match rest with
          | [] => .error (.unfinished i)
          | c :: rest =>
            if isTail c then (char3 a b c :: ·) <$> decodeFrom (i + 3) rest
            else .error (.broken 2 i)
        else .error (.broken 1 i)
    else if a.toNat < 0xF5 then
      match rest with
      | [] => .error (.unfinished i)
      | b :: rest =>
        if isSecond a b then
          match rest with
          | [] => .error (.unfinished i)
          | c :: rest =>
            if isTail c then
              match rest with
              | [] => .error (.unfinished i)
              | d :: rest =>
                if isTail d then (char4 a b c d :: ·) <$> decodeFrom (i + 4) rest
                else .error (.broken 3 i)
            else .error (.broken 2 i)
        else .error (.broken 1 i)
    else .error (.broken 1 i)

/-- The text that bytes stand for. -/
def decode (bytes : List UInt8) : Except Fault (List Char) := decodeFrom 0 bytes

@[simp] theorem decode_nil : decode [] = .ok [] := rfl

example : decode [0x61, 0xE2, 0x82] = .error (.unfinished 1) := rfl

example : decode [0x61, 0xE2, 0x82, 0x61] = .error (.broken 2 1) := rfl

end LatencyProbe.Utf8
