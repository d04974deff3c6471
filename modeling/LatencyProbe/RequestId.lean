import LatencyProbe.Clock
import LatencyProbe.Md5
import LatencyProbe.Text.Decimal
import LatencyProbe.Text.Utf8

/-!
# Request ids

A request id says when a request was made and in which session: a fixed word, the milliseconds, the
session, a sequence number and a checksum, joined by underscores. The sequence number is only the
second within a period of ten thousand, so two ids of one session and one millisecond are equal.

The sequence number and the checksum follow from the first two, and the checksum is the only part
that depends on the digest.
-/

namespace LatencyProbe.RequestId

/-- The second within ten thousand, with the sign of the time. -/
def sequenceNumber (millis : Int64) : Int := (millis.toInt.tdiv 1000).tmod 10000

/-- The characters of milliseconds, session and sequence number, joined by underscores. -/
def seed (millis : Int64) (session : UInt64) : List Char :=
  Text.decimal millis.toInt ++ '_' :: (Text.decimal session.toNat ++
    '_' :: Text.decimal (sequenceNumber millis))

/-- A byte as two hexadecimal digits, in upper case. -/
def hexByte (b : UInt8) : List Char :=
  [(b.toNat / 16).digitChar.toUpper, (b.toNat % 16).digitChar.toUpper]

/-- The first eight hexadecimal digits of the digest of a seed. -/
def checksum (seed : List Char) : List Char :=
  ((Md5.digest (Utf8.encode seed)).flatMap hexByte).take 8

/-- The id of a request made at a time, in milliseconds, in a session. -/
def ofMillis (millis : Int64) (session : UInt64) : String :=
  String.ofList ('s' :: 'y' :: 'n' :: 'c' :: '_' :: (seed millis session ++
    '_' :: checksum (seed millis session)))

/-- The id of a request made at a clock reading in a session. -/
def ofInstant (t : Instant) (session : UInt64) : String := ofMillis t.millis session

example : ofInstant ⟨1700002345, 678000000⟩ 123 = "sync_1700002345678_123_2345_7F98E171" := by
  decide +kernel

end LatencyProbe.RequestId
