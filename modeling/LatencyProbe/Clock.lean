/-!
# Clock readings

A reading of the wall clock is seconds and nanoseconds since the epoch; before the epoch the seconds
are negative. What travels on the wire are milliseconds in a signed 64-bit number: zero for every
time before the epoch, else rounded down, and wrapped around where they do not fit.
-/

namespace LatencyProbe

/-- A reading of the wall clock, `seconds + nanos / 10 ^ 9` seconds after the epoch. -/
structure Instant where
  seconds : Int64
  nanos : Fin 1000000000
  deriving DecidableEq, Repr

namespace Instant

/-- Whole milliseconds since the epoch, zero before it. -/
def totalMillis (t : Instant) : Nat :=
  if t.seconds.toInt < 0 then 0 else t.seconds.toInt.toNat * 1000 + t.nanos.val / 1000000

/-- Milliseconds since the epoch as they travel on the wire. -/
def millis (t : Instant) : Int64 := Int64.ofInt t.totalMillis

theorem totalMillis_of_neg {t : Instant} (h : t.seconds.toInt < 0) : t.totalMillis = 0 := by
  simp [totalMillis, h]

theorem toInt_millis (t : Instant) : t.millis.toInt = (t.totalMillis : Int).bmod 0x10000000000000000 := by
  simp [millis, Int64.toInt_ofInt]

end Instant
end LatencyProbe
