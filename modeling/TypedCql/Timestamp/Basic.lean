/-!
# Instants

An instant is a count of seconds from the start of 1970 in universal time, with the
nanoseconds passed since then; these always count forward, also before 1970.
-/

namespace TypedCql

structure Timestamp where
  seconds : Int
  nanos : Nat
  deriving Repr, DecidableEq

namespace Timestamp

/-- Whole milliseconds from the epoch, rounded toward the past. -/
def millis (t : Timestamp) : Int := t.seconds * 1000 + (t.nanos / 1000000 : Nat)

/-- Whole microseconds from the epoch, rounded toward the past. -/
def micros (t : Timestamp) : Int := t.seconds * 1000000 + (t.nanos / 1000 : Nat)

def compare (a b : Timestamp) : Ordering :=
  (Ord.compare a.seconds b.seconds).then (Ord.compare a.nanos b.nanos)

end Timestamp

end TypedCql
