import VersionMatrix.Time.Calendar

/-!
Points in time to the nanosecond, and the time between two of them.
-/

namespace VersionMatrix

/-- A second counted from 1970-01-01T00:00:00Z, and nanoseconds into it. A leap second shares the
count of the second before it and has nanoseconds from 1 000 000 000 on. -/
structure Instant where
  seconds : Int
  nanoseconds : Nat := 0
deriving DecidableEq, Repr

namespace Instant

def secondsPerDay : Int := 86400

def secondOfDay (instant : Instant) : Int := instant.seconds % secondsPerDay

def isLeap (instant : Instant) : Bool := 1000000000 ≤ instant.nanoseconds

/-- The nanoseconds from `start` to `finish`. A leap second counts if it belongs to the instant
that is earlier in its day. -/
def elapsedNanoseconds (start finish : Instant) : Int :=
  let leap : Int :=
    if start.secondOfDay < finish.secondOfDay then (if start.isLeap then 1 else 0)
    else if finish.secondOfDay < start.secondOfDay then (if finish.isLeap then -1 else 0)
    else 0
  (finish.seconds - start.seconds + leap) * 1000000000 +
    ((finish.nanoseconds : Int) - start.nanoseconds)

/-- The milliseconds from `start` to `finish`, without a fraction. -/
def elapsedMilliseconds (start finish : Instant) : Int :=
  (elapsedNanoseconds start finish).tdiv 1000000

end Instant

end VersionMatrix
