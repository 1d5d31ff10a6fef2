/-
# Durations

A span of time, counted in nanoseconds.  A message shows it as a number of seconds in
floating point; a bridge is told whole milliseconds.
-/
import Concolic.Decimal.Shortest

namespace Concolic

/-- A span of time. -/
structure Duration where
  /-- The whole span, in nanoseconds. -/
  nanoseconds : Nat
  deriving Repr, DecidableEq

namespace Duration

/-- No time at all. -/
def zero : Duration := ⟨0⟩

/-- A number of seconds and of nanoseconds. -/
def ofSeconds (seconds : Nat) (nanoseconds : Nat := 0) : Duration :=
  ⟨seconds * 1000000000 + nanoseconds⟩

/-- A number of milliseconds. -/
def ofMilliseconds (n : Nat) : Duration := ⟨n * 1000000⟩

/-- The whole milliseconds of the span. -/
def milliseconds (d : Duration) : Nat := d.nanoseconds / 1000000

/-- The whole seconds of the span. -/
def wholeSeconds (d : Duration) : Nat := d.nanoseconds / 1000000000

/-- The span in seconds: the whole seconds and the rest are rounded to doubles, and so is
their sum. -/
def seconds (d : Duration) : Float :=
  let part := d.nanoseconds % 1000000000
  (UInt64.ofNat d.wholeSeconds).toFloat + (UInt64.ofNat part).toFloat / 1000000000

/-- The span in seconds as a message shows it. -/
def secondsText (d : Duration) : String := Decimal.shortestText d.seconds

end Duration

end Concolic
