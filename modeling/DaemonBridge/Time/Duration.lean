/-!
# Durations

A `Duration` is a span of time in nanoseconds. Its text takes the largest unit among seconds,
milliseconds, microseconds and nanoseconds in which the whole part is not zero, and writes the
rest as decimal places, without trailing zeros: `1.5s`, `100ms`, `3723.004s`, `0ns`.
-/

namespace DaemonBridge

/-- A span of time. -/
structure Duration where
  nanos : Nat
  deriving DecidableEq, Repr, Inhabited

namespace Duration

/-- Nanoseconds in a second. -/
def nanosPerSec : Nat := 1000000000

/-- A span of whole milliseconds. -/
def ofMillis (ms : Nat) : Duration := ⟨ms * 1000000⟩

/-- A span of whole seconds. -/
def ofSecs (s : Nat) : Duration := ⟨s * nanosPerSec⟩

/-- The decimal places of `frac` units of `10 ^ -width`, without trailing zeros. -/
def places (frac width : Nat) : String :=
  let digits := Nat.toDigits 10 frac
  let padded := List.replicate (width - digits.length) '0' ++ digits
  String.ofList (padded.reverse.dropWhile (· == '0')).reverse

/-- A whole part, the decimal places of a fraction of `width` digits, and a unit. -/
def decimal (whole frac width : Nat) (unit : String) : String :=
  let tail := if frac = 0 then "" else "." ++ places frac width
  String.ofList (Nat.toDigits 10 whole) ++ tail ++ unit

/-- The text of a span. -/
def render (d : Duration) : String :=
  let secs := d.nanos / nanosPerSec
  let sub := d.nanos % nanosPerSec
  if 0 < secs then decimal secs sub 9 "s"
  else if 1000000 ≤ sub then decimal (sub / 1000000) (sub % 1000000) 6 "ms"
  else if 1000 ≤ sub then decimal (sub / 1000) (sub % 1000) 3 "µs"
  else decimal sub 0 0 "ns"

example : (ofMillis 1500).render = "1.5s" := by decide +kernel
example : (ofMillis 3723004).render = "3723.004s" := by decide +kernel
example : (ofMillis 100).render = "100ms" := by decide +kernel
example : (ofMillis 0).render = "0ns" := by decide +kernel

end Duration

end DaemonBridge
