/-!
# Durations

## Main definitions

* `Duration` — whole seconds and a rest in nanoseconds.
* `Duration.ofNanos` — carries whole seconds over.
* `Duration.brief` — a single number with a fraction, in the greatest unit up to the second.
-/

namespace RemoteSettings

/-- A length of time, exact to the nanosecond. -/
structure Duration where
  seconds : Nat
  nanos : Nat
  nanos_lt : nanos < 1_000_000_000
  deriving DecidableEq

namespace Duration

/-- So many seconds and nanoseconds; a second's worth of nanoseconds is carried over. -/
def ofNanos (seconds nanos : Nat) : Duration :=
  ⟨seconds + nanos / 1_000_000_000, nanos % 1_000_000_000, Nat.mod_lt _ (by decide)⟩

/-- So many whole seconds. -/
def ofSeconds (seconds : Nat) : Duration := ⟨seconds, 0, by decide⟩

instance : Inhabited Duration := ⟨ofSeconds 0⟩

/-- Whether the duration is empty. -/
def isZero (d : Duration) : Bool := d.seconds == 0 && d.nanos == 0

/-- The fraction `n / 10 ^ places` behind a point, without zeros at the end; nothing for zero. -/
def fractionText (n places : Nat) : List Char :=
  let digits := Nat.toDigits 10 n
  let padded := List.replicate (places - digits.length) '0' ++ digits
  match (padded.reverse.dropWhile (· == '0')).reverse with
  | [] => []
  | kept => '.' :: kept

/-- A single number with its unit: seconds, or below a second the greatest unit that fits. -/
def brief (d : Duration) : String :=
  let (whole, rest, places, unit) :=
    if 0 < d.seconds then (d.seconds, d.nanos, 9, "s")
    else if 1_000_000 ≤ d.nanos then (d.nanos / 1_000_000, d.nanos % 1_000_000, 6, "ms")
    else if 1_000 ≤ d.nanos then (d.nanos / 1_000, d.nanos % 1_000, 3, "µs")
    else (d.nanos, 0, 0, "ns")
  String.ofList (Nat.toDigits 10 whole ++ if rest = 0 then [] else fractionText rest places) ++ unit

end Duration

end RemoteSettings
