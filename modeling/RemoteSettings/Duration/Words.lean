import RemoteSettings.Duration.Basic
import RemoteSettings.Number.Digits
import RemoteSettings.Text.Blank
import RemoteSettings.Text.Quoted

/-!
# Durations in words

A duration is written as a sum of terms such as `1m 30s`, each a number and a unit.  A number may
have a fraction when the term is a whole number of nanoseconds (of seconds, for hours and above).
Blanks may stand between and within numbers.  All sums and products must fit 64 bits.

## Main definitions

* `TimeUnit` — the units, their names and sizes.
* `Duration.Problem` — what can be wrong with a text.
* `Duration.ofWords` — reads a sum of terms.
* `Duration.words` — writes a duration, greatest unit first.
-/

namespace RemoteSettings

/-- A unit of time; a year is 365.25 days, and a month a twelfth of a year, nearly. -/
inductive TimeUnit
  | nanosecond
  | microsecond
  | millisecond
  | second
  | minute
  | hour
  | day
  | week
  | month
  | year
  deriving DecidableEq, Repr

namespace TimeUnit

/-- The names by which units are known. -/
def names : List (String × TimeUnit) :=
  [("nanos", .nanosecond), ("nsec", .nanosecond), ("ns", .nanosecond),
    ("usec", .microsecond), ("us", .microsecond), ("µs", .microsecond),
    ("millis", .millisecond), ("msec", .millisecond), ("ms", .millisecond),
    ("seconds", .second), ("second", .second), ("secs", .second), ("sec", .second), ("s", .second),
    ("minutes", .minute), ("minute", .minute), ("min", .minute), ("mins", .minute), ("m", .minute),
    ("hours", .hour), ("hour", .hour), ("hr", .hour), ("hrs", .hour), ("h", .hour),
    ("days", .day), ("day", .day), ("d", .day),
    ("weeks", .week), ("week", .week), ("wk", .week), ("wks", .week), ("w", .week),
    ("months", .month), ("month", .month), ("M", .month),
    ("years", .year), ("year", .year), ("yr", .year), ("yrs", .year), ("y", .year)]

/-- The seconds of a unit that is at least a second, else the nanoseconds. -/
def size : TimeUnit → Nat
  | .nanosecond => 1
  | .microsecond => 1_000
  | .millisecond => 1_000_000
  | .second => 1
  | .minute => 60
  | .hour => 3600
  | .day => 86400
  | .week => 7 * 86400
  | .month => 2630016
  | .year => 31557600

/-- Whether the unit is below a second. -/
def isSmall : TimeUnit → Bool
  | .nanosecond | .microsecond | .millisecond => true
  | _ => false

/-- Whether fractions of the unit are counted in nanoseconds, not in seconds. -/
def isFine : TimeUnit → Bool
  | .nanosecond | .microsecond | .millisecond | .second | .minute => true
  | _ => false

end TimeUnit

namespace Duration

/-- What is wrong with a duration in words; places are counted in bytes. -/
inductive Problem
  | empty
  | badCharacter (place : Nat)
  | numberExpected (place : Nat)
  | unknownUnit (name : String) (number : Nat)
  | tooLarge
  deriving DecidableEq, Repr

/-- The words for what is wrong. -/
def Problem.message : Problem → String
  | .empty => "value was empty"
  | .badCharacter place => "invalid character at " ++ toString place
  | .numberExpected place => "expected number at " ++ toString place
  | .unknownUnit name number =>
    if name = "" then
      "time unit needed, for example " ++ toString number ++ "sec or " ++ toString number ++ "ms"
    else
      "unknown time unit " ++ Quoted.display name
        ++ ", supported units: ns, us/µs, ms, sec, min, hours, days, weeks, months, years "
        ++ "(and few variations)"
  | .tooLarge =>
    "number is too large or cannot be represented without a lack of precision "
      ++ "(values below 1ns are not supported)"

namespace Words

/-- A character and the number of bytes before it. -/
abbrev Placed := Char × Nat

/-- The characters of a text with their places. -/
def place : Nat → List Char → List Placed
  | _, [] => []
  | n, c :: cs => (c, n) :: place (n + c.utf8Size) cs

/-- The place of the next character, or of the end. -/
def nextPlace (ending : Nat) : List Placed → Nat
  | [] => ending
  | (_, n) :: _ => n

/-- Whether a character may stand in the name of a unit. -/
def isLetter (c : Char) : Bool :=
  ('a' ≤ c && c ≤ 'z') || ('A' ≤ c && c ≤ 'Z') || c == 'µ'

/-- Takes digits, passing over blanks among them. -/
def numeral : List Placed → List Nat × List Placed
  | [] => ([], [])
  | (c, n) :: rest =>
    match Digits.value? 10 c with
    | some d =>
      let (ds, rest) := numeral rest
      (d :: ds, rest)
    | none => if Blank.isBlank c then numeral rest else ([], (c, n) :: rest)

/-- A number that must fit 64 bits. -/
def checked (n : Nat) : Except Problem Nat := if n < 1 <<< 64 then .ok n else .error .tooLarge

/-- Reads the fraction behind a point, if there is one: its digits. -/
def fraction (ending : Nat) : List Placed → Except Problem (List Nat × List Placed)
  | ('.', point) :: rest => do
    let (ds, after) := numeral rest
    -- The denominator has to fit as well.
    let _ ← checked (Nat.pow 10 ds.length)
    -- If nothing but the point was read, it is the point that is wrong.
    let here := if after.length = rest.length then point else nextPlace ending after
    match ds, after with
    | [], _ => .error (.badCharacter here)
    | ds, [] => .ok (ds, [])
    | ds, (c, n) :: after =>
      if isLetter c then .ok (ds, (c, n) :: after) else .error (.badCharacter here)
  | rest => .ok ([], rest)

/-- Adds seconds and nanoseconds to a duration. -/
def add (d : Duration) (seconds nanos : Nat) : Except Problem Duration := do
  let nanos ← checked (d.nanos + nanos)
  let seconds ← checked (seconds + d.seconds + nanos / 1_000_000_000)
  .ok (ofNanos seconds (nanos % 1_000_000_000))

/-- An exact quotient. -/
def exactQuotient (num den : Nat) : Except Problem Nat := do
  let num ← checked num
  if num % den = 0 then .ok (num / den) else .error .tooLarge

/-- Adds a number of units, and a fraction of one given by its digits. -/
def addTerm (d : Duration) (unit : TimeUnit) (n : Nat) (fraction : List Nat) :
    Except Problem Duration := do
  let amount ← checked (n * unit.size)
  let d ← if unit.isSmall then add d 0 amount else add d amount 0
  if fraction.isEmpty then .ok d
  else if unit = .nanosecond then .error .tooLarge
  else
    -- A fraction has to come out even: in nanoseconds, or in seconds for the greater units.
    let numerator := Digits.toNat 10 fraction
    let denominator := Nat.pow 10 fraction.length
    if unit.isSmall then do
      let nanos ← exactQuotient (numerator * unit.size) denominator
      add d 0 nanos
    else if unit.isFine then do
      let nanos ← exactQuotient (numerator * (unit.size * 1_000_000_000)) denominator
      add d 0 nanos
    else do
      let seconds ← exactQuotient (numerator * unit.size) denominator
      add d seconds 0

/-- Adds a term whose unit is given by its name. -/
def addNamed (d : Duration) (n : Nat) (fraction : List Nat) (name : List Char) :
    Except Problem Duration :=
  match TimeUnit.names.lookup (String.ofList name) with
  | some unit => addTerm d unit n fraction
  | none => .error (.unknownUnit (String.ofList name) n)

/-- Reads terms up to the end; the input begins with a digit. -/
def terms (ending : Nat) : Nat → Duration → List Placed → Except Problem Duration
  | 0, _, _ => .error .tooLarge
  | fuel + 1, d, s => do
    let (ds, s) := numeral s
    let n ← checked (Digits.toNat 10 ds)
    let (fraction, s) ← fraction ending s
    let name := (s.takeWhile (isLetter ·.1)).map (·.1)
    match name, s.dropWhile (isLetter ·.1) with
    | _, [] => addNamed d n fraction name
    | [], (_, here) :: _ => .error (.badCharacter here)
    | _, (c, here) :: rest =>
      if (Digits.value? 10 c).isSome then do
        let d ← addNamed d n fraction name
        terms ending fuel d ((c, here) :: rest)
      else if Blank.isBlank c then do
        let d ← addNamed d n fraction name
        match rest.dropWhile (Blank.isBlank ·.1) with
        | [] => .ok d
        | (c, n) :: more =>
          if (Digits.value? 10 c).isSome then terms ending fuel d ((c, n) :: more)
          else .error (.numberExpected (nextPlace ending rest))
      else .error (.badCharacter here)

end Words

open Words in
/-- Reads a duration in words. -/
def ofWords (text : String) : Except Problem Duration :=
  let cs := text.toList
  if cs = ['0'] then .ok (ofSeconds 0)
  else
    match (place 0 cs).dropWhile (Blank.isBlank ·.1) with
    | [] => .error .empty
    | (c, n) :: rest =>
      if (Digits.value? 10 c).isSome then
        terms text.utf8ByteSize cs.length (ofSeconds 0) ((c, n) :: rest)
      else .error (.numberExpected 0)

/-- A number of units, left out when it is zero. -/
def term (n : Nat) (unit : String) : List String := if n = 0 then [] else [toString n ++ unit]

/-- A number of units whose name has a plural, left out when it is zero. -/
def pluralTerm (n : Nat) (unit : String) : List String :=
  term n (if n = 1 then unit else unit ++ "s")

/-- The terms of a duration, greatest unit first. -/
def wordList (d : Duration) : List String :=
  let inYear := d.seconds % 31557600
  let inMonth := inYear % 2630016
  let inDay := inMonth % 86400
  pluralTerm (d.seconds / 31557600) "year"
    ++ pluralTerm (inYear / 2630016) "month"
    ++ pluralTerm (inMonth / 86400) "day"
    ++ term (inDay / 3600) "h"
    ++ term (inDay % 3600 / 60) "m"
    ++ term (inDay % 60) "s"
    ++ term (d.nanos / 1_000_000) "ms"
    ++ term (d.nanos / 1_000 % 1_000) "us"
    ++ term (d.nanos % 1_000) "ns"

/-- Writes a duration in words. -/
def words (d : Duration) : String :=
  if d.isZero then "0s" else " ".intercalate d.wordList

end Duration

end RemoteSettings
