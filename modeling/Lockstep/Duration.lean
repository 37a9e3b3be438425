import Lockstep.Decimal

/-!
# Durations

Spans of time to the nanosecond, with two ways to write them: as a list of
units (`1h 30m`), which is how settings hold them, and as one decimal in the
largest unit below it (`5400s`, `1.5ms`), which is how the log shows them.
-/

namespace Lockstep

/-- A span of time. -/
structure Duration where
  seconds : Nat
  nanos : Nat
  seconds_lt : seconds < UInt64.size
  nanos_lt : nanos < 1000000000
deriving DecidableEq

namespace Duration

/-- A whole number of seconds. -/
def ofSeconds (n : UInt64) : Duration := ⟨n.toNat,0,n.toNat_lt,by decide⟩

/-- No time at all. -/
def zero : Duration := ofSeconds 0

/-- Whether a span is empty. -/
def isZero (d : Duration) : Bool := d.seconds == 0 && d.nanos == 0

/-- The span in nanoseconds. -/
def inNanos (d : Duration) : Nat := d.seconds * 1000000000 + d.nanos

/-- Nanoseconds in milliseconds, a part of one counted whole. -/
def millisOf (nanos : Nat) : Nat := (nanos + 999999) / 1000000

/-- The span in milliseconds, a part of one counted whole. -/
def millisUp (d : Duration) : Nat := millisOf d.inNanos

/-- The longest wait, in milliseconds: thirty years of 365 days. -/
def longestWait : Nat := 946080000000

/-- How long is waited for a span, in milliseconds: a part of one counts whole,
and no wait is longer than the longest. -/
def waitMillis (d : Duration) : Nat := min d.millisUp longestWait

/-! ## Units -/

/-- The units a duration is written in. -/
inductive TimeUnit where
  | nanosecond
  | microsecond
  | millisecond
  | second
  | minute
  | hour
  | day
  | week
  | month
  | year
deriving DecidableEq, Repr

/-- What a unit holds: nanoseconds below a second, seconds from there on. -/
inductive Measure where
  | nanos (n : Nat)
  | seconds (n : Nat)

/-- A month is a twelfth of a year, and a year has 365.25 days. -/
def TimeUnit.measure : TimeUnit → Measure
  | .nanosecond => .nanos 1
  | .microsecond => .nanos 1000
  | .millisecond => .nanos 1000000
  | .second => .seconds 1
  | .minute => .seconds 60
  | .hour => .seconds 3600
  | .day => .seconds 86400
  | .week => .seconds 604800
  | .month => .seconds 2630016
  | .year => .seconds 31557600

/-! ## Writing -/

/-- The counts of a span in the units it is written in, the largest first. A
word is put in the plural, a sign is not. -/
def counts (d : Duration) : List (Nat × String × Bool) :=
  let inYear := d.seconds % 31557600
  let inMonth := inYear % 2630016
  let inDay := inMonth % 86400
  [(d.seconds / 31557600,"year",true),
    (inYear / 2630016,"month",true),
    (inMonth / 86400,"day",true),
    (inDay / 3600,"h",false),
    (inDay % 3600 / 60,"m",false),
    (inDay % 60,"s",false),
    (d.nanos / 1000000,"ms",false),
    (d.nanos / 1000 % 1000,"us",false),
    (d.nanos % 1000,"ns",false)]

/-- One count with its unit. -/
def writeCount : Nat × String × Bool → String
  | (n,name,word) => Decimal.text n ++ name ++ if word ∧ 1 < n then "s" else ""

/-- The span as a list of its units. -/
def text (d : Duration) : String :=
  if d.isZero then "0s" else " ".intercalate ((d.counts.filter (·.1 ≠ 0)).map writeCount)

/-- A number with `places` digits after the point, less the zeros at the end. -/
def writePoint (whole part places : Nat) : List Char :=
  let padded := List.replicate (places - (Decimal.digits part).length) '0' ++ Decimal.digits part
  let kept := (padded.reverse.dropWhile (· == '0')).reverse
  Decimal.digits whole ++ if kept.isEmpty then [] else '.' :: kept

/-- The span as one number. -/
def plainText (d : Duration) : String :=
  String.ofList <|
    if 0 < d.seconds then writePoint d.seconds d.nanos 9 ++ ['s']
    else if 1000000 ≤ d.nanos then
      writePoint (d.nanos / 1000000) (d.nanos % 1000000) 6 ++ ['m','s']
    else if 1000 ≤ d.nanos then writePoint (d.nanos / 1000) (d.nanos % 1000) 3 ++ ['µ','s']
    else Decimal.digits d.nanos ++ ['n','s']

end Duration

end Lockstep
