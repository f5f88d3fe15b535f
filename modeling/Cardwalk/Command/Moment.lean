import Cardwalk.Decimal.Layout
/-!
# Times

The time of a command in universal time, as it is kept with a document and
as it stands in the name of a file.
-/

set_option autoImplicit false

namespace Cardwalk

structure Moment where
  time : String := ""
  stamp : String := ""

namespace Moment

structure Date where
  year : Nat
  month : Nat
  day : Nat
deriving DecidableEq, Repr

/-- The date so many days behind the first of January 1970.  Years are
counted from March, in cycles of 400 years. -/
def dateOf (days : Nat) : Date :=
  let n := days + 719468
  let inCycle := n % 146097
  let year := (inCycle - inCycle / 1460 + inCycle / 36524 - inCycle / 146096) / 365
  let inYear := inCycle - (365 * year + year / 4 - year / 100)
  let march := (5 * inYear + 2) / 153
  let month := if march < 10 then march + 3 else march - 9
  ⟨year + n / 146097 * 400 + (if month ≤ 2 then 1 else 0), month,
    inYear - (153 * march + 2) / 5 + 1⟩

example : dateOf 19782 = ⟨2024, 2, 29⟩ := by decide

def padded (width n : Nat) : String :=
  let ds := Decimal.natDigits n
  String.ofList (Decimal.zeros (width - ds.length) ++ ds)

def ofSeconds (seconds nanos : Nat) : Moment :=
  let d := dateOf (seconds / 86400)
  let hour := padded 2 (seconds / 3600 % 24)
  let minute := padded 2 (seconds / 60 % 60)
  let second := padded 2 (seconds % 60)
  let year := padded 4 d.year
  let month := padded 2 d.month
  let day := padded 2 d.day
  { time := year ++ "-" ++ month ++ "-" ++ day ++ "T" ++ hour ++ ":" ++ minute ++ ":" ++ second
      ++ "." ++ padded 9 nanos ++ "+00:00"
    stamp := year ++ month ++ day ++ "-" ++ hour ++ minute ++ second }

end Moment

end Cardwalk
