import VersionedSite.Number.Binary

/-!
# Times as text

A time is a number of seconds since the beginning of 1970. Its text gives the date, the time of day and
the offset, in the universal zone; millionths of a second are written only where there are any.
-/

namespace VersionedSite.Text

/-- A day of the calendar. -/
structure Day where
  year : Int
  month : Int
  day : Int
  deriving DecidableEq, Repr

/-- The day that comes some days after the first of 1970. Years are counted from March on, so that the
day that leap years have more is their last, in eras of 400 years. -/
def Day.ofDays (days : Int) : Day :=
  let z := days + 719468
  let era := Int.fdiv z 146097
  let dayOfEra := z - era * 146097
  let yearOfEra := (dayOfEra - dayOfEra / 1460 + dayOfEra / 36524 - dayOfEra / 146096) / 365
  let dayOfYear := dayOfEra - (365 * yearOfEra + yearOfEra / 4 - yearOfEra / 100)
  let m := (5 * dayOfYear + 2) / 153
  let month := if m < 10 then m + 3 else m - 9
  { year := yearOfEra + era * 400 + (if month ≤ 2 then 1 else 0)
    month
    day := dayOfYear - (153 * m + 2) / 5 + 1 }

/-- A number in at least some digits, with zeros in front. -/
def padded (width : Nat) (n : Int) : String :=
  let digits := toString n.toNat
  String.ofList (List.replicate (width - digits.length) '0') ++ digits

/-- The number of whole millionths that is nearest to a number, of two the even one. The whole part is
told apart first, and the rest is rounded before it is counted. -/
def millionths? (seconds : Binary) : Option Int :=
  seconds.ratio?.bind fun (num, den) =>
    let whole := Int.tdiv num den
    let part := (Binary.ofSigned false (num - whole * den) den).mul (.ofInt 1000000)
    part.ratio?.map fun (num, den) =>
      let count : Int := Binary.roundRatio num.natAbs den
      whole * 1000000 + (if num < 0 then -count else count)

/-- Why a time has no date. -/
inductive DateFault where
  /-- The year is not one from 1 to 9999. -/
  | year
  /-- The year does not fit into 32 bits. -/
  | farYear
  /-- The seconds do not fit into 64 bits. -/
  | seconds
  deriving DecidableEq, Repr

/-- The text of a time in seconds. -/
def timestamp (time : Binary) : Except DateFault String :=
  match millionths? time with
  | none => .error .seconds
  | some total =>
    let seconds := Int.fdiv total 1000000
    let rest := total - seconds * 1000000
    let days := Int.fdiv seconds 86400
    let s := seconds - days * 86400
    let day := Day.ofDays days
    if seconds < -Int.pow 2 63 ∨ Int.pow 2 63 ≤ seconds then .error .seconds
    else if day.year - 1900 < -Int.pow 2 31 ∨ Int.pow 2 31 ≤ day.year - 1900 then .error .farYear
    else if day.year < 1 ∨ 9999 < day.year then .error .year
    else
      .ok (padded 4 day.year ++ "-" ++ padded 2 day.month ++ "-" ++ padded 2 day.day ++ "T" ++
        padded 2 (s / 3600) ++ ":" ++ padded 2 (s / 60 % 60) ++ ":" ++ padded 2 (s % 60) ++
        (if rest = 0 then "" else "." ++ padded 6 rest) ++ "+00:00")

end VersionedSite.Text
