import Mathlib.Data.Int.Order.Basic
import Mathlib.Tactic.Lemma

/-!
# Datetimes

A `datetime` is a wall-clock reading, in microseconds since the epoch, with the UTC offset of its
`tzinfo`.  A naive one has no offset.
-/

namespace Sast

/-- `datetime`. -/
structure DateTime where
  clock : Int
  utcoffset : Option Int
deriving DecidableEq, Inhabited

namespace DateTime

/-- `value.tzinfo is not None`. -/
def isAware (d : DateTime) : Bool := d.utcoffset.isSome

/-- `value.astimezone(timezone.utc)` of an aware value, `replace(tzinfo=utc)` of a naive one:
`core/time.py`'s `as_aware_utc`. -/
def asAwareUtc (d : DateTime) : DateTime :=
  match d.utcoffset with
  | none => { clock := d.clock, utcoffset := some 0 }
  | some offset => { clock := d.clock - offset, utcoffset := some 0 }

/-- The decimal digits of `n`, with zeros in front up to the width. -/
def zeroPadded (width n : Nat) : String :=
  let digits := toString n
  String.ofList (List.replicate (width - digits.length) '0') ++ digits

/-- Year, month and day of the day with the given number, counted from the epoch.  Years are
counted from March, so that the leap day is the last one. -/
def civil (day : Int) : Int × Int × Int :=
  let shifted := day + 719468
  let era := shifted / 146097
  let dayOfEra := shifted % 146097
  let yearOfEra := (dayOfEra - dayOfEra / 1460 + dayOfEra / 36524 - dayOfEra / 146096) / 365
  let dayOfYear := dayOfEra - (365 * yearOfEra + yearOfEra / 4 - yearOfEra / 100)
  let march := (5 * dayOfYear + 2) / 153
  let month := if march < 10 then march + 3 else march - 9
  let year := yearOfEra + era * 400 + (if month ≤ 2 then 1 else 0)
  (year, month, dayOfYear - (153 * march + 2) / 5 + 1)

/-- `value.isoformat()` of an aware UTC value. -/
def isoformat (d : DateTime) : String :=
  let (year, month, day) := civil (d.clock / 86400000000)
  let time := (d.clock % 86400000000).toNat
  let seconds := time / 1000000
  let micros := time % 1000000
  zeroPadded 4 year.toNat ++ "-" ++ zeroPadded 2 month.toNat ++ "-" ++ zeroPadded 2 day.toNat
    ++ "T" ++ zeroPadded 2 (seconds / 3600) ++ ":" ++ zeroPadded 2 (seconds / 60 % 60)
    ++ ":" ++ zeroPadded 2 (seconds % 60)
    ++ (if micros = 0 then "" else "." ++ zeroPadded 6 micros) ++ "+00:00"

example : isoformat ⟨1709210096000025, some 0⟩ = "2024-02-29T12:34:56.000025+00:00" := by
  decide +kernel

/-- The instant a datetime stands for: what Python compares two aware UTC values by. -/
def instant (d : DateTime) : Int := d.asAwareUtc.clock

end DateTime

end Sast
