/-
# `BranchDB.Go` — errors, durations and clock readings

Errors carry what the code reads off them: the reason by which the Kubernetes
helpers tell status errors apart, and the text that ends up in `status.message`.
A clock reading is a number of nanoseconds since the epoch; a `metav1.Time` as the
API server stores it is a whole number of seconds, since it travels as RFC 3339
without a fraction.  `time.Duration` is a signed 64-bit count of nanoseconds, and
its arithmetic wraps.
-/
import Mathlib.Algebra.Group.Int.Defs
import Mathlib.Algebra.Group.Nat.Defs
import Mathlib.Data.Int.Basic

namespace BranchDB

/-- What `errors.IsNotFound` and its siblings look at. -/
inductive Reason
  | notFound
  | alreadyExists
  | conflict
  | other
deriving DecidableEq, Repr

structure GoError where
  reason : Reason
  msg : String
deriving DecidableEq, Repr

namespace GoError

/-- `fmt.Errorf("<context>: %w", err)`. -/
def wrap (context : String) (err : GoError) : GoError :=
  { err with msg := context ++ ": " ++ err.msg }

/-- An error that is not an answer of the API server: the request or its reply got lost. -/
def Transport (err : GoError) : Prop := err.reason = .other

end GoError

/-- `fmt.Errorf` without `%w`. -/
def errorf (msg : String) : GoError := ⟨.other, msg⟩

/-- One character of a `%q` text. -/
def quoteChar : Char → String
  | '"' => "\\\""
  | '\\' => "\\\\"
  | '\n' => "\\n"
  | '\r' => "\\r"
  | '\t' => "\\t"
  | c => c.toString

/-- `%q` for text whose only characters to escape are quotes, backslashes, newlines,
carriage returns and tabs. -/
def quote (s : String) : String := "\"" ++ String.join (s.toList.map quoteChar) ++ "\""

/-- `client.IgnoreNotFound`. -/
def ignoreNotFound (err : GoError) : Option GoError :=
  if err.reason = .notFound then none else some err

/-- `if errors.IsAlreadyExists(err) { return nil }; return err`. -/
def ignoreAlreadyExists : Except GoError Unit → Except GoError Unit
  | .ok () => .ok ()
  | .error err => if err.reason = .alreadyExists then .ok () else .error err

/-! ## Time -/

/-- `time.Second` in nanoseconds. -/
def second : Int := 1000000000

/-- `time.Minute`. -/
def minute : Int := 60 * second

/-- `time.Hour`. -/
def hour : Int := 60 * minute

/-- The value of an int64 computation whose exact result is `x`. -/
def int64 (x : Int) : Int := x.bmod (2 ^ 64)

/-- `time.Duration(n) * unit`. -/
def duration (n unit : Int) : Int := int64 (n * unit)

/-- The largest number of hours a `time.Duration` can hold. -/
def maxHours : Int := (2 ^ 63 - 1) / hour

theorem maxHours_eq : maxHours = 2562047 := by decide

theorem duration_hours {n : Int} (hpos : 0 ≤ n) (hle : n ≤ maxHours) :
    duration n hour = n * hour := by
  rw [maxHours_eq] at hle
  have hhour : hour = 3600000000000 := by decide
  rw [duration, int64, hhour]
  exact Int.bmod_eq_of_le_mul_two (by omega) (by omega)

/-- `metav1.NewTime(t)`, as the API server stores it. -/
def newTime (t : Int) : Int := t / second

/-- `now.After(t)` for a stored `t`. -/
def after (now t : Int) : Bool := decide (t * second < now)

theorem after_iff {now t : Int} : after now t = true ↔ t * second < now := by
  simp [after]

/-- A clock reading after a stored instant has reached the next whole second, or is inside it. -/
theorem newTime_le_of_after {now t : Int} (h : after now t = true) : t ≤ newTime now := by
  rw [after_iff] at h
  unfold newTime
  have hpos : (0 : Int) < second := by decide
  exact (Int.le_ediv_iff_mul_le hpos).mpr (Int.le_of_lt h)

/-- Whole hours survive the truncation to seconds. -/
theorem newTime_add_hours (t n : Int) : newTime (t + n * hour) = newTime t + n * 3600 := by
  have : n * hour = (n * 3600) * second := by
    simp only [hour, minute, second]
    omega
  rw [newTime, newTime, this, Int.add_mul_ediv_right _ _ (by decide)]

theorem newTime_mono {t t' : Int} (h : t ≤ t') : newTime t ≤ newTime t' :=
  Int.ediv_le_ediv (by decide) h

/-- Too many hours come out as fewer. -/
theorem newTime_duration_lt {n : Int} (h : maxHours < n) :
    newTime (duration n hour) < n * 3600 := by
  rw [maxHours_eq] at h
  have hlt : int64 (n * hour) < (2 ^ 64 + 1) / 2 := Int.bmod_lt (by decide)
  rw [newTime, duration]
  refine Int.ediv_lt_of_lt_mul (by decide) ?_
  rw [show second = 1000000000 from rfl]
  omega

/-! ## Calendar -/

/-- `time.Time`: an instant, and the offset in seconds of the zone it is expressed in. -/
structure Time where
  nanos : Int
  offset : Int
deriving DecidableEq, Repr

/-- Year, month and day of a number of days since 1970-01-01.  The year is taken to begin in
March, so that the leap day is its last. -/
def civil (days : Int) : Int × Int × Int :=
  let z := days + 719468
  let era := z / 146097
  let doe := z % 146097
  let yoe := (doe - doe / 1460 + doe / 36524 - doe / 146096) / 365
  let doy := doe - (365 * yoe + yoe / 4 - yoe / 100)
  let mp := (5 * doy + 2) / 153
  let month := if mp < 10 then mp + 3 else mp - 9
  let year := yoe + era * 400
  (if month ≤ 2 then year + 1 else year, month, doy - (153 * mp + 2) / 5 + 1)

/-- A number in at least `width` digits. -/
def padded (width : Nat) (n : Int) : String :=
  let digits := Nat.toDigits 10 n.natAbs
  (if n < 0 then "-" else "") ++
    String.ofList (List.replicate (width - digits.length) '0' ++ digits)

/-- `t.Format("2006-01-02T15:04:05Z")`: the clock of the zone `t` is expressed in, whose
offset goes unmentioned. -/
def Time.format (t : Time) : String :=
  let wall := newTime t.nanos + t.offset
  let (year, month, day) := civil (wall / 86400)
  let clock := wall % 86400
  padded 4 year ++ "-" ++ padded 2 month ++ "-" ++ padded 2 day ++ "T" ++
    padded 2 (clock / 3600) ++ ":" ++ padded 2 (clock / 60 % 60) ++ ":" ++
    padded 2 (clock % 60) ++ "Z"

example : (Time.mk (951782400 * second) 3600).format = "2000-02-29T01:00:00Z" := by decide

end BranchDB
