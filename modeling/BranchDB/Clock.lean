/-
# `BranchDB.Clock` — the time formats of the snapshots

`t.Format("20060102-150405")`, the stamp in the name of an archive, and
`time.Parse("Mon Jan  2 15:04 2006", …)`, which reads the creation column of a listing.  As
Go's parser has it: names of days and months in any case, one or two digits for the day and
the hour, any number of blanks where the layout has one, and nothing left over.
-/
import BranchDB.Go

namespace BranchDB

/-- `t.Format("20060102-150405")`. -/
def Time.stamp (t : Time) : String :=
  let wall := newTime t.nanos + t.offset
  let (year, month, day) := civil (wall / 86400)
  let clock := wall % 86400
  padded 4 year ++ padded 2 month ++ padded 2 day ++ "-" ++
    padded 2 (clock / 3600) ++ padded 2 (clock / 60 % 60) ++ padded 2 (clock % 60)

example : (Time.mk (1780239845 * second) 0).stamp = "20260531-150405" := by decide +kernel

/-- The zero `time.Time`: the first instant of the year 1. -/
def Time.zero : Time := ⟨-62135596800 * second, 0⟩

/-- `t.After(u)`. -/
def Time.after (t u : Time) : Bool := u.nanos < t.nanos

/-- The number of days from 1970-01-01 to a date; the inverse of `civil`. -/
def daysOf (year month day : Int) : Int :=
  let y := if month ≤ 2 then year - 1 else year
  let doy := (153 * ((month + 9) % 12) + 2) / 5 + day - 1
  let doe := y % 400 * 365 + y % 400 / 4 - y % 400 / 100 + doy
  y / 400 * 146097 + doe - 719468

def isLeap (year : Int) : Bool := year % 4 = 0 ∧ (year % 100 ≠ 0 ∨ year % 400 = 0)

def daysIn (month year : Int) : Int :=
  if month = 2 then (if isLeap year then 29 else 28)
  else if month = 4 ∨ month = 6 ∨ month = 9 ∨ month = 11 then 30 else 31

theorem daysIn_le (month year : Int) : daysIn month year ≤ 31 := by
  unfold daysIn
  split
  · split <;> decide
  · split <;> decide

/-! ## The calendar -/

/-- The days of an era before one of them, less the leap days. -/
def commonDays (doe : Int) : Int := doe - doe / 1460 + doe / 36524 - doe / 146096

/-- The days of an era before one of its years. -/
def yearStart (yoe : Int) : Int := 365 * yoe + yoe / 4 - yoe / 100

theorem commonDays_mono {a b : Int} (_ : 0 ≤ a) (hab : a ≤ b) (_ : b ≤ 146096) :
    commonDays a ≤ commonDays b := by
  unfold commonDays
  omega

/-- The leap days are where the years begin. -/
theorem commonDays_yearStart : ∀ n < 400,
    (n = 0 ∨ commonDays (yearStart (n : Nat) - 1) < 365 * (n : Int)) ∧
      (n = 399 ∨ 365 * (n + 1 : Int) ≤ commonDays (yearStart (n + 1))) := by
  decide +kernel

/-- The year of the era, and the day of that year, which has 366 if it ends in a leap day. -/
theorem yoe_spec {doe : Int} (h0 : 0 ≤ doe) (h1 : doe < 146097) :
    0 ≤ commonDays doe / 365 ∧ commonDays doe / 365 < 400 ∧
      yearStart (commonDays doe / 365) ≤ doe ∧
      doe < yearStart (commonDays doe / 365 + 1) +
        (if commonDays doe / 365 = 399 then 1 else 0) := by
  have hrange : 0 ≤ commonDays doe / 365 ∧ commonDays doe / 365 < 400 := by
    unfold commonDays
    omega
  obtain ⟨n, hn⟩ := Int.eq_ofNat_of_zero_le hrange.1
  rw [hn] at hrange ⊢
  have hlt : n < 400 := by omega
  obtain ⟨hstart, hend⟩ := commonDays_yearStart n hlt
  refine ⟨hrange.1, hrange.2, ?_, ?_⟩
  · rcases hstart with rfl | hstart
    · exact h0
    · by_contra hlow
      have hmono := commonDays_mono h0 (show doe ≤ yearStart n - 1 by omega)
        (by unfold yearStart; omega)
      omega
  · rcases hend with rfl | hend
    · exact h1
    · by_contra hhigh
      have hmono := commonDays_mono (a := yearStart (n + 1)) (b := doe) (by unfold yearStart; omega)
        (by split at hhigh <;> omega) (by omega)
      omega

/-- The month of a day of the year, both counted from March, and the day of that month. -/
def monthOf (doy : Int) : Int := (5 * doy + 2) / 153

def dayOf (doy : Int) : Int := doy - (153 * monthOf doy + 2) / 5 + 1

/-- The year ends in February, which has 29 days if the year has 366. -/
theorem month_spec : ∀ n < 366, 0 ≤ monthOf (n : Nat) ∧ monthOf n ≤ 11 ∧ 1 ≤ dayOf n ∧
    dayOf n ≤ (if monthOf n = 11 then (if n = 365 then 29 else 28)
      else if monthOf n = 1 ∨ monthOf n = 3 ∨ monthOf n = 6 ∨ monthOf n = 8 then 30 else 31) := by
  decide +kernel

/-- A date is one of the calendar, and tells which day it is. -/
theorem civil_spec (days : Int) : 1 ≤ (civil days).2.1 ∧ (civil days).2.1 ≤ 12 ∧
    1 ≤ (civil days).2.2 ∧ (civil days).2.2 ≤ daysIn (civil days).2.1 (civil days).1 ∧
    daysOf (civil days).1 (civil days).2.1 (civil days).2.2 = days := by
  obtain ⟨era, hera⟩ : ∃ era, era = (days + 719468) / 146097 := ⟨_, rfl⟩
  obtain ⟨doe, hdoe⟩ : ∃ doe, doe = (days + 719468) % 146097 := ⟨_, rfl⟩
  obtain ⟨yoe, hyoe⟩ : ∃ yoe, yoe = commonDays doe / 365 := ⟨_, rfl⟩
  obtain ⟨doy, hdoy⟩ : ∃ doy, doy = doe - yearStart yoe := ⟨_, rfl⟩
  have hcivil : civil days =
      (if (if monthOf doy < 10 then monthOf doy + 3 else monthOf doy - 9) ≤ 2
        then yoe + era * 400 + 1 else yoe + era * 400,
      if monthOf doy < 10 then monthOf doy + 3 else monthOf doy - 9, dayOf doy) := by
    subst hdoy hyoe hdoe hera
    rfl
  have hdoe0 : 0 ≤ doe ∧ doe < 146097 := by omega
  obtain ⟨hyoe0, hyoe1, hstart, hend⟩ := yoe_spec hdoe0.1 hdoe0.2
  rw [← hyoe] at hyoe0 hyoe1 hstart hend
  have hdays : days = era * 146097 + doe - 719468 := by omega
  have hdoyRange : 0 ≤ doy ∧ doy < 366 := by
    unfold yearStart at hstart hend hdoy
    split at hend <;> omega
  obtain ⟨n, hn⟩ := Int.eq_ofNat_of_zero_le hdoyRange.1
  obtain ⟨hmp0, hmp1, hday0, hday1⟩ := month_spec n (by omega)
  rw [← hn] at hmp0 hmp1 hday0 hday1
  have hday : dayOf doy = doy - (153 * monthOf doy + 2) / 5 + 1 := rfl
  have hyear : (yoe + era * 400) % 400 = yoe ∧ (yoe + era * 400) / 400 = era := by omega
  rw [hcivil]
  dsimp only
  by_cases hlow : monthOf doy < 10
  · have hmonth : ¬ monthOf doy + 3 ≤ 2 := by omega
    have hback : (monthOf doy + 3 + 9) % 12 = monthOf doy := by omega
    rw [if_pos hlow, if_neg hmonth]
    refine ⟨by omega, by omega, hday0, ?_, ?_⟩
    · rw [if_neg (by omega)] at hday1
      unfold daysIn
      split at hday1 <;> split <;> split <;> omega
    · rw [daysOf, if_neg hmonth, hback, hyear.1, hyear.2]
      unfold yearStart at hdoy
      omega
  · have hmonth : monthOf doy - 9 ≤ 2 := by omega
    have hback : (monthOf doy - 9 + 9) % 12 = monthOf doy := by omega
    rw [if_neg hlow, if_pos hmonth]
    refine ⟨by omega, by omega, hday0, ?_, ?_⟩
    · -- A leap day is one where the year has it.
      have hleap : doy = 365 → isLeap (yoe + era * 400 + 1) = true := by
        intro hlast
        have hfour : (yoe + 1) % 4 = 0 ∨ (yoe + 1) / 4 = yoe / 4 := by omega
        have hhundred : (yoe + 1) % 100 ≠ 0 ∨ (yoe + 1) / 100 = yoe / 100 + 1 := by omega
        have hnext : (yoe + era * 400 + 1) % 4 = (yoe + 1) % 4 ∧
            (yoe + era * 400 + 1) % 100 = (yoe + 1) % 100 := by omega
        unfold yearStart at hstart hend hdoy
        refine decide_eq_true ?_
        rw [hnext.1, hnext.2]
        split at hend <;> omega
      by_cases hfeb : monthOf doy = 11
      · rw [if_pos hfeb] at hday1
        rw [daysIn, if_pos (by omega)]
        by_cases hlast : doy = 365
        · rw [if_pos (hleap hlast)]
          split at hday1 <;> omega
        · rw [if_neg (by omega)] at hday1
          split <;> omega
      · rw [if_neg hfeb, if_neg (by omega)] at hday1
        rw [daysIn, if_neg (by omega), if_neg (by omega)]
        exact hday1
    · rw [daysOf, if_pos hmonth, hback, Int.add_sub_cancel, hyear.1, hyear.2]
      unfold yearStart at hdoy
      omega

namespace Layout

/-- What a part of a layout reads, and the rest. -/
abbrev Reader (α : Type) := List Char → Option (α × List Char)

/-- One of some names, in any case: its index. -/
def name (names : List String) : Reader Nat := fun s => do
  let i ← names.findIdx? fun n =>
    n.toList.map Char.toLower = (s.take n.toList.length).map Char.toLower
  return (i, s.drop (names.getD i "").toList.length)

/-- A blank of the layout. -/
def blank : Reader Unit := fun s =>
  match s with
  | [] => some ((), [])
  | c :: _ => if c = ' ' then some ((), s.dropWhile (· = ' ')) else none

def colon : Reader Unit
  | ':' :: s => some ((), s)
  | _ => none

def digit (c : Char) : Option Nat := if c.isDigit then some (c.toNat - '0'.toNat) else none

/-- `getnum`: two digits, or one if that is allowed. -/
def number (fixed : Bool) : Reader Nat
  | [] => none
  | c :: s => do
    let n ← digit c
    match s.head?.bind digit with
    | some m => return (n * 10 + m, s.drop 1)
    | none => if fixed then none else some (n, s)

/-- Four digits. -/
def year : Reader Nat
  | a :: b :: c :: d :: s => do
    return ((← digit a) * 1000 + (← digit b) * 100 + (← digit c) * 10 + (← digit d), s)
  | _ => none

end Layout

def shortDayNames : List String := ["Sun", "Mon", "Tue", "Wed", "Thu", "Fri", "Sat"]

def shortMonthNames : List String :=
  ["Jan", "Feb", "Mar", "Apr", "May", "Jun", "Jul", "Aug", "Sep", "Oct", "Nov", "Dec"]

/-- `time.Parse("Mon Jan  2 15:04 2006", value)`, its error ignored. -/
def parseCreation (value : String) : Time :=
  let result : Option Time := do
    let (_, s) ← Layout.name shortDayNames value.toList
    let (_, s) ← Layout.blank s
    let (month, s) ← Layout.name shortMonthNames s
    let (_, s) ← Layout.blank s
    let (day, s) ← Layout.number false s
    let (_, s) ← Layout.blank s
    let (hour, s) ← Layout.number false s
    let (_, s) ← Layout.colon s
    let (minutes, s) ← Layout.number true s
    let (_, s) ← Layout.blank s
    let (year, s) ← Layout.year s
    if s ≠ [] ∨ 24 ≤ hour ∨ 60 ≤ minutes ∨ day < 1 ∨ daysIn (month + 1) year < day then none
    else some ⟨(daysOf year (month + 1) day * 86400 + hour * 3600 + minutes * 60) * second, 0⟩
  result.getD .zero

example : parseCreation "Sun May 31 15:04 2026" = ⟨1780239840 * second, 0⟩ := by decide +kernel

end BranchDB
