/-
# `BranchDB.Timestamp` — times on the wire

    2026-05-31T15:04:05Z

`time.Parse(time.RFC3339, …)`, and what it makes of a text that `Time.format` wrote: the clock of
the zone the time was expressed in, taken for UTC, and no time at all if the year does not have
four digits (`parseRFC3339_format`).
-/
import BranchDB.Clock

namespace BranchDB

namespace Layout

/-- A character that stands for itself. -/
def literal (c : Char) : Reader Unit
  | [] => none
  | d :: s => if d = c then some ((), s) else none

/-- A fraction of a second, in nanoseconds, which a layout need not mention. -/
def fraction : Reader Int
  | c :: d :: s =>
    if (c = '.' ∨ c = ',') ∧ d.isDigit then
      let digits := ((d :: s).takeWhile Char.isDigit).take 9
      some (Nat.ofDigitChars 10 digits 0 * 10 ^ (9 - digits.length),
        (d :: s).dropWhile Char.isDigit)
    else some (0, c :: d :: s)
  | s => some (0, s)

/-- `Z07:00`: the seconds east of UTC.  24 hours and 60 minutes are let through. -/
def zone : Reader Int
  | 'Z' :: s => some (0, s)
  | sign :: h₁ :: h₂ :: ':' :: m₁ :: m₂ :: s => do
    let (hours, _) ← number true [h₁, h₂]
    let (minutes, _) ← number true [m₁, m₂]
    if 24 < hours ∨ 60 < minutes then none
    else if sign = '+' then some (hours * 3600 + minutes * 60, s)
    else if sign = '-' then some (-(hours * 3600 + minutes * 60), s)
    else none
  | _ => none

end Layout

/-- `time.Parse(time.RFC3339, value)`. -/
def parseRFC3339 (value : String) : Option Time := do
  let (year, s) ← Layout.year value.toList
  let (_, s) ← Layout.literal '-' s
  let (month, s) ← Layout.number true s
  let (_, s) ← Layout.literal '-' s
  let (day, s) ← Layout.number true s
  let (_, s) ← Layout.literal 'T' s
  let (hour, s) ← Layout.number false s
  let (_, s) ← Layout.literal ':' s
  let (minutes, s) ← Layout.number true s
  let (_, s) ← Layout.literal ':' s
  let (seconds, s) ← Layout.number true s
  let (nanos, s) ← Layout.fraction s
  let (offset, s) ← Layout.zone s
  if s ≠ [] ∨ month < 1 ∨ 12 < month ∨ 24 ≤ hour ∨ 60 ≤ minutes ∨ 60 ≤ seconds ∨ day < 1 ∨
      daysIn month year < day then none
  else some ⟨(daysOf year month day * 86400 + hour * 3600 + minutes * 60 + seconds - offset) *
    second + nanos, offset⟩

example : parseRFC3339 "2026-05-31T15:04:05Z" = some ⟨1780239845 * second, 0⟩ := by decide +kernel

example : parseRFC3339 "2026-05-31T17:04:05.5+02:00" =
    some ⟨1780239845 * second + 500000000, 7200⟩ := by decide +kernel

/-! ## Digits -/

/-- The last digits of a number. -/
def lastDigits : Nat → Nat → List Char
  | 0, _ => []
  | k + 1, n => lastDigits k (n / 10) ++ [Nat.digitChar (n % 10)]

/-- A number of no more digits is padded to so many. -/
theorem toList_padded {n k : Nat} (hk : 0 < k) (h : n < 10 ^ k) :
    (padded k n).toList = lastDigits k n := by
  have hnat : ((n : Int)).natAbs = n := Int.natAbs_natCast n
  have hpadded : (padded k n).toList =
      List.replicate (k - (Nat.toDigits 10 n).length) '0' ++ Nat.toDigits 10 n := by
    rw [padded, if_neg (by omega), String.empty_append, String.toList_ofList, hnat]
  rw [hpadded]
  clear hpadded hnat
  induction k, hk using Nat.le_induction generalizing n with
  | base =>
      rw [Nat.toDigits_of_lt_base (by omega), lastDigits, lastDigits, Nat.mod_eq_of_lt (by omega)]
      rfl
  | succ k hk ih =>
      obtain ⟨j, rfl⟩ : ∃ j, k = j + 1 := ⟨k - 1, by omega⟩
      rw [lastDigits]
      by_cases hsmall : n < 10
      · have hzero : List.replicate j '0' ++ ['0'] = lastDigits (j + 1) 0 :=
          ih (n := 0) (Nat.pow_pos (by decide))
        rw [Nat.toDigits_of_lt_base hsmall, Nat.div_eq_of_lt hsmall, Nat.mod_eq_of_lt hsmall,
          ← hzero, ← List.replicate_succ']
        rfl
      · have hrest := ih (n := n / 10) (by rw [Nat.pow_succ] at h; omega)
        rw [Nat.toDigits_of_base_le (by decide) (by omega), List.length_append,
          List.length_singleton, ← hrest, List.append_assoc, Nat.add_sub_add_right]

/-- So many characters are digits and stand for a number. -/
theorem digit_digitChar : ∀ n < 10, Layout.digit (Nat.digitChar n) = some n := by decide

theorem number_lastDigits {n : Nat} (h : n < 100) (fixed : Bool) (s : List Char) :
    Layout.number fixed (lastDigits 2 n ++ s) = some (n, s) := by
  have htens := digit_digitChar (n / 10 % 10) (by omega)
  have hones := digit_digitChar (n % 10) (by omega)
  have hn : n / 10 % 10 * 10 + n % 10 = n := by omega
  simp only [lastDigits, List.nil_append, List.cons_append, Layout.number, List.head?_cons,
    Option.bind_some, htens, hones, List.drop_succ_cons, List.drop_zero]
  exact congrArg (fun k => some (k, s)) hn

theorem year_lastDigits {n : Nat} (h : n < 10000) (s : List Char) :
    Layout.year (lastDigits 4 n ++ s) = some (n, s) := by
  have hthousands := digit_digitChar (n / 10 / 10 / 10 % 10) (by omega)
  have hhundreds := digit_digitChar (n / 10 / 10 % 10) (by omega)
  have htens := digit_digitChar (n / 10 % 10) (by omega)
  have hones := digit_digitChar (n % 10) (by omega)
  have hn : n / 10 / 10 / 10 % 10 * 1000 + n / 10 / 10 % 10 * 100 + n / 10 % 10 * 10 + n % 10 =
      n := by omega
  simp only [lastDigits, List.nil_append, List.cons_append, Layout.year, hthousands, hhundreds,
    htens, hones]
  exact congrArg (fun k => some (k, s)) hn

/-! ## What is written is read -/

theorem literal_self (c : Char) (s : List Char) : Layout.literal c (c :: s) = some ((), s) :=
  if_pos rfl

/-- What is read is handed on, with what is left to read. -/
theorem bind_read {α β : Type} {read : Option (α × List Char)} {a : α} {s : List Char}
    (h : read = some (a, s)) (next : α × List Char → Option β) : (read >>= next) = next (a, s) := by
  rw [h]
  rfl

/-- A date and a clock that are in range are read as they were written. -/
theorem parseRFC3339_written {year month day hour minutes seconds : Nat} (hyear : year < 10000)
    (hmonth : 1 ≤ month ∧ month ≤ 12) (hday : 1 ≤ day ∧ (day : Int) ≤ daysIn month year)
    (hhour : hour < 24) (hminutes : minutes < 60) (hseconds : seconds < 60) :
    parseRFC3339 (padded 4 year ++ "-" ++ padded 2 month ++ "-" ++ padded 2 day ++ "T" ++
      padded 2 hour ++ ":" ++ padded 2 minutes ++ ":" ++ padded 2 seconds ++ "Z") =
    some ⟨(daysOf year month day * 86400 + hour * 3600 + minutes * 60 + seconds) * second, 0⟩ := by
  have hshort : day < 100 := by
    have hle := daysIn_le month year
    omega
  have hchars : (padded 4 year ++ "-" ++ padded 2 month ++ "-" ++ padded 2 day ++ "T" ++
      padded 2 hour ++ ":" ++ padded 2 minutes ++ ":" ++ padded 2 seconds ++ "Z").toList =
      lastDigits 4 year ++ ('-' :: (lastDigits 2 month ++ ('-' :: (lastDigits 2 day ++ ('T' ::
        (lastDigits 2 hour ++ (':' :: (lastDigits 2 minutes ++ (':' :: (lastDigits 2 seconds ++
          ['Z'])))))))))) := by
    simp only [String.toList_append, List.append_assoc]
    rw [toList_padded (by decide) hyear, toList_padded (by decide) (by omega),
      toList_padded (by decide) hshort, toList_padded (by decide) (by omega),
      toList_padded (by decide) (by omega), toList_padded (by decide) (by omega)]
    rfl
  have hrange : ¬ (([] : List Char) ≠ [] ∨ month < 1 ∨ 12 < month ∨ 24 ≤ hour ∨ 60 ≤ minutes ∨
      60 ≤ seconds ∨ day < 1 ∨ daysIn month year < day) := by
    simp only [ne_eq, not_true_eq_false, false_or]
    omega
  have hfraction : Layout.fraction ['Z'] = some (0, ['Z']) := rfl
  have hzone : Layout.zone ['Z'] = some (0, []) := rfl
  rw [parseRFC3339, hchars]
  refine (bind_read (year_lastDigits hyear _) _).trans ?_
  refine (bind_read (literal_self '-' _) _).trans ?_
  refine (bind_read (number_lastDigits (by omega) true _) _).trans ?_
  refine (bind_read (literal_self '-' _) _).trans ?_
  refine (bind_read (number_lastDigits hshort true _) _).trans ?_
  refine (bind_read (literal_self 'T' _) _).trans ?_
  refine (bind_read (number_lastDigits (by omega) false _) _).trans ?_
  refine (bind_read (literal_self ':' _) _).trans ?_
  refine (bind_read (number_lastDigits (by omega) true _) _).trans ?_
  refine (bind_read (literal_self ':' _) _).trans ?_
  refine (bind_read (number_lastDigits (by omega) true _) _).trans ?_
  refine (bind_read hfraction _).trans ?_
  refine (bind_read hzone _).trans ?_
  dsimp only
  rw [if_neg hrange, Int.sub_zero, Int.add_zero]

/-- `t.Year()`: in the zone the time is expressed in. -/
def Time.year (t : Time) : Int := (civil ((newTime t.nanos + t.offset) / 86400)).1

theorem parseRFC3339_format {t : Time} (hyear : 0 ≤ t.year ∧ t.year < 10000) :
    parseRFC3339 t.format = some ⟨(newTime t.nanos + t.offset) * second, 0⟩ := by
  obtain ⟨wall, hwall⟩ : ∃ wall, wall = newTime t.nanos + t.offset := ⟨_, rfl⟩
  have hspec := civil_spec (wall / 86400)
  rw [Time.year, ← hwall] at hyear
  rw [Time.format, ← hwall]
  rcases hcivil : civil (wall / 86400) with ⟨year, month, day⟩
  rw [hcivil] at hspec hyear
  obtain ⟨hmonth0, hmonth1, hday0, hday1, hdays⟩ := hspec
  dsimp only at hyear hmonth0 hmonth1 hday0 hday1 hdays ⊢
  lift year to Nat using hyear.1
  lift month to Nat using by omega
  lift day to Nat using by omega
  obtain ⟨clock, hclock⟩ :=
    Int.eq_ofNat_of_zero_le (Int.emod_nonneg wall (show (86400 : Int) ≠ 0 by decide))
  have hlt : clock < 86400 := by omega
  rw [hclock]
  have hwritten := @parseRFC3339_written year month day (clock / 3600) (clock / 60 % 60)
    (clock % 60) (by omega) (by omega) ⟨by omega, hday1⟩ (by omega) (by omega) (by omega)
  have hinstant : daysOf year month day * 86400 + ((clock / 3600 : Nat) : Int) * 3600 +
      ((clock / 60 % 60 : Nat) : Int) * 60 + ((clock % 60 : Nat) : Int) = wall := by omega
  rw [hinstant] at hwritten
  exact hwritten

theorem year_eq_none {c : Char} (hc : Layout.digit c = none) (s : List Char) :
    Layout.year (c :: s) = none := by
  unfold Layout.year
  split
  · next heq =>
    obtain ⟨rfl, -⟩ := List.cons.inj heq
    rw [hc]
    rfl
  · rfl

/-- A year takes four characters. -/
theorem year_left {a b c d : Char} {s : List Char} {read : Nat × List Char}
    (h : Layout.year (a :: b :: c :: d :: s) = some read) : read.2 = s := by
  simp only [Layout.year, Option.bind_eq_bind, Option.bind_eq_some_iff] at h
  obtain ⟨_, -, _, -, _, -, _, -, h⟩ := h
  cases h
  rfl

/-- Five digits are no year. -/
theorem parseRFC3339_five {value : String} {l s : List Char} (hvalue : value.toList = l ++ s)
    (hlength : 4 < l.length) (hdigits : ∀ c ∈ l, c.isDigit = true) : parseRFC3339 value = none := by
  obtain ⟨a, b, c, d, e, rest, rfl⟩ : ∃ a b c d e rest, l = a :: b :: c :: d :: e :: rest := by
    match l, hlength with
    | a :: b :: c :: d :: e :: rest, _ => exact ⟨a, b, c, d, e, rest, rfl⟩
  have hdash : Layout.literal '-' (e :: (rest ++ s)) = none := by
    refine if_neg ?_
    intro he
    have he' := hdigits e (by simp)
    rw [he] at he'
    exact absurd he' (by decide)
  rw [parseRFC3339, hvalue]
  cases hyear : Layout.year (a :: b :: c :: d :: (e :: (rest ++ s))) with
  | none => exact congrArg (· >>= _) hyear
  | some read =>
      obtain ⟨year, left⟩ := read
      obtain rfl : left = e :: (rest ++ s) := year_left hyear
      exact (bind_read hyear _).trans (congrArg (· >>= _) hdash)

/-- A year that does not have four digits is not read. -/
theorem parseRFC3339_format_eq_none {t : Time} (hyear : t.year < 0 ∨ 10000 ≤ t.year) :
    parseRFC3339 t.format = none := by
  obtain ⟨rest, hformat⟩ : ∃ rest : String, t.format = padded 4 t.year ++ rest := by
    rcases hcivil : civil ((newTime t.nanos + t.offset) / 86400) with ⟨year, month, day⟩
    simp only [Time.format, Time.year, hcivil, String.append_assoc]
    exact ⟨_, rfl⟩
  have hchars : t.format.toList = (padded 4 t.year).toList ++ rest.toList := by
    rw [hformat, String.toList_append]
  rcases hyear with hneg | hlong
  · rw [parseRFC3339, hchars, padded, if_pos hneg, String.toList_append]
    exact congrArg (· >>= _) (year_eq_none (by decide) _)
  · have hdigits : (padded 4 t.year).toList =
        List.replicate (4 - (Nat.toDigits 10 t.year.natAbs).length) '0' ++
          Nat.toDigits 10 t.year.natAbs := by
      rw [padded, if_neg (by omega), String.empty_append, String.toList_ofList]
    have hlength : 4 < (Nat.toDigits 10 t.year.natAbs).length := by
      have hle := (Nat.length_toDigits_le_iff (n := t.year.natAbs) (show 1 < 10 by decide)
        (show 0 < 4 by decide)).not.mpr (by omega)
      exact Nat.lt_of_not_le hle
    rw [Nat.sub_eq_zero_of_le (Nat.le_of_lt hlength), List.replicate_zero,
      List.nil_append] at hdigits
    rw [hdigits] at hchars
    exact parseRFC3339_five hchars hlength fun c hc =>
      Nat.isDigit_of_mem_toDigits (by decide) (by decide) hc

end BranchDB
