/-
# `BranchDB.Creation` — what the creation column of a listing is read as

    Sun May 31 15:04 2026

`time.Parse("Mon Jan  2 15:04 2006", …)` gives the minute that was printed, if its year has four
digits (`parseCreation_written`).  Of more than the five words of a time it reads nothing, since
no part of the layout takes a blank but those between the words (`parseCreation_words`).
-/
import BranchDB.Strings
import BranchDB.Timestamp

namespace BranchDB

open Strings

namespace Layout

/-! ## What is written is read -/

variable {names : List String}

/-- One of the names, where they have three letters each and no two are the same. -/
theorem name_getD {i : Nat} (hlength : ∀ n ∈ names, n.toList.length = 3)
    (hi : (names.getD i "").toList.length = 3)
    (hfirst : names.findIdx? (fun n => n.toList.map Char.toLower =
      (names.getD i "").toList.map Char.toLower) = some i) (s : List Char) :
    name names ((names.getD i "").toList ++ s) = some (i, s) := by
  have htake : ∀ n ∈ names,
      ((names.getD i "").toList ++ s).take n.toList.length = (names.getD i "").toList := by
    intro n hn
    rw [hlength n hn, ← hi, List.take_left]
  have hsame : names.findIdx? (fun n => n.toList.map Char.toLower =
      (((names.getD i "").toList ++ s).take n.toList.length).map Char.toLower) = some i := by
    obtain ⟨hlt, hhere, hbefore⟩ := List.findIdx?_eq_some_iff_getElem.mp hfirst
    refine List.findIdx?_eq_some_iff_getElem.mpr ⟨hlt, ?_, fun j hj => ?_⟩
    · rw [htake _ (List.getElem_mem hlt)]
      exact hhere
    · rw [htake _ (List.getElem_mem (hj.trans hlt))]
      exact hbefore j hj
  rw [name, hsame]
  exact congrArg (fun l => some (i, l)) List.drop_left

theorem digit_eq_none {c : Char} (hc : c.isDigit = false) : digit c = none := by
  rw [digit, if_neg (Bool.eq_false_iff.mp hc)]

/-- One digit or two, and no more of them. -/
theorem number_padded {n : Nat} (h : n < 100) {c : Char} (hc : c.isDigit = false) (s : List Char) :
    number false ((padded 1 n).toList ++ c :: s) = some (n, c :: s) := by
  by_cases hsmall : n < 10
  · have hdigit := digit_digitChar (n % 10) (by omega)
    rw [toList_padded (by decide) hsmall]
    simp only [lastDigits, List.nil_append, List.cons_append, number, List.head?_cons,
      Option.bind_some, hdigit, digit_eq_none hc]
    exact congrArg (fun k => some (k, c :: s)) (Nat.mod_eq_of_lt hsmall)
  · have hlength : (Nat.toDigits 10 (n : Int).natAbs).length = 2 := by
      rw [Int.natAbs_natCast, Nat.toDigits_of_base_le (by decide) (by omega),
        Nat.toDigits_of_lt_base (by omega)]
      rfl
    have hwide : padded 1 n = padded 2 n := by
      rw [padded, padded, hlength]
    rw [hwide, toList_padded (by decide) h]
    exact number_lastDigits h false (c :: s)

theorem blank_word {w : String} (h : IsWord w) (s : List Char) :
    blank (' ' :: (w.toList ++ s)) = some ((), w.toList ++ s) := by
  obtain ⟨c, cs, hw⟩ :=
    List.exists_cons_of_ne_nil fun hnil => h.1 (String.toList_eq_nil_iff.mp hnil)
  have hc : c ≠ ' ' := by
    rintro rfl
    exact absurd (h.2 ' ' (hw ▸ List.mem_cons_self)) (by decide)
  have hdrop : (' ' :: c :: (cs ++ s)).dropWhile (· = ' ') = c :: (cs ++ s) := by
    simp only [List.dropWhile_cons, decide_true, if_true, hc, decide_false, Bool.false_eq_true,
      if_false]
  rw [hw, List.cons_append, blank, if_pos rfl, hdrop]

end Layout

theorem isWord_padded (width n : Nat) : IsWord (padded width n) := by
  have hchars : (padded width n).toList =
      List.replicate (width - (Nat.toDigits 10 n).length) '0' ++ Nat.toDigits 10 n := by
    rw [padded, if_neg (by omega), String.empty_append, String.toList_ofList, Int.natAbs_natCast]
  constructor
  · intro hempty
    rw [hempty] at hchars
    exact Nat.toDigits_ne_nil (List.append_eq_nil_iff.mp hchars.symm).2
  · intro c hc
    rw [hchars] at hc
    rcases List.mem_append.mp hc with hc | hc
    · rw [List.eq_of_mem_replicate hc]
      decide
    · exact isSpace_of_isDigit (Nat.isDigit_of_mem_toDigits (by decide) (by decide) hc)

theorem weekday_getD : ∀ i < 7, ∀ s, Layout.name shortDayNames
    ((shortDayNames.getD i "").toList ++ s) = some (i, s) := by
  have hlength : ∀ n ∈ shortDayNames, n.toList.length = 3 := by decide
  have hnames : ∀ i < 7, (shortDayNames.getD i "").toList.length = 3 ∧
      shortDayNames.findIdx? (fun n => n.toList.map Char.toLower =
        (shortDayNames.getD i "").toList.map Char.toLower) = some i := by decide
  exact fun i hi => Layout.name_getD hlength (hnames i hi).1 (hnames i hi).2

theorem month_getD : ∀ i < 12, ∀ s, Layout.name shortMonthNames
    ((shortMonthNames.getD i "").toList ++ s) = some (i, s) := by
  have hlength : ∀ n ∈ shortMonthNames, n.toList.length = 3 := by decide
  have hnames : ∀ i < 12, (shortMonthNames.getD i "").toList.length = 3 ∧
      shortMonthNames.findIdx? (fun n => n.toList.map Char.toLower =
        (shortMonthNames.getD i "").toList.map Char.toLower) = some i := by decide
  exact fun i hi => Layout.name_getD hlength (hnames i hi).1 (hnames i hi).2

theorem isWord_month : ∀ i < 12, IsWord (shortMonthNames.getD i "") := by decide

/-- A year of more than four digits leaves some of them. -/
theorem year_padded {n : Nat} (h : 10000 ≤ n) {read : Nat × List Char}
    (hread : Layout.year (padded 4 n).toList = some read) : read.2 ≠ [] := by
  have hlength : 4 < (Nat.toDigits 10 n).length := by
    have hle := (Nat.length_toDigits_le_iff (n := n) (show 1 < 10 by decide)
      (show 0 < 4 by decide)).not.mpr (by omega)
    exact Nat.lt_of_not_le hle
  have hchars : (padded 4 n).toList = Nat.toDigits 10 n := by
    rw [padded, if_neg (by omega), String.empty_append, String.toList_ofList, Int.natAbs_natCast,
      Nat.sub_eq_zero_of_le (Nat.le_of_lt hlength), List.replicate_zero, List.nil_append]
  obtain ⟨a, b, c, d, e, rest, hdigits⟩ :
      ∃ a b c d e rest, Nat.toDigits 10 n = a :: b :: c :: d :: e :: rest := by
    generalize Nat.toDigits 10 n = digits at hlength ⊢
    rcases digits with _ | ⟨a, _ | ⟨b, _ | ⟨c, _ | ⟨d, _ | ⟨e, rest⟩⟩⟩⟩⟩
    case cons.cons.cons.cons.cons => exact ⟨a, b, c, d, e, rest, rfl⟩
    all_goals simp at hlength
  rw [hchars, hdigits] at hread
  rw [year_left hread]
  exact List.cons_ne_nil e rest

/-- A date and a time of day that are in range are read as they were written, if the year has four
digits. -/
theorem parseCreation_written {value hourText : String}
    {weekday month day hour minutes year : Nat}
    (hvalue : value.toList = (shortDayNames.getD weekday "").toList ++ ' ' ::
      ((shortMonthNames.getD month "").toList ++ ' ' :: ((padded 1 day).toList ++ ' ' ::
        (hourText.toList ++ ':' :: ((padded 2 minutes).toList ++ ' ' ::
          ((padded 4 year).toList ++ []))))))
    (hweekday : weekday < 7) (hmonth : month < 12)
    (hday : 1 ≤ day ∧ (day : Int) ≤ daysIn (month + 1) year) (hword : IsWord hourText)
    (hread : ∀ s, Layout.number false (hourText.toList ++ ':' :: s) = some (hour, ':' :: s))
    (hhour : hour < 24) (hminutes : minutes < 60) :
    parseCreation value = if year < 10000 then
      ⟨(daysOf year (month + 1) day * 86400 + hour * 3600 + minutes * 60) * second, 0⟩
      else .zero := by
  have hshort : day < 100 := by
    have hle := daysIn_le (month + 1) year
    omega
  have hcolon : ∀ l, Layout.colon (':' :: l) = some ((), l) := fun _ => rfl
  obtain ⟨time, htime⟩ : ∃ time : Time, time =
      ⟨(daysOf year (month + 1) day * 86400 + hour * 3600 + minutes * 60) * second, 0⟩ := ⟨_, rfl⟩
  have hresult : (if year < 10000 then some time else none).getD Time.zero =
      if year < 10000 then time else .zero := by
    split <;> rfl
  rw [parseCreation, hvalue, ← htime, ← hresult]
  refine congrArg (fun o : Option Time => o.getD .zero) ?_
  refine (bind_read (weekday_getD weekday hweekday _) _).trans ?_
  refine (bind_read (Layout.blank_word (isWord_month month hmonth) _) _).trans ?_
  refine (bind_read (month_getD month hmonth _) _).trans ?_
  refine (bind_read (Layout.blank_word (isWord_padded 1 day) _) _).trans ?_
  refine (bind_read (Layout.number_padded hshort (by decide) _) _).trans ?_
  refine (bind_read (Layout.blank_word hword _) _).trans ?_
  refine (bind_read (hread _) _).trans ?_
  refine (bind_read (hcolon _) _).trans ?_
  rw [toList_padded (by decide) (show minutes < 10 ^ 2 by omega)]
  refine (bind_read (number_lastDigits (by omega) true _) _).trans ?_
  refine (bind_read (Layout.blank_word (isWord_padded 4 year) _) _).trans ?_
  rw [List.append_nil]
  by_cases hyear : year < 10000
  · have hrange : ¬ (([] : List Char) ≠ [] ∨ 24 ≤ hour ∨ 60 ≤ minutes ∨ day < 1 ∨
        daysIn (month + 1) year < day) := by
      simp only [ne_eq, not_true_eq_false, false_or]
      omega
    have hdigits : Layout.year (padded 4 year).toList = some (year, []) := by
      rw [toList_padded (by decide) hyear]
      exact year_lastDigits hyear []
    refine (bind_read hdigits _).trans ?_
    dsimp only
    rw [if_neg hrange, if_pos hyear, htime]
  · rw [if_neg hyear]
    cases hleft : Layout.year (padded 4 year).toList with
    | none => exact congrArg (· >>= _) hleft
    | some read =>
        obtain ⟨n, left⟩ := read
        exact (bind_read hleft _).trans (if_pos (Or.inl (year_padded (by omega) hleft)))

/-! ## Too many words -/

/-- No blank was taken of the text. -/
def Solid (l rest : List Char) : Prop :=
  ∃ taken, l = taken ++ rest ∧ ∀ c ∈ taken, isSpace c = false

theorem Solid.trans {l l' rest : List Char} (h : Solid l l') (h' : Solid l' rest) :
    Solid l rest := by
  obtain ⟨taken, rfl, htaken⟩ := h
  obtain ⟨taken', rfl, htaken'⟩ := h'
  refine ⟨taken ++ taken', (List.append_assoc ..).symm, ?_⟩
  intro c hc
  exact (List.mem_append.mp hc).elim (htaken c) (htaken' c)

/-- At most one word is gone. -/
theorem Solid.length_words {l rest : List Char} (h : Solid l rest) :
    (words l).length ≤ (words rest).length + 1 := by
  obtain ⟨taken, rfl, htaken⟩ := h
  exact length_words_append htaken

theorem isSpace_of_toLower {c : Char} (h : isSpace c.toLower = false) : isSpace c = false := by
  have hletters : ∀ k < 26, isSpace (Char.ofNat (65 + k)) = false := by decide
  by_cases hupper : c.val ≥ 'A'.val ∧ c.val ≤ 'Z'.val
  · have hlow : 65 ≤ c.toNat := hupper.1
    have hhigh : c.toNat ≤ 90 := hupper.2
    have hc := hletters (c.toNat - 65) (by omega)
    rwa [Nat.add_sub_cancel' hlow, Char.ofNat_toNat] at hc
  · have hsame : c.toLower = c := dif_neg hupper
    rwa [hsame] at h

namespace Layout

theorem solid_digit {c : Char} {n : Nat} (h : digit c = some n) (s : List Char) :
    Solid (c :: s) s := by
  refine ⟨[c], rfl, ?_⟩
  intro d hd
  rw [List.mem_singleton.mp hd]
  refine isSpace_of_isDigit ?_
  by_contra hc
  rw [digit, if_neg hc] at h
  cases h

theorem solid_name {names : List String} {l rest : List Char} {i : Nat}
    (hnames : ∀ n ∈ names, IsWord (String.ofList (n.toList.map Char.toLower)))
    (h : name names l = some (i, rest)) : Solid l rest := by
  obtain ⟨j, hj, hrest⟩ := Option.bind_eq_some_iff.mp h
  obtain ⟨rfl, rfl⟩ := Prod.mk.inj (Option.some.inj hrest)
  obtain ⟨hlt, hsame, -⟩ := List.findIdx?_eq_some_iff_getElem.mp hj
  have hget : names.getD j "" = names[j] := by
    rw [List.getD_eq_getElem?_getD, List.getElem?_eq_getElem hlt, Option.getD_some]
  refine ⟨l.take (names.getD j "").toList.length, (List.take_append_drop ..).symm, ?_⟩
  intro c hc
  refine isSpace_of_toLower ((hnames names[j] (List.getElem_mem hlt)).2 _ ?_)
  rw [String.toList_ofList, of_decide_eq_true hsame, ← hget]
  exact List.mem_map_of_mem hc

theorem words_blank {l rest : List Char} (h : blank l = some ((), rest)) : words rest = words l := by
  unfold blank at h
  split at h
  · cases h
    rfl
  · next c s =>
    split at h
    · cases h
      have hblank : ∀ d : Char, decide (d = ' ') = true → isSpace d = true :=
        fun d hd => of_decide_eq_true hd ▸ rfl
      exact words_dropWhile hblank (c :: s)
    · cases h

theorem solid_colon {l rest : List Char} (h : colon l = some ((), rest)) : Solid l rest := by
  unfold colon at h
  split at h
  · cases h
    exact ⟨[':'], rfl, List.forall_mem_singleton.mpr (by decide)⟩
  · cases h

theorem solid_number {fixed : Bool} {l rest : List Char} {n : Nat}
    (h : number fixed l = some (n, rest)) : Solid l rest := by
  unfold number at h
  split at h
  · cases h
  · next c s =>
    obtain ⟨k, hk, h⟩ := Option.bind_eq_some_iff.mp h
    have hfirst := solid_digit hk s
    split at h
    · next m hm =>
      cases h
      obtain ⟨d, hd, hdigit⟩ := Option.bind_eq_some_iff.mp hm
      obtain ⟨s', rfl⟩ := List.head?_eq_some_iff.mp hd
      exact hfirst.trans (solid_digit hdigit s')
    · split at h
      · cases h
      · cases h
        exact hfirst

theorem solid_year {l rest : List Char} {n : Nat} (h : year l = some (n, rest)) : Solid l rest := by
  unfold year at h
  split at h
  · next a b c d s =>
    obtain ⟨_, ha, h⟩ := Option.bind_eq_some_iff.mp h
    obtain ⟨_, hb, h⟩ := Option.bind_eq_some_iff.mp h
    obtain ⟨_, hc, h⟩ := Option.bind_eq_some_iff.mp h
    obtain ⟨_, hd, h⟩ := Option.bind_eq_some_iff.mp h
    cases h
    exact (((solid_digit ha _).trans (solid_digit hb _)).trans (solid_digit hc _)).trans
      (solid_digit hd _)
  · cases h

end Layout

/-- Of more than five words no time is read. -/
theorem parseCreation_words {value : String} (h : 5 < (fields value).length) :
    parseCreation value = .zero := by
  have hdays : ∀ n ∈ shortDayNames, IsWord (String.ofList (n.toList.map Char.toLower)) := by
    decide
  have hmonths : ∀ n ∈ shortMonthNames, IsWord (String.ofList (n.toList.map Char.toLower)) := by
    decide
  rw [fields_eq, List.length_map] at h
  unfold parseCreation
  refine (congrArg (fun o : Option Time => o.getD .zero)
    (Option.eq_none_iff_forall_ne_some.mpr fun time hread => ?_)).trans rfl
  obtain ⟨⟨_, s₁⟩, h₁, hread⟩ := Option.bind_eq_some_iff.mp hread
  obtain ⟨⟨_, s₂⟩, h₂, hread⟩ := Option.bind_eq_some_iff.mp hread
  obtain ⟨⟨_, s₃⟩, h₃, hread⟩ := Option.bind_eq_some_iff.mp hread
  obtain ⟨⟨_, s₄⟩, h₄, hread⟩ := Option.bind_eq_some_iff.mp hread
  obtain ⟨⟨_, s₅⟩, h₅, hread⟩ := Option.bind_eq_some_iff.mp hread
  obtain ⟨⟨_, s₆⟩, h₆, hread⟩ := Option.bind_eq_some_iff.mp hread
  obtain ⟨⟨_, s₇⟩, h₇, hread⟩ := Option.bind_eq_some_iff.mp hread
  obtain ⟨⟨_, s₈⟩, h₈, hread⟩ := Option.bind_eq_some_iff.mp hread
  obtain ⟨⟨_, s₉⟩, h₉, hread⟩ := Option.bind_eq_some_iff.mp hread
  obtain ⟨⟨_, s₁₀⟩, h₁₀, hread⟩ := Option.bind_eq_some_iff.mp hread
  obtain ⟨⟨_, s₁₁⟩, h₁₁, hread⟩ := Option.bind_eq_some_iff.mp hread
  have hleft : s₁₁ = [] := by
    by_contra hne
    cases (if_pos (Or.inl hne)).symm.trans hread
  have hweekday := (Layout.solid_name hdays h₁).length_words
  have hmonth := (Layout.solid_name hmonths h₃).length_words
  have hday := (Layout.solid_number h₅).length_words
  have hclock :=
    (((Layout.solid_number h₇).trans (Layout.solid_colon h₈)).trans
      (Layout.solid_number h₉)).length_words
  have hyear := (Layout.solid_year h₁₁).length_words
  rw [hleft, show words [] = [] from rfl, List.length_nil] at hyear
  rw [Layout.words_blank h₁₀] at hyear
  rw [Layout.words_blank h₆] at hclock
  rw [Layout.words_blank h₄] at hday
  rw [Layout.words_blank h₂] at hmonth
  omega

end BranchDB
