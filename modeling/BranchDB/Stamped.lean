/-
# `BranchDB.Stamped` — texts that end in `-YYYYMMDD-HHMMSS`

Over any alphabet, as names are looked at character by character here and byte by byte there.
Two positions of the last sixteen are looked at and two stretches; that is all there is to them
(`endsIn_iff`).
-/
import Mathlib.Data.List.Basic

namespace Stamped

variable {α : Type} {dash : α} {digit : α → Bool} {key l suffix : List α}

/-- `{key}-YYYYMMDD-HHMMSS`, as far as the digits go. -/
def EndsIn (dash : α) (digit : α → Bool) (key l : List α) : Prop :=
  ∃ date time : List α, date.length = 8 ∧ time.length = 6 ∧
    (∀ c ∈ date ++ time, digit c = true) ∧ l = key ++ dash :: (date ++ dash :: time)

/-- What is looked at of the last sixteen. -/
def Test (dash : α) (digit : α → Bool) (suffix : List α) : Prop :=
  suffix[0]? = some dash ∧ suffix[9]? = some dash ∧
    (∀ c ∈ (suffix.drop 1).take 8, digit c = true) ∧ ∀ c ∈ (suffix.drop 10).take 6, digit c = true

theorem suffix_eq (hlength : suffix.length = 16) (h0 : suffix[0]? = some dash)
    (h9 : suffix[9]? = some dash) :
    suffix = dash :: ((suffix.drop 1).take 8 ++ dash :: (suffix.drop 10).take 6) := by
  cases suffix with
  | nil => cases h0
  | cons c rest =>
      obtain rfl := Option.some.inj h0
      rw [List.length_cons] at hlength
      rw [List.getElem?_cons_succ] at h9
      obtain ⟨hlt, h9⟩ := List.getElem?_eq_some_iff.mp h9
      have hrest : rest.drop 8 = c :: rest.drop 9 := by rw [List.drop_eq_getElem_cons hlt, h9]
      have htime : (rest.drop 9).take 6 = rest.drop 9 :=
        List.take_of_length_le (by rw [List.length_drop]; omega)
      rw [List.drop_succ_cons, List.drop_succ_cons, List.drop_zero, htime, ← hrest,
        List.take_append_drop]

theorem EndsIn.length (h : EndsIn dash digit key l) : l.length = key.length + 16 := by
  obtain ⟨date, time, hdate, htime, -, rfl⟩ := h
  rw [List.length_append, List.length_cons, List.length_append, List.length_cons]
  omega

/-- What is before the last sixteen. -/
theorem EndsIn.take (h : EndsIn dash digit key l) : l.take (l.length - 16) = key := by
  rw [h.length, Nat.add_sub_cancel]
  obtain ⟨date, time, -, -, -, rfl⟩ := h
  exact List.take_left

theorem EndsIn.prepend (s : List α) (h : EndsIn dash digit key l) :
    EndsIn dash digit (s ++ key) (s ++ l) := by
  obtain ⟨date, time, hdate, htime, hdigits, rfl⟩ := h
  exact ⟨date, time, hdate, htime, hdigits, (List.append_assoc ..).symm⟩

theorem endsIn_iff : EndsIn dash digit key l ↔
    16 ≤ l.length ∧ Test dash digit (l.drop (l.length - 16)) ∧ l.take (l.length - 16) = key := by
  constructor
  · intro h
    refine ⟨h.length ▸ Nat.le_add_left 16 _, ?_, h.take⟩
    rw [h.length, Nat.add_sub_cancel]
    obtain ⟨date, time, hdate, htime, hdigits, rfl⟩ := h
    have htail : (date ++ dash :: time).drop 9 = time := by
      rw [List.drop_append, hdate, List.drop_of_length_le (by omega)]
      rfl
    rw [List.drop_left]
    refine ⟨rfl, ?_, fun c hc => ?_, fun c hc => ?_⟩
    · rw [List.getElem?_cons_succ, List.getElem?_append_right (by omega), hdate]
      rfl
    · rw [List.drop_succ_cons, List.drop_zero, ← hdate, List.take_left] at hc
      exact hdigits c (List.mem_append_left _ hc)
    · rw [List.drop_succ_cons, htail] at hc
      exact hdigits c (List.mem_append_right _ (List.mem_of_mem_take hc))
  · rintro ⟨hlength, ⟨h0, h9, hdate, htime⟩, rfl⟩
    have hsuffix : (l.drop (l.length - 16)).length = 16 := by
      rw [List.length_drop]
      omega
    refine ⟨((l.drop (l.length - 16)).drop 1).take 8, ((l.drop (l.length - 16)).drop 10).take 6,
      ?_, ?_, fun c hc => ?_, ?_⟩
    · rw [List.length_take, List.length_drop, hsuffix]
      rfl
    · rw [List.length_take, List.length_drop, hsuffix]
      rfl
    · exact (List.mem_append.mp hc).elim (hdate c) (htime c)
    · rw [← suffix_eq hsuffix h0 h9, List.take_append_drop]

end Stamped
