/-
# `Concur.Rank` — runs that come to rest

A sequence of states with a rank that never grows, and that is smaller after every step that
does something.  Only as many steps do something as the rank says (`busy_le`), so from some
point on none does (`rests`).
-/
import Mathlib.Data.List.Basic

namespace Concur

universe u

variable {σ : Type u} {rank : σ → Nat} {same : σ → σ → Prop}

/-- A step leaves the state as it is, or lowers the rank. -/
def Settles (rank : σ → Nat) (same : σ → σ → Prop) (s s' : σ) : Prop :=
  (same s s' ∧ rank s' = rank s) ∨ rank s' < rank s

variable {f : Nat → σ}

/-- The rank does not grow. -/
theorem rank_le (h : ∀ i, Settles rank same (f i) (f (i + 1))) {i j : Nat} (hij : i ≤ j) :
    rank (f j) ≤ rank (f i) := by
  induction hij with
  | refl => exact Nat.le_refl _
  | @step j _ ih =>
      rcases h j with ⟨-, hrank⟩ | hlt
      · exact hrank ▸ ih
      · exact Nat.le_trans (Nat.le_of_lt hlt) ih

/-- Of the steps from `k` on, as many do something as the rank there says. -/
theorem busy_le (h : ∀ i, Settles rank same (f i) (f (i + 1))) {steps : List Nat} {k : Nat}
    (horder : steps.Pairwise (· < ·)) (hfrom : ∀ i ∈ steps, k ≤ i)
    (hbusy : ∀ i ∈ steps, ¬ same (f i) (f (i + 1))) : steps.length ≤ rank (f k) := by
  induction steps generalizing k with
  | nil => exact Nat.zero_le _
  | cons i steps ih =>
      have hlt : rank (f (i + 1)) < rank (f i) :=
        (h i).resolve_left fun hs => hbusy i List.mem_cons_self hs.1
      have hle := rank_le h (hfrom i List.mem_cons_self)
      obtain ⟨hfirst, horder⟩ := List.pairwise_cons.mp horder
      have hrest : steps.length ≤ rank (f (i + 1)) :=
        ih horder hfirst fun j hj => hbusy j (List.mem_cons_of_mem i hj)
      rw [List.length_cons]
      omega

theorem rests_of_rank_le (n : Nat) : ∀ f : Nat → σ, rank (f 0) ≤ n →
    (∀ i, Settles rank same (f i) (f (i + 1))) → ∃ N, ∀ i, N ≤ i → same (f i) (f (i + 1)) := by
  induction n with
  | zero =>
      intro f hzero h
      refine ⟨0, fun i _ => ?_⟩
      have hle := rank_le h (Nat.zero_le i)
      exact ((h i).resolve_right fun hlt => by omega).1
  | succ n ih =>
      intro f hrank h
      by_cases hall : ∀ i, same (f i) (f (i + 1))
      · exact ⟨0, fun i _ => hall i⟩
      · obtain ⟨i, hi⟩ := not_forall.mp hall
        have hlt : rank (f (i + 1)) ≤ n := by
          have hstep := (h i).resolve_left fun hs => hi hs.1
          have hle := rank_le h (Nat.zero_le i)
          omega
        -- what comes after this step is a sequence of its own
        obtain ⟨N, hN⟩ := ih (fun j => f (i + 1 + j)) hlt fun j => h (i + 1 + j)
        refine ⟨i + 1 + N, ?_⟩
        intro j hj
        obtain ⟨k, rfl⟩ := Nat.exists_eq_add_of_le hj
        rw [Nat.add_assoc (i + 1)]
        exact hN (N + k) (Nat.le_add_right N k)

theorem rests (h : ∀ i, Settles rank same (f i) (f (i + 1))) :
    ∃ N, ∀ i, N ≤ i → same (f i) (f (i + 1)) :=
  rests_of_rank_le (rank (f 0)) f (Nat.le_refl _) h

end Concur
