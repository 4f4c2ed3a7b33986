/-
# `Ranked` — lists in descending order of a key

Whether an element is among the first `k` of such a list is told by counting: the `rank` of an
element is how many of the list, itself included, are not below it.  Behind the first `k` ranks
are above `k` (`lt_rank_of_mem_drop`); the converse holds of an element with all its equals in
front of it, and any list can be brought into an order where that is so
(`exists_descending`).
-/
import Mathlib.Data.List.Sort
import Mathlib.Order.Defs.LinearOrder

namespace Ranked

universe u v

variable {α : Type u} {κ : Type v} [LinearOrder κ] {f : α → κ} {l l' : List α} {x : α} {k : Nat}

/-- In descending order of the key. -/
def Descending (f : α → κ) (l : List α) : Prop := l.Pairwise fun a b => f b ≤ f a

/-- How many are not below `x`. -/
def rank (f : α → κ) (l : List α) (x : α) : Nat := l.countP fun z => decide (f x ≤ f z)

theorem rank_perm (h : l.Perm l') (x : α) : rank f l x = rank f l' x := h.countP_eq _

theorem rank_append (l l' : List α) (x : α) : rank f (l ++ l') x = rank f l x + rank f l' x :=
  List.countP_append

theorem rank_le_length (l : List α) (x : α) : rank f l x ≤ l.length := List.countP_le_length

theorem rank_pos (hx : x ∈ l) : 0 < rank f l x :=
  List.countP_pos_iff.mpr ⟨x, hx, decide_eq_true (le_refl _)⟩

theorem exists_of_rank_pos (h : 0 < rank f l x) : ∃ y ∈ l, f x ≤ f y := by
  obtain ⟨y, hy, hle⟩ := List.countP_pos_iff.mp h
  exact ⟨y, hy, of_decide_eq_true hle⟩

theorem rank_eq_length (h : ∀ z ∈ l, f x ≤ f z) : rank f l x = l.length :=
  List.countP_eq_length.mpr fun z hz => decide_eq_true (h z hz)

/-- Behind the first `k` there are more than `k` not below. -/
theorem lt_rank_of_mem_drop (h : Descending f l) (hx : x ∈ l.drop k) : k < rank f l x := by
  have hsplit : l = l.take k ++ l.drop k := (List.take_append_drop k l).symm
  have habove : ∀ z ∈ l.take k, f x ≤ f z := by
    intro z hz
    rw [Descending, hsplit] at h
    exact (List.pairwise_append.mp h).2.2 z hz x hx
  have hlength : k ≤ l.length := by
    by_contra hlt
    rw [List.drop_eq_nil_of_le (by omega)] at hx
    cases hx
  have hpos := rank_pos (f := f) hx
  rw [hsplit, rank_append, rank_eq_length habove, List.length_take]
  omega

/-- An element with nothing behind it that is not below it. -/
def Last (f : α → κ) (l : List α) (x : α) : Prop := ∃ a b, l = a ++ x :: b ∧ ∀ z ∈ b, f z < f x

theorem Last.mem_drop (h : Last f l x) (hk : k < rank f l x) : x ∈ l.drop k := by
  obtain ⟨a, b, rfl, hb⟩ := h
  have hbelow : rank f b x = 0 :=
    List.countP_eq_zero.mpr fun z hz => by simpa using hb z hz
  have hself : rank f (x :: b) x = rank f b x + 1 := List.countP_cons_of_pos (by simp)
  have hbefore := rank_le_length (f := f) a x
  rw [rank_append, hself, hbelow] at hk
  rw [List.drop_append_of_le_length (by omega)]
  exact List.mem_append_right _ List.mem_cons_self

section

variable {β : Type*} {g : β → κ} {φ : α → Option β}

theorem Descending.filterMap (h : Descending f l) (hφ : ∀ a b, φ a = some b → g b = f a) :
    Descending g (l.filterMap φ) := by
  refine List.Pairwise.filterMap φ (fun a a' hle b hb b' hb' => ?_) h
  rw [hφ a b hb, hφ a' b' hb']
  exact hle

theorem Last.filterMap (h : Last f l x) (hφ : ∀ a b, φ a = some b → g b = f a) {y : β}
    (hy : φ x = some y) : Last g (l.filterMap φ) y := by
  obtain ⟨before, after, rfl, hafter⟩ := h
  refine ⟨before.filterMap φ, after.filterMap φ, ?_, fun z hz => ?_⟩
  · rw [List.filterMap_append, List.filterMap_cons_some hy]
  · obtain ⟨a, ha, hz⟩ := List.mem_filterMap.mp hz
    rw [hφ a z hz, hφ x y hy]
    exact hafter a ha

end

/-- Any list can be ordered so, with an element of it last of its equals. -/
theorem exists_descending (f : α → κ) (hx : x ∈ l) :
    ∃ l', l'.Perm l ∧ Descending f l' ∧ Last f l' x := by
  obtain ⟨before, after, rfl⟩ := List.append_of_mem hx
  obtain ⟨sorted, hsorted⟩ :
      ∃ sorted, sorted = (before ++ after).mergeSort fun a b => decide (f b ≤ f a) := ⟨_, rfl⟩
  have hperm : sorted.Perm (before ++ after) := hsorted ▸ List.mergeSort_perm _ _
  have hdesc : Descending f sorted := by
    rw [hsorted]
    refine (List.pairwise_mergeSort (fun a b c hab hbc => ?_) (fun a b => ?_) _).imp
      fun h => of_decide_eq_true h
    · exact decide_eq_true (le_trans (of_decide_eq_true hbc) (of_decide_eq_true hab))
    · rw [Bool.or_eq_true, decide_eq_true_iff, decide_eq_true_iff]
      exact le_total _ _
  obtain ⟨high, hhigh⟩ : ∃ high, high = sorted.filter fun z => decide (f x ≤ f z) := ⟨_, rfl⟩
  obtain ⟨low, hlow⟩ : ∃ low, low = sorted.filter fun z => !decide (f x ≤ f z) := ⟨_, rfl⟩
  have habove : ∀ z ∈ high, f x ≤ f z := by
    intro z hz
    rw [hhigh] at hz
    exact of_decide_eq_true (List.mem_filter.mp hz).2
  have hbelow : ∀ z ∈ low, f z < f x := by
    intro z hz
    rw [hlow] at hz
    simpa using (List.mem_filter.mp hz).2
  refine ⟨high ++ x :: low, ?_, ?_, high, low, rfl, hbelow⟩
  · have hboth : (high ++ low).Perm (before ++ after) := by
      rw [hhigh, hlow]
      exact (List.filter_append_perm _ _).trans hperm
    exact List.perm_middle.trans ((hboth.cons x).trans List.perm_middle.symm)
  · refine List.pairwise_append.mpr ⟨?_, List.pairwise_cons.mpr ⟨?_, ?_⟩, ?_⟩
    · exact hhigh ▸ hdesc.filter _
    · exact fun z hz => le_of_lt (hbelow z hz)
    · exact hlow ▸ hdesc.filter _
    · intro y hy z hz
      rcases List.mem_cons.mp hz with rfl | hz
      · exact habove y hy
      · exact le_trans (le_of_lt (hbelow z hz)) (habove y hy)

end Ranked
