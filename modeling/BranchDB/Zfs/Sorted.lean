/-
# `BranchDB.Zfs.Sorted` — the sort, in place

`sortSnapshotsByCreatedAtDesc` works on the slice it is given: two loops over positions, and an
exchange where the later of two is newer.  `sortSlice` is that, and it comes to what
`sortSnapshotsByCreatedAtDesc` makes of the entries as a list (`toList_sortSlice`): at every turn
of the inner loop the slice is what was sorted, the newest so far, what was passed by, and the
rest.
-/
import BranchDB.Zfs.Archives

namespace BranchDB.AgentProvider

open Ranked

variable {n : Nat}

/-- `for j := …; j < len(snaps); j++`: position `i` is exchanged with each that is newer. -/
def exchangeFrom (snaps : Vector SnapshotInfo n) (i : Fin n) (j : Nat) : Vector SnapshotInfo n :=
  if h : j < n then
    if snaps[j].createdAt.after snaps[i].createdAt then
      exchangeFrom (snaps.swap i j) i (j + 1)
    else exchangeFrom snaps i (j + 1)
  else snaps

/-- `for i := …; i < len(snaps); i++`. -/
def sortPositions (snaps : Vector SnapshotInfo n) (i : Nat) : Vector SnapshotInfo n :=
  if h : i < n then sortPositions (exchangeFrom snaps ⟨i, h⟩ (i + 1)) (i + 1) else snaps

def sortSlice (snaps : Vector SnapshotInfo n) : Vector SnapshotInfo n := sortPositions snaps 0

variable {snaps : Vector SnapshotInfo n} {done passed rest : List SnapshotInfo}
  {front s : SnapshotInfo}

theorem getElem_of_toList {i : Nat} (hi : i < n) (h : snaps.toList = done ++ front :: rest)
    (hlength : i = done.length) : snaps[i] = front := by
  have hget : snaps.toList[i]? = some front := by
    rw [h, hlength, List.getElem?_append_right (Nat.le_refl _), Nat.sub_self]
    rfl
  rw [Vector.getElem?_toList, Vector.getElem?_eq_getElem hi] at hget
  exact Option.some.inj hget

/-- An exchange, in terms of what is before, between and after the two. -/
theorem toList_swap {i j : Nat} (hi : i < n) (hj : j < n)
    (h : snaps.toList = done ++ front :: (passed ++ s :: rest)) (hdone : i = done.length)
    (hpassed : j = done.length + 1 + passed.length) :
    (snaps.swap i j).toList = done ++ s :: (passed ++ front :: rest) := by
  have hfront : snaps[i] = front := getElem_of_toList hi h hdone
  have hsplit : snaps.toList = (done ++ front :: passed) ++ s :: rest := by simp [h]
  have hs : snaps[j] = s := getElem_of_toList hj hsplit (by simp; omega)
  have hlater : j = done.length + (passed.length + 1) := by omega
  rw [Vector.toList_swap, hfront, hs, h, hdone, hlater, List.set_append_right _ _ (by omega),
    Nat.sub_self, List.set_cons_zero, List.set_append_right _ _ (by omega), Nat.add_sub_cancel_left,
    List.set_cons_succ, List.set_append_right _ _ (by omega), Nat.sub_self, List.set_cons_zero]

/-- The rest of the inner loop. -/
theorem toList_exchangeFrom {i : Fin n} {j : Nat}
    (h : snaps.toList = done ++ front :: (passed ++ rest)) (hdone : i.val = done.length)
    (hpassed : j = done.length + 1 + passed.length) :
    (exchangeFrom snaps i j).toList =
      done ++ (exchange front rest).1 :: (passed ++ (exchange front rest).2) := by
  have hlength : n = done.length + 1 + passed.length + rest.length := by
    have hsize : snaps.toList.length = n := Vector.length_toList
    rw [h] at hsize
    simp only [List.length_append, List.length_cons] at hsize
    omega
  induction rest generalizing snaps front passed j with
  | nil =>
      rw [List.length_nil] at hlength
      rw [exchangeFrom, dif_neg (by omega), h]
      rfl
  | cons s rest ih =>
      rw [List.length_cons] at hlength
      have hj : j < n := by omega
      have hfront : snaps[i] = front := getElem_of_toList i.isLt h hdone
      have hsplit : snaps.toList = (done ++ front :: passed) ++ s :: rest := by simp [h]
      have hs : snaps[j] = s := getElem_of_toList hj hsplit (by simp; omega)
      have hmore : ∀ t : SnapshotInfo, j + 1 = done.length + 1 + (passed ++ [t]).length := by
        simp
        omega
      have hleft : ∀ t : SnapshotInfo,
          n = done.length + 1 + (passed ++ [t]).length + rest.length := by
        simp
        omega
      rw [exchangeFrom, dif_pos hj, hs, hfront, exchange]
      by_cases hafter : s.createdAt.after front.createdAt = true
      · rw [if_pos hafter, if_pos hafter]
        have hswap : (snaps.swap i j).toList = done ++ s :: ((passed ++ [front]) ++ rest) := by
          rw [List.append_assoc]
          exact toList_swap i.isLt hj h hdone hpassed
        rw [ih hswap (hmore front) (hleft front), List.append_assoc]
        rfl
      · rw [if_neg hafter, if_neg hafter]
        have hpast : snaps.toList = done ++ front :: ((passed ++ [s]) ++ rest) := by
          rw [List.append_assoc]
          exact h
        rw [ih hpast (hmore s) (hleft s), List.append_assoc]
        rfl

theorem toList_sortPositions {i : Nat} (h : snaps.toList = done ++ rest) (hdone : i = done.length) :
    (sortPositions snaps i).toList = done ++ sortFrom rest.length rest := by
  have hlength : n = done.length + rest.length := by
    have hsize : snaps.toList.length = n := Vector.length_toList
    rw [h, List.length_append] at hsize
    omega
  obtain ⟨k, hk⟩ : ∃ k, k = rest.length := ⟨_, rfl⟩
  induction k generalizing snaps done rest i with
  | zero =>
      obtain rfl := List.eq_nil_of_length_eq_zero hk.symm
      rw [List.length_nil] at hlength
      rw [sortPositions, dif_neg (by omega), h]
      rfl
  | succ k ih =>
      obtain ⟨front, rest, rfl⟩ := List.exists_cons_of_length_eq_add_one hk.symm
      rw [List.length_cons] at hk hlength
      have hi : i < n := by omega
      obtain ⟨pos, hpos⟩ : ∃ pos : Fin n, pos = ⟨i, hi⟩ := ⟨_, rfl⟩
      have hstart : snaps.toList = done ++ front :: ([] ++ rest) := h
      have hturn : (exchangeFrom snaps pos (i + 1)).toList =
          (done ++ [(exchange front rest).1]) ++ (exchange front rest).2 := by
        rw [toList_exchangeFrom hstart (hpos ▸ hdone) (by rw [hdone, List.length_nil]),
          List.append_assoc]
        rfl
      have hlen : (exchange front rest).2.length = rest.length := by
        have hperm := (exchange_perm front rest).length_eq
        simpa using hperm
      have hnext : i + 1 = (done ++ [(exchange front rest).1]).length := by simp [hdone]
      rw [sortPositions, dif_pos hi, ← hpos,
        ih hturn hnext (by rw [← hnext, hlen]; omega) (by rw [hlen]; omega), hlen,
        List.append_assoc, List.length_cons, sortFrom]
      rfl

/-- In place or not, it is the same sort. -/
theorem toList_sortSlice (snaps : Vector SnapshotInfo n) :
    (sortSlice snaps).toList = sortSnapshotsByCreatedAtDesc snaps.toList :=
  toList_sortPositions (show snaps.toList = [] ++ snaps.toList from rfl) rfl

/-- Whatever is sorted, its entries stay, and none is before one that is newer. -/
theorem sortSlice_spec (snaps : Vector SnapshotInfo n) :
    (sortSlice snaps).toList.Perm snaps.toList ∧
      (sortSlice snaps).toList.Pairwise fun s t => t.createdAt.after s.createdAt = false := by
  rw [toList_sortSlice]
  refine ⟨sort_perm _, (sort_descending _).imp fun {s t} h => ?_⟩
  exact Bool.eq_false_iff.mpr fun hafter => absurd (after_iff.mp hafter) (not_lt.mpr h)

end BranchDB.AgentProvider
