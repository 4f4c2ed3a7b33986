/-
# `BranchDB.Zfs.Race` — a reset while clones are deleted

    ResetDataset        list clones ─▶ delete each ─▶ list snapshots ─▶ delete each
    DeleteClone …       unshare ─▶ destroy -f

One reset and any number of deletions of clones of the same dataset, their calls interleaved in
any order, on a host where nothing fails unless its object is gone (`host`).  What the reset
listed may be gone when its turn comes, and then it gives up with the `ErrNotFound` of
`DeleteClone` (`reset_races`).  If whatever it destroys is there when it does, it returns nil
(`reset_undisturbed`): its calls are answered without an error, and then it yields nil
(`resetDataset_yields`).
-/
import BranchDB.Concur.Pool
import BranchDB.Zfs.Listing
import BranchDB.Zfs.Survival

namespace BranchDB.Race

open Concur Strings Zfs Machine AgentProvider

/-! ## The host -/

/-- What the command is about is not there. -/
def Absent (st : Store) : Command → Prop
  | .destroy _ object =>
    if '@' ∈ object.toList then st.selected object = [] else st.filesystem object = none
  | .listSnapshots dataset => st.filesystem dataset = none
  | .snapshot _ | .rename .. | .clone .. | .share _ | .shareAll | .unshare _ | .getSharenfs _
  | .getClones _ | .listTree _ | .list _ => True

instance (st : Store) : (c : Command) → Decidable (Absent st c)
  | .destroy _ _ => inferInstanceAs (Decidable (ite _ _ _))
  | .listSnapshots _ => inferInstanceAs (Decidable (_ = none))
  | .snapshot _ | .rename .. | .clone .. | .share _ | .shareAll | .unshare _ | .getSharenfs _
  | .getClones _ | .listTree _ | .list _ => isTrue trivial

/-- A destroy or a listing fails only because its object is gone. -/
def OnlyGone : (c : OsCall) → Machine → c.Reply → Prop
  | .zfs c, m, out => out.err = none ∨ Absent m.store c
  | .hostname, _, _ | .readThreads, _, _ | .writeThreads _, _, _ | .now, _, _ | .visit _, _, _ =>
    True

instance : (c : OsCall) → (m : Machine) → (r : c.Reply) → Decidable (OnlyGone c m r)
  | .zfs _, _, _ => inferInstanceAs (Decidable (_ ∨ _))
  | .hostname, _, _ | .readThreads, _, _ | .writeThreads _, _, _ | .now, _, _ | .visit _, _, _ =>
    isTrue trivial

/-- Nobody else is on the host. -/
def host : Pool OsCall OsCall.Reply Machine where
  exec c m r m' := exec c m r m' ∧ OnlyGone c m r
  env _ _ := False

/-! ## The programs -/

variable (p : AgentProvider) {ι : Type}

/-- A reset, and deletions of clones. -/
def programs (cloneName : ι → String) : Option ι → Os (Except GoError Unit)
  | none => p.resetDataset
  | some i => p.deleteClone (cloneName i)

/-- What the reset destroys is there. -/
def Undisturbed : Option ι → OsCall → Machine → Prop
  | none, .zfs (.destroy force object), m => ¬ Absent m.store (.destroy force object)
  | none, _, _ | some _, _, _ => True

/-- The dataset itself is not destroyed. -/
def Spares : OsCall → Prop
  | .zfs (.destroy _ object) => object ≠ p.dataset
  | .zfs _ | .hostname | .readThreads | .writeThreads _ | .now | .visit _ => True

theorem append_ne {a b : String} (hb : b ≠ "") : a ++ b ≠ a := by
  intro h
  exact hb (String.append_right_inj a |>.mp (h.trans (String.append_empty).symm))

theorem clonePath_ne (cloneName : String) : p.clonePath cloneName ≠ p.dataset := by
  rw [clonePath, String.append_assoc]
  exact append_ne (by simp)

theorem snapshotPath_ne (name : String) : p.snapshotPath name ≠ p.dataset := by
  rw [snapshotPath, String.append_assoc]
  exact append_ne (by simp)

theorem programs_spare (cloneName : ι → String) (i : Option ι) :
    (programs p cloneName i).Only (Spares p) := by
  cases i with
  | none =>
      exact p.resetDataset_only trivial trivial trivial (fun _ => trivial) trivial trivial
        (fun _ => trivial) (clonePath_ne p) (snapshotPath_ne p)
  | some i =>
      exact p.deleteClone_only trivial trivial (fun _ => trivial) (clonePath_ne p (cloneName i))
        trivial

theorem exec_spares {c : OsCall} {m m' : Machine} {r : c.Reply} (hc : Spares p c)
    (h : exec c m r m') (hthere : m.store.filesystem p.dataset ≠ none) :
    m'.store.filesystem p.dataset ≠ none := by
  cases c with
  | zfs c =>
      obtain ⟨⟨clock, hserved⟩, -⟩ := h
      obtain ⟨origin, hmem⟩ := filesystem_ne_none.mp hthere
      refine filesystem_ne_none.mpr ⟨origin, hserved.dataset_kept hmem ?_⟩
      rintro force rfl
      exact hc rfl
  | hostname | now => exact h ▸ hthere
  | visit | readThreads => exact h.2 ▸ hthere
  | writeThreads => exact h.2 ▸ hthere

/-! ## What a reset yields -/

/-- Neither a destroy nor the listing of the snapshots fails. -/
def Succeeds : (c : OsCall) → c.Reply → Prop
  | .zfs (.destroy ..), out => out.err = none
  | .zfs (.listSnapshots dataset), out => dataset = p.dataset → out.err = none
  | .zfs _, _ | .hostname, _ | .readThreads, _ | .writeThreads _, _ | .now, _ | .visit _, _ => True

theorem zfs_yields {c : Command} {α : Type} {f : Output → Os α} {Q : α → Prop}
    (h : ∀ out, Succeeds p (.zfs c) out → (f out).Yields (Succeeds p) Q) :
    (zfs c >>= f).Yields (Succeeds p) Q :=
  .call h

theorem deleteClone_yields (cloneName : String) :
    (p.deleteClone cloneName).Yields (Succeeds p) (· = .ok ()) := by
  refine zfs_yields p fun _ _ => zfs_yields p ?_
  intro out hout
  rw [show out.err = none from hout]
  exact .ret rfl

theorem deleteSnapshot_yields (name : String) :
    (p.deleteSnapshot name).Yields (Succeeds p) (· = .ok ()) := by
  refine zfs_yields p ?_
  intro out hout
  rw [show out.err = none from hout]
  exact .ret rfl

theorem listSnapshots_yields :
    p.listSnapshots.Yields (Succeeds p) fun r => ∃ snaps, r = .ok snaps := by
  refine zfs_yields p ?_
  intro out hout
  rw [show out.err = none from hout rfl]
  exact .ret ⟨_, rfl⟩

theorem listClones_yields : p.listClones.Yields (Succeeds p) fun r => ∃ clones, r = .ok clones := by
  refine zfs_yields p ?_
  intro out _
  cases out.err with
  | some err => exact .ret ⟨[], rfl⟩
  | none => exact (Prog.Yields.anything localIP).bind fun _ _ => .ret ⟨_, rfl⟩

theorem resetClones_yields (clones : List VolumeInfo) :
    (p.resetClones clones).Yields (Succeeds p) (· = .ok ()) := by
  induction clones with
  | nil => exact .ret rfl
  | cons c rest ih =>
      refine (deleteClone_yields p c.cloneName).bind ?_
      rintro _ rfl
      exact ih

theorem resetSnapshots_yields (snaps : List SnapshotInfo) :
    (p.resetSnapshots snaps).Yields (Succeeds p) (· = .ok ()) := by
  induction snaps with
  | nil => exact .ret rfl
  | cons s rest ih =>
      refine (deleteSnapshot_yields p s.name).bind ?_
      rintro _ rfl
      exact ih

theorem resetDataset_yields : p.resetDataset.Yields (Succeeds p) (· = .ok ()) := by
  refine (listClones_yields p).bind ?_
  rintro _ ⟨clones, rfl⟩
  refine (resetClones_yields p clones).bind ?_
  rintro _ rfl
  refine (listSnapshots_yields p).bind ?_
  rintro _ ⟨snaps, rfl⟩
  exact resetSnapshots_yields p snaps

/-! ## Main result -/

variable {p} {cloneName : ι → String} {m : Machine}
  {c : Pool.Config OsCall OsCall.Reply Machine (Except GoError Unit) (Option ι)}

/-- What the reset calls fails only if its object is gone, and that is not so. -/
theorem succeeds {e : OsCall} {m m' : Machine} {r : e.Reply}
    (hthere : m.store.filesystem p.dataset ≠ none) (hexec : host.exec e m r m')
    (hok : Undisturbed (none : Option ι) e m) : Succeeds p e r := by
  have hgone : OnlyGone e m r := hexec.2
  cases e with
  | zfs c =>
      cases c with
      | destroy force object => exact hgone.resolve_right hok
      | listSnapshots dataset =>
          rintro rfl
          exact hgone.resolve_right hthere
      | snapshot | rename | clone | share | shareAll | unshare | getSharenfs | getClones | listTree
      | list => trivial
  | hostname | readThreads | writeThreads | now | visit => trivial

variable [DecidableEq ι]

theorem dataset_stays (hthere : m.store.filesystem p.dataset ≠ none)
    (hrun : host.RunWhere Undisturbed ⟨m, programs p cloneName⟩ c) :
    c.state.store.filesystem p.dataset ≠ none :=
  Pool.Run.preserved (S := host) (J := fun m => m.store.filesystem p.dataset ≠ none)
    (P := fun _ => Spares p) (fun _ _ _ he => he.elim)
    (fun _ _ _ _ _ hc hJ hexec => exec_spares p hc hexec.1 hJ) hrun.run
    (programs_spare p cloneName) hthere

/-- A reset that finds whatever it destroys returns nil, however its calls and those of the
deletions are interleaved. -/
theorem reset_undisturbed (hthere : m.store.filesystem p.dataset ≠ none)
    (hrun : host.RunWhere Undisturbed ⟨m, programs p cloneName⟩ c) {r : Except GoError Unit}
    (hdone : c.threads none = .ret r) : r = .ok () := by
  have hyields : (c.threads none).Yields (Succeeds p) (· = .ok ()) := by
    refine hrun.yields (J := fun m => m.store.filesystem p.dataset ≠ none)
      (fun e m r m' hJ hexec hok => ?_) (fun _ h => dataset_stays hthere h) (resetDataset_yields p)
    exact succeeds hJ hexec hok
  rw [hdone] at hyields
  exact hyields.of_ret

/-! ## Runs that are computed -/

/-- On a quiet host the call does not fail unless its object is gone. -/
def Fine (c : OsCall) (m : Machine) : Prop := OnlyGone c m (serve quiet c m).1

instance (c : OsCall) (m : Machine) : Decidable (Fine c m) :=
  inferInstanceAs (Decidable (OnlyGone _ _ _))

theorem host_serve (c : OsCall) (m : Machine) (h : Fine c m) :
    host.exec c m (serve quiet c m).1 (serve quiet c m).2 := ⟨exec_serve quiet c m, h⟩

/-- One branch is reset, and deleted at the same time. -/
abbrev both : Option Unit → Os (Except GoError Unit) := programs demoProvider fun _ => "feature"

/-- What is left of the reset when it has listed the clones, of the deletion when it is over, and
of the reset when it comes to the clone. -/
def race₁ : Os (Except GoError Unit) × Machine := (both none).advance (serve quiet) 2 demoBranch

def race₂ : Os (Except GoError Unit) × Machine :=
  (both (some ())).advance (serve quiet) 2 race₁.2

def race₃ : Os (Except GoError Unit) × Machine := race₁.1.advance (serve quiet) 2 race₂.2

/-- The clone that was listed has been deleted by then, and the reset fails. -/
theorem reset_races : ∃ c : Pool.Config OsCall OsCall.Reply Machine (Except GoError Unit)
      (Option Unit),
    demoBranch.store.filesystem "tank/mysql" ≠ none ∧ host.Run ⟨demoBranch, both⟩ c ∧
      ∃ err, c.threads none = .ret (.error err) ∧ err.reason = .notFound := by
  have h₁ : host.Run ⟨demoBranch, both⟩ ⟨race₁.2, Function.update both none race₁.1⟩ :=
    Pool.Run.advance host_serve none 2 (by decide +kernel)
  have h₂ : host.Run ⟨race₁.2, Function.update both none race₁.1⟩ ⟨race₂.2,
      Function.update (Function.update both none race₁.1) (some ()) race₂.1⟩ :=
    Pool.Run.advance host_serve (some ()) 2 (by decide +kernel)
  have h₃ : host.Run
      ⟨race₂.2, Function.update (Function.update both none race₁.1) (some ()) race₂.1⟩ ⟨race₃.2,
      Function.update (Function.update (Function.update both none race₁.1) (some ()) race₂.1)
        none race₃.1⟩ :=
    Pool.Run.advance host_serve none 2 (by decide +kernel)
  refine ⟨_, by decide +kernel, (h₁.trans h₂).trans h₃, ?_⟩
  have hleft : ∃ err, race₃.1 = .ret (.error err) ∧ err.reason = .notFound := ⟨_, rfl, rfl⟩
  simpa using hleft

instance (i : Option ι) (c : OsCall) (m : Machine) : Decidable (Undisturbed i c m) :=
  match i, c with
  | none, .zfs (.destroy _ _) => inferInstanceAs (Decidable (¬ _))
  | none, .zfs (.snapshot _) | none, .zfs (.rename ..) | none, .zfs (.clone ..)
  | none, .zfs (.share _) | none, .zfs .shareAll | none, .zfs (.unshare _)
  | none, .zfs (.getSharenfs _) | none, .zfs (.getClones _) | none, .zfs (.listSnapshots _)
  | none, .zfs (.listTree _) | none, .zfs (.list _) | none, .hostname | none, .readThreads
  | none, .writeThreads _ | none, .now | none, .visit _ | some _, _ => isTrue trivial

/-- A second branch of the same snapshot. -/
def demoBranches : Machine := finish quiet (demoProvider.createClone "base" "other") demoBranch

/-- The dataset is reset while both branches are deleted. -/
abbrev all : Option Bool → Os (Except GoError Unit) :=
  programs demoProvider fun i => if i then "other" else "feature"

/-- One deletion is over before the clones are listed; the other has begun by then, and goes on
when the reset has destroyed its clone. -/
def sharing : List (Option Bool × Nat) :=
  [(some true, 1), (some false, 2), (none, 4), (some true, 1), (none, 2)]

theorem reset_undisturbed_demo : ∃ c : Pool.Config OsCall OsCall.Reply Machine (Except GoError Unit)
      (Option Bool),
    host.RunWhere Undisturbed ⟨demoBranches, all⟩ c ∧ (∀ i, (c.threads i).isDone = true) ∧
      c.threads none = .ret (.ok ()) := by
  have hrun : host.RunWhere Undisturbed ⟨demoBranches, all⟩
      (Pool.turns (fun _ => serve quiet) sharing ⟨demoBranches, all⟩) :=
    Pool.RunWhere.turns
      (fun i c m (h : Fine c m ∧ Undisturbed i c m) => ⟨host_serve c m h.1, h.2⟩) sharing
      (by decide +kernel)
  have hall : ∀ i, ((Pool.turns (fun _ => serve quiet) sharing
      ⟨demoBranches, all⟩).threads i).isDone = true := by
    rintro (_ | _ | _)
    · decide +kernel
    · decide +kernel
    · decide +kernel
  obtain ⟨r, hdone⟩ := Prog.exists_of_isDone (hall none)
  obtain rfl := reset_undisturbed (p := demoProvider) (by decide +kernel) hrun hdone
  exact ⟨_, hrun, hall, hdone⟩

end BranchDB.Race
