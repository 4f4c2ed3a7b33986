/-
# `BranchDB.Zfs.Survival` — branches outlive the maintenance of snapshots

Snapshots are taken, overwritten, deleted and collected while branches run on clones of them,
and further clones are made.  A clone keeps existing through all this, and so does its origin,
though it may be archived under another name (`branch_survives`).

Call by call there is little to it: no call but a destroy of the very filesystem could harm
it (`Survives.exec`).  The one method of these that destroys a filesystem is `CreateClone`,
when it takes back what it made, and that was not there before.
-/
import BranchDB.Zfs.CreateClone
import Mathlib.Logic.Relation

namespace BranchDB

open Concur Zfs

/-- A name, archived any number of times. -/
inductive ArchiveOf (name : String) : String → Prop
  | refl : ArchiveOf name name
  | stamp {target : String} (t : Time) : ArchiveOf name target →
      ArchiveOf name (target ++ "-" ++ t.stamp)

namespace Machine

/-- The filesystem `path` is still there with its origin, and that is still the snapshot it
was in `m₀`. -/
structure Survives (path : String) (origin : Option Nat) (m₀ m : Machine) : Prop where
  dataset : (path, origin) ∈ m.store.datasets
  snapshot : ∀ s ∈ m₀.store.snapshots, origin = some s.guid →
    ∃ s' ∈ m.store.snapshots, s'.guid = s.guid ∧ ArchiveOf s.name s'.name

/-- Calls that cannot harm the filesystem `path`. -/
def Harmless (path : String) : OsCall → Prop
  | .zfs (.destroy _ object) => '@' ∈ object.toList ∨ object ≠ path
  | .zfs (.rename name target) => ∃ t : Time, target = name ++ "-" ++ t.stamp
  | .zfs _ | .hostname | .readThreads | .writeThreads _ | .now | .visit _ => True

variable {path : String} {origin : Option Nat} {m₀ m m' : Machine}

theorem Survives.refl (h : (path, origin) ∈ m.store.datasets) : Survives path origin m m :=
  ⟨h, fun s hs _ => ⟨s, hs, rfl, .refl⟩⟩

/-- A command that is harmless. -/
theorem Survives.zfs (h : Survives path origin m₀ m) {c : Command} {out : Output}
    (hc : Harmless path (.zfs c)) (hexec : exec (.zfs c) m out m') :
    Survives path origin m₀ m' := by
  obtain ⟨⟨clock, hserved⟩, -⟩ := hexec
  have hdestroy : ∀ force, c ≠ .destroy force path := by
    rintro force rfl
    rcases hc with hat | hne
    · obtain ⟨f, hf, rfl, -⟩ := mem_datasets.mp h.dataset
      exact (m.wf.validFilesystems f hf).not_mem hat
    · exact hne rfl
  refine ⟨hserved.dataset_kept h.dataset hdestroy, ?_⟩
  intro s hs ho
  obtain ⟨s', hs', hguid, harchive⟩ := h.snapshot s hs ho
  rcases hserved.snapshot_kept hs' with hkept | ⟨target, rfl, hkept⟩ | ⟨_, _, -, -, hnone⟩
  · exact ⟨s', hkept, hguid, harchive⟩
  · obtain ⟨t, rfl⟩ := hc
    exact ⟨_, hkept, hguid, harchive.stamp t⟩
  · have horigin : (path, some s'.guid) ∈ m.store.datasets := by
      rw [hguid, ← ho]
      exact h.dataset
    exact absurd hnone (clones_ne_nil horigin)

theorem Survives.exec (h : Survives path origin m₀ m) {c : OsCall} {r : c.Reply}
    (hc : Harmless path c) (hexec : Machine.exec c m r m') : Survives path origin m₀ m' := by
  cases c with
  | zfs c => exact h.zfs hc hexec
  | hostname | now => exact hexec ▸ h
  | visit | readThreads => exact hexec.2 ▸ h
  | writeThreads =>
      obtain ⟨-, hstore⟩ := hexec
      exact ⟨hstore ▸ h.dataset, hstore ▸ h.snapshot⟩

/-- A run of harmless calls. -/
theorem Survives.runs {α : Type} {p : Os α} {tr : List (Event OsCall OsCall.Reply Machine)} {a : α}
    (h : Survives path origin m₀ m) (hp : p.Only (Harmless path)) (hrun : Runs p m tr a m') :
    Survives path origin m₀ m' :=
  Prog.Ends.preserved (fun _ _ _ _ hc hJ hexec => hJ.exec hc hexec) hrun hp h

end Machine

/-! ## The methods -/

namespace AgentProvider

open Machine

variable (p : AgentProvider) {path : String} {origin : Option Nat} {m₀ m m' : Machine}

theorem harmless_destroy (name : String) :
    Harmless path (.zfs (.destroy false (p.snapshotPath name))) :=
  Or.inl (p.at_mem_snapshotPath name)

theorem harmless_rename (name : String) (t : Time) :
    Harmless path (.zfs (.rename (p.snapshotPath name)
      (p.snapshotPath (name ++ "-" ++ t.stamp)))) :=
  ⟨t, by simp [snapshotPath, String.append_assoc]⟩

/-- What `CreateClone` takes back was not there before. -/
theorem survives_createClone {snapshot cloneName : String}
    {tr : List (Event OsCall OsCall.Reply Machine)} {r : Except GoError VolumeInfo}
    (h : Survives path origin m₀ m) (hrun : Runs (p.createClone snapshot cloneName) m tr r m') :
    Survives path origin m₀ m' := by
  rw [createClone_eq] at hrun
  obtain ⟨out, m₁, rest, hexec, hrest, rfl⟩ := runs_zfs_bind.mp hrun
  have h₁ : Survives path origin m₀ m₁ :=
    h.zfs (c := .clone (p.snapshotPath snapshot) (p.clonePath cloneName)) trivial hexec
  refine h₁.runs (p.afterClone_only trivial trivial trivial fun herr => Or.inr ?_) hrest
  rintro rfl
  obtain ⟨⟨clock, hserved⟩, -⟩ := hexec
  obtain ⟨-, -, hnew, -⟩ := refusal_clone.mp (hserved.of_ok herr).1
  exact filesystem_ne_none.mpr ⟨origin, h.dataset⟩ hnew

/-- The maintenance of snapshots, and further clones. -/
inductive Maintenance
  | takeSnapshot (name : String) (overwrite : Bool)
  | deleteSnapshot (name : String)
  | gcSnapshots (keepCount : Int)
  | createClone (snapshot cloneName : String)

/-- The operation was carried out, with whatever result. -/
def Maintenance.Completed : Maintenance → Machine → Machine → Prop
  | .takeSnapshot name overwrite, m, m' => ∃ tr r, Runs (p.takeSnapshot name overwrite) m tr r m'
  | .deleteSnapshot name, m, m' => ∃ tr r, Runs (p.deleteSnapshot name) m tr r m'
  | .gcSnapshots keepCount, m, m' => ∃ tr r, Runs (p.gcSnapshots keepCount) m tr r m'
  | .createClone snapshot cloneName, m, m' =>
    ∃ tr r, Runs (p.createClone snapshot cloneName) m tr r m'

/-- A sequence of such operations. -/
abbrev Maintained (p : AgentProvider) : Machine → Machine → Prop :=
  Relation.ReflTransGen fun m m' => ∃ op : Maintenance, op.Completed p m m'

theorem survives_maintenance {op : Maintenance} (h : Survives path origin m₀ m)
    (hop : op.Completed p m m') : Survives path origin m₀ m' := by
  cases op with
  | takeSnapshot name overwrite =>
      obtain ⟨tr, r, hrun⟩ := hop
      exact h.runs (p.takeSnapshot_only (p.harmless_destroy name) trivial
        (p.harmless_rename name) trivial) hrun
  | deleteSnapshot name =>
      obtain ⟨tr, r, hrun⟩ := hop
      exact h.runs (p.deleteSnapshot_only (p.harmless_destroy name)) hrun
  | gcSnapshots keepCount =>
      obtain ⟨tr, r, hrun⟩ := hop
      exact h.runs (p.gcSnapshots_only trivial (fun _ => trivial) (fun _ _ => trivial)
        fun name _ => p.harmless_destroy name) hrun
  | createClone snapshot cloneName =>
      obtain ⟨tr, r, hrun⟩ := hop
      exact p.survives_createClone h hrun

theorem survives_maintained (h : Survives path origin m₀ m) (hrun : p.Maintained m m') :
    Survives path origin m₀ m' := by
  induction hrun with
  | refl => exact h
  | tail _ hop ih =>
      obtain ⟨op, hop⟩ := hop
      exact p.survives_maintenance ih hop

/-! ## Main result -/

/-- Once `CreateClone` succeeded the clone is there, and after any maintenance it still is, with
its origin, which is the same snapshot, under its name or archived. -/
theorem branch_survives {snapshot cloneName : String} {vol : VolumeInfo}
    {tr : List (Event OsCall OsCall.Reply Machine)}
    (hcreate : Runs (p.createClone snapshot cloneName) m₀ tr (.ok vol) m)
    (hrun : p.Maintained m m') :
    ('@' ∉ (p.clonePath cloneName).toList →
      ∃ origin, (p.clonePath cloneName, origin) ∈ m.store.datasets) ∧
    ∀ origin, (p.clonePath cloneName, origin) ∈ m.store.datasets →
      Survives (p.clonePath cloneName) origin m m' := by
  constructor
  · intro hat
    exact m.wf.filesystem_of_exists (p.createClone_exists hcreate) hat
  · intro origin hmem
    exact p.survives_maintained (.refl hmem) hrun

/-- A branch is made of a snapshot, and the snapshot is overwritten. -/
def demoBranch : Machine := finish quiet (demoProvider.createClone "base" "feature") demoTaken

def demoOverwritten : Machine := finish quiet (demoProvider.takeSnapshot "base" true) demoBranch

theorem branch_survives_demo :
    Survives (demoProvider.clonePath "feature") (some 0) demoBranch demoOverwritten := by
  obtain ⟨tr, hcreate⟩ := serve_runs quiet (demoProvider.createClone "base" "feature") demoTaken
    (show _ = Except.ok ⟨"feature", "10.0.0.1", "/tank/mysql/branches/feature"⟩ by decide +kernel)
  obtain ⟨tr', htake⟩ := serve_runs quiet (demoProvider.takeSnapshot "base" true) demoBranch rfl
  have hop : (Maintenance.takeSnapshot "base" true).Completed demoProvider demoBranch
      demoOverwritten := ⟨tr', _, htake⟩
  have hmem : (demoProvider.clonePath "feature", some 0) ∈ demoBranch.store.datasets := by
    decide +kernel
  exact (demoProvider.branch_survives hcreate (.single ⟨_, hop⟩)).2 (some 0) hmem

end AgentProvider

end BranchDB
