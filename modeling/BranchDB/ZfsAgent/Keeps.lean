/-
# `BranchDB.ZfsAgent.Keeps` — a provider keeps to its dataset

Every name a method gives to `zfs` stands behind `ds@` or `ds/branches/`, whatever the strings the
method was given.  So in any run of any method, whatever fails in it, the rest of the pool stays
as it was, and the nfsd threads too (`Reaches.of_runs`): only when a clone is destroyed may nfsd
have to stop, and then everything is exported again.  The methods that list change nothing at all.
-/
import BranchDB.Zfs.Apart
import BranchDB.ZfsAgent.Exact

namespace BranchDB

open Concur Zfs

namespace AgentProvider

variable (p : AgentProvider)

theorem below_snapshotPath (name : String) : below p.dataset (p.snapshotPath name) = true := by
  rw [below_iff]
  right
  exact ⟨name.toList, by simp [snapshotPath]⟩

theorem below_clonePath (cloneName : String) : below p.dataset (p.clonePath cloneName) = true := by
  rw [below_iff]
  left
  exact ⟨"branches/".toList ++ cloneName.toList, by simp [clonePath]⟩

end AgentProvider

namespace ZfsAgent

/-! ## Calls that keep to a dataset -/

/-- What may be asked of the host; nfsd is stopped, and everything exported again, only by methods
that say so. -/
def Keeps (d : String) (exported : Bool) : OsCall → Prop
  | .zfs c => (c.ReadOnly ∨ c.Below d) ∧ (c = .shareAll → exported = true)
  | .writeThreads _ => exported = true
  | .hostname | .readThreads | .now | .visit _ => True

/-- What may be asked by a method that changes nothing. -/
def Looks : OsCall → Prop
  | .zfs c => c.ReadOnly
  | .writeThreads _ => False
  | .hostname | .readThreads | .now | .visit _ => True

/-- The rest of the pool is as it was. -/
structure Reaches (d : String) (exported : Bool) (m m' : Machine) : Prop where
  store : Apart d exported m.store m'.store
  threads : exported = false → m'.threads = m.threads

variable {d : String} {exported : Bool} {m m' m'' : Machine}

theorem Reaches.refl (d : String) (exported : Bool) (m : Machine) : Reaches d exported m m :=
  ⟨.refl d exported m.store, fun _ => rfl⟩

theorem Reaches.trans (h : Reaches d exported m m') (h' : Reaches d exported m' m'') :
    Reaches d exported m m'' :=
  ⟨h.store.trans h'.store, fun he => (h'.threads he).trans (h.threads he)⟩

theorem Keeps.reaches (hd : '@' ∉ d.toList) {c : OsCall} {r : c.Reply} (hc : Keeps d exported c)
    (h : Machine.exec c m r m') : Reaches d exported m m' := by
  cases c with
  | zfs c =>
      obtain ⟨⟨clock, hserved⟩, hthreads⟩ := h
      exact ⟨hserved.apart hd hc.1 hc.2, fun _ => hthreads⟩
  | writeThreads n =>
      obtain ⟨-, hstore⟩ := h
      refine ⟨hstore ▸ .refl d exported m.store, ?_⟩
      rintro rfl
      cases hc
  | hostname | now =>
      cases (show m' = m from h)
      exact .refl d exported m
  | readThreads | visit =>
      cases h.2
      exact .refl d exported m

theorem Looks.same {c : OsCall} {r : c.Reply} (hc : Looks c) (h : Machine.exec c m r m') :
    m' = m := by
  cases c with
  | zfs c =>
      obtain ⟨⟨clock, hserved⟩, hthreads⟩ := h
      exact Machine.ext (hserved.readOnly hc) hthreads
  | writeThreads n => exact hc.elim
  | hostname | now => exact h
  | readThreads | visit => exact h.2

section

variable {α : Type} {prog : Os α} {tr : List (Event OsCall OsCall.Reply Machine)} {a : α}

theorem Reaches.of_runs (hd : '@' ∉ d.toList) (hprog : prog.Only (Keeps d exported))
    (h : Machine.Runs prog m tr a m') : Reaches d exported m m' :=
  Prog.Ends.preserved (P := Keeps d exported) (J := Reaches d exported m)
    (fun _ _ _ _ hc hJ hexec => hJ.trans (hc.reaches hd hexec)) h hprog (.refl d exported m)

theorem same_of_runs (hprog : prog.Only Looks) (h : Machine.Runs prog m tr a m') : m' = m :=
  Prog.Ends.preserved (P := Looks) (J := (· = m))
    (fun _ _ _ _ hc hJ hexec => (hc.same hexec).trans hJ) h hprog rfl

end

/-! ## What the methods ask -/

/-- The methods that may have to stop nfsd. -/
def AgentCall.exports : AgentCall → Bool
  | .deleteClone _ | .resetDataset => true
  | .takeSnapshot .. | .deleteSnapshot _ | .listSnapshots | .gcSnapshots _ | .createClone ..
  | .listClones | .getClone _ => false

/-- The methods that only list. -/
def AgentCall.lists : AgentCall → Bool
  | .listSnapshots | .listClones | .getClone _ => true
  | .takeSnapshot .. | .deleteSnapshot _ | .gcSnapshots _ | .resetDataset | .createClone ..
  | .deleteClone _ => false

section

variable (p : AgentProvider)

theorem getClone_only {P : OsCall → Prop} {cloneName : String} (hhostname : P .hostname)
    (hlist : P (.zfs (.list (p.clonePath cloneName)))) : (p.getClone cloneName).Only P := by
  refine .bind (.perform hlist) ?_
  intro out
  split
  · exact .ret
  · exact p.shared_only hhostname

theorem keeps_one {c : Command} {object : String} (hc : c.objects = [object])
    (h : Zfs.below d object = true) (hne : c ≠ .shareAll) : Keeps d exported (.zfs c) := by
  refine ⟨Or.inr ?_, fun he => absurd he hne⟩
  intro x hx
  rw [hc, List.mem_singleton] at hx
  exact hx ▸ h

theorem keeps_two {c : Command} {object target : String} (hc : c.objects = [object, target])
    (h : Zfs.below d object = true) (h' : Zfs.below d target = true) (hne : c ≠ .shareAll) :
    Keeps d exported (.zfs c) := by
  refine ⟨Or.inr ?_, fun he => absurd he hne⟩
  intro x hx
  rw [hc, List.mem_cons, List.mem_singleton] at hx
  rcases hx with rfl | rfl
  · exact h
  · exact h'

theorem keeps_read {c : Command} (hc : c.ReadOnly) : Keeps d exported (.zfs c) := by
  refine ⟨Or.inl hc, ?_⟩
  rintro rfl
  exact hc.elim

/-- Whatever a method is given, it keeps to the dataset. -/
theorem keeps (c : AgentCall) : (volumeProvider p c).Only (Keeps p.dataset c.exports) := by
  have hsnapshot : ∀ {exported} name,
      Keeps p.dataset exported (.zfs (.destroy false (p.snapshotPath name))) :=
    fun name => keeps_one rfl (p.below_snapshotPath name) nofun
  have hclone : ∀ {exported} name,
      Keeps p.dataset exported (.zfs (.destroy true (p.clonePath name))) :=
    fun name => keeps_one rfl (p.below_clonePath name) nofun
  have hunshare : ∀ {exported} name,
      Keeps p.dataset exported (.zfs (.unshare (p.clonePath name))) :=
    fun name => keeps_one rfl (p.below_clonePath name) nofun
  have hshareAll : Keeps p.dataset true (.zfs .shareAll) := ⟨Or.inr nofun, fun _ => rfl⟩
  cases c with
  | takeSnapshot name overwrite =>
      refine p.takeSnapshot_only (hsnapshot _) trivial (fun t => ?_) ?_
      · exact keeps_two rfl (p.below_snapshotPath _) (p.below_snapshotPath _) nofun
      · exact keeps_one rfl (p.below_snapshotPath _) nofun
  | deleteSnapshot name => exact p.deleteSnapshot_only (hsnapshot _)
  | listSnapshots => exact p.listSnapshots_only (keeps_read trivial)
  | gcSnapshots keepCount =>
      exact p.gcSnapshots_only (keeps_read trivial) (fun _ => trivial)
        (fun _ _ => keeps_read trivial) fun name _ => hsnapshot name
  | resetDataset =>
      exact p.resetDataset_only (keeps_read trivial) trivial trivial (fun _ => rfl) hshareAll
        (keeps_read trivial) hunshare hclone hsnapshot
  | createClone snapshot cloneName =>
      refine .bind (.perform ?_) fun out => p.afterClone_only trivial ?_ ?_ fun _ => hclone _
      · exact keeps_two rfl (p.below_snapshotPath _) (p.below_clonePath _) nofun
      · exact keeps_one rfl (p.below_clonePath _) nofun
      · exact keeps_read trivial
  | deleteClone cloneName =>
      exact p.deleteClone_only (hunshare _) trivial (fun _ => rfl) (hclone _) hshareAll
  | listClones => exact p.listClones_only (keeps_read trivial) trivial
  | getClone cloneName => exact getClone_only p trivial (keeps_read trivial)

theorem looks {c : AgentCall} (hc : c.lists = true) : (volumeProvider p c).Only Looks := by
  cases c with
  | listSnapshots => exact p.listSnapshots_only trivial
  | listClones => exact p.listClones_only trivial trivial
  | getClone cloneName => exact getClone_only p trivial trivial
  | takeSnapshot | deleteSnapshot | gcSnapshots | resetDataset | createClone | deleteClone =>
      cases hc

end

/-! ## Main result -/

/-- MySQL and PostgreSQL have a snapshot each, of which a branch was made. -/
def demoShared : Machine where
  store :=
    { snapshots := [⟨"tank/mysql@base", "tank/mysql@base", 0, 1780239845⟩,
        ⟨"tank/postgres@base", "tank/postgres@base", 1, 1780239846⟩]
      filesystems := [⟨"tank/mysql", none, "rw=@10.0.0.0/8", true⟩,
        ⟨"tank/mysql/branches", none, "rw=@10.0.0.0/8", true⟩,
        ⟨"tank/mysql/branches/feature", some 0, "rw=@10.0.0.0/8", true⟩,
        ⟨"tank/postgres", none, "rw=@10.0.0.0/8", true⟩,
        ⟨"tank/postgres/branches", none, "rw=@10.0.0.0/8", true⟩,
        ⟨"tank/postgres/branches/feature", some 1, "rw=@10.0.0.0/8", true⟩]
      next := 2 }
  threads := 8
  wf :=
    { names := by decide
      guids := by decide
      fresh := by decide
      valid := by decide
      filesystems := by decide
      origins := by decide
      validFilesystems := by decide }
  bounded := Machine.demo.bounded

end ZfsAgent

end BranchDB
