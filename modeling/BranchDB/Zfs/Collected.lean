/-
# `BranchDB.Zfs.Collected` — what the garbage collection destroys

Which snapshots are archives the collection tells by their names.  An overwrite does give
archives such names, but so may whoever takes a snapshot, and `POST /snapshots` does where no
name is given (`snapshotName`).  If no snapshot is taken under such a name, then whatever looks
like an archive is one, after any history (`Tracked`), and only archives are collected.
-/
import BranchDB.Zfs.Listing
import BranchDB.Zfs.Survival

namespace BranchDB

open Concur Strings Zfs

/-! ## Archives -/

/-- An overwrite gave the snapshot its name: the name of its creation, archived. -/
def Archived (s : Snapshot) : Prop :=
  ∃ base : String, ∃ t : Time, ArchiveOf s.born base ∧ s.name = base ++ "-" ++ t.stamp

theorem ArchiveOf.length_le {name target : String} (h : ArchiveOf name target) :
    name.toList.length ≤ target.toList.length := by
  induction h with
  | refl => exact Nat.le_refl _
  | stamp t _ ih =>
      simp only [String.toList_append, List.length_append]
      omega

theorem Archived.name_ne {s : Snapshot} (h : Archived s) : s.name ≠ s.born := by
  obtain ⟨base, t, hbase, hname⟩ := h
  have hlength := hbase.length_le
  intro he
  have hdash : "-".toList.length = 1 := rfl
  rw [← he, hname] at hlength
  simp only [String.toList_append, List.length_append, hdash] at hlength
  omega

namespace AgentProvider

open Machine

variable (p : AgentProvider) {m m' : Machine} {tr : List (Event OsCall OsCall.Reply Machine)}

theorem snapshotPath_inj {name name' : String} (h : p.snapshotPath name = p.snapshotPath name') :
    name = name' := by
  have hchars := congrArg String.toList h
  simp only [snapshotPath, String.toList_append, List.append_assoc] at hchars
  exact String.toList_inj.mp (List.append_cancel_left (List.append_cancel_left hchars))

/-- Each snapshot of the dataset is an archive, or has its first name, and that does not look
like the name of an archive. -/
def Tracked (m : Machine) : Prop :=
  ∀ s ∈ m.store.snapshots, ∀ name, s.name = p.snapshotPath name →
    Archived s ∨ (s.name = s.born ∧ archivePrefix name = none)

/-- Calls by which the snapshots stay tracked. -/
def Tracks : OsCall → Prop
  | .zfs (.rename name target) =>
    ∃ (base : String) (t : Time), name = p.snapshotPath base ∧ target = name ++ "-" ++ t.stamp
  | .zfs (.snapshot name) => ∃ base, name = p.snapshotPath base ∧ archivePrefix base = none
  | .zfs _ | .hostname | .readThreads | .writeThreads _ | .now | .visit _ => True

variable {p} in
theorem Tracked.archive {s : Snapshot} (h : p.Tracked m) (hs : s ∈ m.store.snapshots)
    {base : String} (hname : s.name = p.snapshotPath base) (t : Time) :
    Archived { s with name := s.name ++ "-" ++ t.stamp } := by
  refine ⟨s.name, t, ?_, rfl⟩
  rcases h s hs base hname with ⟨base, t, hbase, hstamp⟩ | ⟨hborn, -⟩
  · rw [hstamp]
    exact hbase.stamp t
  · rw [hborn]
    exact .refl

variable {p} in
theorem Tracked.zfs (h : p.Tracked m) {c : Command} {out : Output} (hc : p.Tracks (.zfs c))
    (hexec : exec (.zfs c) m out m') : p.Tracked m' := by
  obtain ⟨⟨clock, hserved⟩, -⟩ := hexec
  intro s hs name hname
  rcases hserved.snapshot_before hs with hs | ⟨u, hu, target, rfl, rfl⟩ | ⟨fresh, rfl, rfl⟩
  · exact h s hs name hname
  · obtain ⟨base, t, hbase, rfl⟩ := hc
    exact Or.inl (h.archive hu hbase t)
  · obtain ⟨base, rfl, hnone⟩ := hc
    obtain rfl := p.snapshotPath_inj hname
    exact Or.inr ⟨rfl, hnone⟩

variable {p} in
theorem Tracked.exec (h : p.Tracked m) {c : OsCall} {r : c.Reply} (hc : p.Tracks c)
    (hexec : Machine.exec c m r m') : p.Tracked m' := by
  cases c with
  | zfs c => exact h.zfs hc hexec
  | hostname | now => exact hexec ▸ h
  | visit | readThreads => exact hexec.2 ▸ h
  | writeThreads =>
      obtain ⟨-, hstore⟩ := hexec
      rw [Tracked, hstore]
      exact h

variable {p} in
theorem Tracked.runs {α : Type} {q : Os α} {a : α} (h : p.Tracked m) (hq : q.Only p.Tracks)
    (hrun : Runs q m tr a m') : p.Tracked m' :=
  Prog.Ends.preserved (fun _ _ _ _ hc hJ hexec => hJ.exec hc hexec) hrun hq h

/-! ## Histories -/

/-- The operations on a dataset in use. -/
inductive Operation
  | takeSnapshot (name : String) (overwrite : Bool)
  | createClone (snapshot cloneName : String)
  | deleteClone (cloneName : String)
  | gcSnapshots (keepCount : Int)

/-- The operation was carried out, with whatever result. -/
def Operation.Completed : Operation → Machine → Machine → Prop
  | .takeSnapshot name overwrite, m, m' => ∃ tr r, Runs (p.takeSnapshot name overwrite) m tr r m'
  | .createClone snapshot cloneName, m, m' =>
    ∃ tr r, Runs (p.createClone snapshot cloneName) m tr r m'
  | .deleteClone cloneName, m, m' => ∃ tr r, Runs (p.deleteClone cloneName) m tr r m'
  | .gcSnapshots keepCount, m, m' => ∃ tr r, Runs (p.gcSnapshots keepCount) m tr r m'

/-- No snapshot is taken under the name of an archive. -/
def Operation.Plain : Operation → Prop
  | .takeSnapshot name _ => archivePrefix name = none
  | .createClone .. | .deleteClone _ | .gcSnapshots _ => True

/-- A sequence of operations. -/
abbrev Used (ok : Operation → Prop) : Machine → Machine → Prop :=
  Relation.ReflTransGen fun m m' => ∃ op, ok op ∧ op.Completed p m m'

variable {p} in
theorem Tracked.step {op : Operation} (h : p.Tracked m) (hplain : op.Plain)
    (hop : op.Completed p m m') : p.Tracked m' := by
  cases op with
  | takeSnapshot name overwrite =>
      obtain ⟨tr, r, hrun⟩ := hop
      have hrename : ∀ t : Time, p.Tracks (.zfs (.rename (p.snapshotPath name)
          (p.snapshotPath (name ++ "-" ++ t.stamp)))) := fun t =>
        ⟨name, t, rfl, by simp [snapshotPath, String.append_assoc]⟩
      exact h.runs (p.takeSnapshot_only trivial trivial hrename ⟨name, rfl, hplain⟩) hrun
  | createClone snapshot cloneName =>
      obtain ⟨tr, r, hrun⟩ := hop
      rw [createClone_eq] at hrun
      have hclone : p.Tracks (.zfs (.clone (p.snapshotPath snapshot) (p.clonePath cloneName))) :=
        trivial
      refine h.runs (.bind (.perform hclone) fun out => ?_) hrun
      exact p.afterClone_only trivial trivial trivial fun _ => trivial
  | deleteClone cloneName =>
      obtain ⟨tr, r, hrun⟩ := hop
      exact h.runs (p.deleteClone_only trivial trivial (fun _ => trivial) trivial trivial) hrun
  | gcSnapshots keepCount =>
      obtain ⟨tr, r, hrun⟩ := hop
      exact h.runs (p.gcSnapshots_only trivial (fun _ => trivial) (fun _ _ => trivial)
        fun _ _ => trivial) hrun

variable {p} in
theorem Tracked.used (h : p.Tracked m) (hused : p.Used Operation.Plain m m') : p.Tracked m' := by
  induction hused with
  | refl => exact h
  | tail _ hop ih =>
      obtain ⟨op, hplain, hop⟩ := hop
      exact ih.step hplain hop

/-! ## The collection -/

/-- Of the snapshots, calls that destroy only one, under the name of an archive. -/
def Collects : OsCall → Prop
  | .zfs (.destroy _ object) => ∃ name, object = p.snapshotPath name ∧ PlainObject object ∧
      archivePrefix name ≠ none
  | .zfs (.rename ..) => False
  | .zfs _ | .hostname | .readThreads | .writeThreads _ | .now | .visit _ => True

/-- Such calls leave every tracked snapshot that is not an archive. -/
theorem collects_exec {m₀ : Machine} (htracked : p.Tracked m₀) {c : OsCall} {r : c.Reply}
    (hc : p.Collects c) (hexec : Machine.exec c m r m')
    (h : ∀ s ∈ m₀.store.snapshots, s ∈ m.store.snapshots ∨ Archived s) :
    ∀ s ∈ m₀.store.snapshots, s ∈ m'.store.snapshots ∨ Archived s := by
  intro s hs
  rcases h s hs with hmem | harchived
  · cases c with
    | zfs c =>
        obtain ⟨⟨clock, hserved⟩, -⟩ := hexec
        rcases hserved.snapshot_kept hmem with
          hkept | ⟨target, rfl, -⟩ | ⟨force, object, rfl, hsel, -⟩
        · exact Or.inl hkept
        · exact hc.elim
        · obtain ⟨name, rfl, hplain, harchive⟩ := hc
          have hname : s.name = p.snapshotPath name := ((mem_selected_of_plain hplain).mp hsel).2
          rcases htracked s hs name hname with h | ⟨-, hnone⟩
          · exact Or.inr h
          · exact absurd hnone harchive
    | hostname | now => exact Or.inl (hexec ▸ hmem)
    | visit | readThreads => exact Or.inl (hexec.2 ▸ hmem)
    | writeThreads => exact Or.inl (hexec.2 ▸ hmem)
  · exact Or.inr harchived

/-- In a dataset that is tracked the collection destroys only archives. -/
theorem collected {keepCount : Int} {r : Except GoError (List String)}
    (h : p.Tracked m) (hrun : Runs (p.gcSnapshots keepCount) m tr r m') :
    ∀ s ∈ m.store.snapshots, s ∈ m'.store.snapshots ∨ Archived s := by
  rw [gcSnapshots_eq] at hrun
  obtain ⟨listed, m₁, first, rest, hlist, hrest, rfl⟩ := Prog.ends_bind.mp hrun
  obtain ⟨hsame, hlisted⟩ := p.runs_listSnapshots hlist
  have hstart : ∀ s ∈ m.store.snapshots, s ∈ m₁.store.snapshots ∨ Archived s :=
    fun s hs => Or.inl (hsame ▸ hs)
  have honly : (p.afterListing keepCount listed).Only p.Collects := by
    cases listed with
    | error err => exact .ret
    | ok snaps =>
        obtain ⟨hthere, rfl⟩ := hlisted snaps rfl
        have hdataset := valid_of_filesystem hthere
        refine p.afterListing_only (fun _ => trivial) (fun _ _ _ => trivial) ?_
        intro key s hs
        obtain ⟨hmem, hkey⟩ := mem_of_surplus hs
        exact ⟨s.name, rfl, p.plain_snapshotPath hdataset (unmarked_parsed m.wf hmem),
          hkey ▸ Option.some_ne_none key⟩
  exact Prog.Ends.preserved
    (J := fun m' => ∀ s ∈ m.store.snapshots, s ∈ m'.store.snapshots ∨ Archived s)
    (fun _ _ _ _ hc hJ hexec => p.collects_exec h hc hexec hJ) hrest honly hstart

/-! ## Main result -/

/-- A dataset starts without snapshots, and none is taken under the name of an archive: then the
collection destroys only what an overwrite archived, and nothing under its first name. -/
theorem gc_reclaims_archives {m₀ : Machine} {keepCount : Int} {r : Except GoError (List String)}
    (hstart : ∀ s ∈ m₀.store.snapshots, ∀ name, s.name ≠ p.snapshotPath name)
    (hused : p.Used Operation.Plain m₀ m) (hrun : Runs (p.gcSnapshots keepCount) m tr r m') :
    ∀ s ∈ m.store.snapshots, (∀ s' ∈ m'.store.snapshots, s'.guid ≠ s.guid) →
      Archived s ∧ s.name ≠ s.born := by
  intro s hs hgone
  have htracked : p.Tracked m :=
    Tracked.used (fun s hs name hname => absurd hname (hstart s hs name)) hused
  rcases p.collected htracked hrun s hs with hkept | harchived
  · exact absurd rfl (hgone s hkept)
  · exact ⟨harchived, harchived.name_ne⟩

/-- A branch was made of a snapshot, the snapshot was overwritten, and the branch was deleted. -/
def demoStale : Machine where
  store :=
    { snapshots := [⟨"tank/mysql@base-20260531-150405", "tank/mysql@base", 0, 0⟩,
        ⟨"tank/mysql@base", "tank/mysql@base", 1, 0⟩]
      filesystems := demo.store.filesystems
      next := 2 }
  threads := 8
  wf :=
    { names := by decide
      guids := by decide
      fresh := by decide
      valid := by decide
      filesystems := demo.wf.filesystems
      origins := fun f hf o ho => absurd ho (demo_origin_ne hf o)
      validFilesystems := demo.wf.validFilesystems }
  bounded := demo.bounded

theorem demoStale_used : demoProvider.Used Operation.Plain demo demoStale := by
  have hfinish : finish quiet (demoProvider.deleteClone "feature") demoOverwritten = demoStale :=
    have hcomputed : (finish quiet (demoProvider.deleteClone "feature") demoOverwritten).store =
        demoStale.store ∧ (finish quiet (demoProvider.deleteClone "feature")
          demoOverwritten).threads = demoStale.threads := by decide +kernel
    Machine.ext hcomputed.1 hcomputed.2
  have hplain : (Operation.takeSnapshot "base" true).Plain := show _ = none by decide
  obtain ⟨tr₁, hrun₁⟩ := serve_runs quiet (demoProvider.takeSnapshot "base" false) demo rfl
  obtain ⟨tr₂, hrun₂⟩ := serve_runs quiet (demoProvider.createClone "base" "feature") demoTaken rfl
  obtain ⟨tr₃, hrun₃⟩ := serve_runs quiet (demoProvider.takeSnapshot "base" true) demoBranch rfl
  obtain ⟨tr₄, hrun₄⟩ := serve_runs quiet (demoProvider.deleteClone "feature") demoOverwritten rfl
  rw [hfinish] at hrun₄
  exact .tail (.tail (.tail (.single ⟨.takeSnapshot "base" false, hplain, tr₁, _, hrun₁⟩)
    ⟨.createClone "base" "feature", trivial, tr₂, _, hrun₂⟩)
    ⟨.takeSnapshot "base" true, hplain, tr₃, _, hrun₃⟩)
    ⟨.deleteClone "feature", trivial, tr₄, _, hrun₄⟩

/-- A collection can be computed from the listing on. -/
theorem runs_gc (m : Machine) (listing : List SnapshotInfo) (keepCount : Int)
    (hlist : (demoProvider.listSnapshots.run (Machine.serve quiet) m).1 = .ok listing) :
    ∃ tr r, Runs (demoProvider.gcSnapshots keepCount) m tr r
      (finish quiet (demoProvider.afterListing keepCount (.ok listing)) m) := by
  obtain ⟨tr₁, hlisted⟩ := serve_runs quiet demoProvider.listSnapshots m hlist
  obtain ⟨tr₂, hrest⟩ := serve_runs quiet (demoProvider.afterListing keepCount (.ok listing)) m rfl
  rw [(demoProvider.runs_listSnapshots hlisted).1] at hlisted
  exact ⟨_, _, Prog.ends_bind.mpr ⟨_, _, _, _, hlisted, hrest, rfl⟩⟩

theorem gc_reclaims_archives_demo :
    Archived ⟨"tank/mysql@base-20260531-150405", "tank/mysql@base", 0, 0⟩ := by
  obtain ⟨tr, r, hrun⟩ := runs_gc demoStale
    [{ name := "base-20260531-150405", createdAt := ⟨0, 0⟩, databaseType := "" },
      { name := "base", createdAt := ⟨0, 0⟩, databaseType := "" }] 0 (by decide +kernel)
  exact (demoProvider.gc_reclaims_archives (fun s hs => absurd hs List.not_mem_nil) demoStale_used
    hrun _ List.mem_cons_self (by decide +kernel)).1

/-! ## The default name -/

/-- `handleTakeSnapshot`: the name of the snapshot, where `body.Name` may be empty. -/
def snapshotName (name : String) (now : Time) : String :=
  if name = "" then "auto-" ++ now.stamp else name

/-- Snapshots were taken under the default name, a second apart. -/
def demoAutos : Machine where
  store :=
    { snapshots := [⟨"tank/mysql@auto-20260531-150405", "tank/mysql@auto-20260531-150405", 0, 0⟩,
        ⟨"tank/mysql@auto-20260531-150406", "tank/mysql@auto-20260531-150406", 1, 0⟩]
      filesystems := demo.store.filesystems
      next := 2 }
  threads := 8
  wf :=
    { names := by decide
      guids := by decide
      fresh := by decide
      valid := by decide
      filesystems := demo.wf.filesystems
      origins := fun f hf o ho => absurd ho (demo_origin_ne hf o)
      validFilesystems := demo.wf.validFilesystems }
  bounded := demo.bounded

/-- `POST /snapshots` without a name, at an instant. -/
abbrev takeAuto (seconds : Int) : Os (Except GoError Unit) :=
  demoProvider.takeSnapshot (snapshotName "" ⟨seconds * second, 0⟩) false

theorem demoAutos_used : demoProvider.Used (fun _ => True) demo demoAutos := by
  have hfinish : finish quiet (takeAuto 1780239846) (finish quiet (takeAuto 1780239845) demo) =
      demoAutos := Machine.ext (by decide +kernel) rfl
  obtain ⟨tr₁, hrun₁⟩ := serve_runs quiet (takeAuto 1780239845) demo rfl
  obtain ⟨tr₂, hrun₂⟩ := serve_runs quiet (takeAuto 1780239846)
    (finish quiet (takeAuto 1780239845) demo) rfl
  rw [hfinish] at hrun₂
  exact .tail (.single ⟨.takeSnapshot _ false, trivial, tr₁, _, hrun₁⟩)
    ⟨.takeSnapshot _ false, trivial, tr₂, _, hrun₂⟩

/-- One of them is collected. -/
theorem gc_reclaims_named : demoProvider.Used (fun _ => True) demo demoAutos ∧ ∃ tr r m',
    Runs (demoProvider.gcSnapshots 1) demoAutos tr r m' ∧
      ∃ s ∈ demoAutos.store.snapshots, (∀ s' ∈ m'.store.snapshots, s'.guid ≠ s.guid) ∧
        s.name = s.born := by
  obtain ⟨tr, r, hrun⟩ := runs_gc demoAutos
    [{ name := "auto-20260531-150405", createdAt := ⟨0, 0⟩, databaseType := "" },
      { name := "auto-20260531-150406", createdAt := ⟨0, 0⟩, databaseType := "" }] 1
    (by decide +kernel)
  refine ⟨demoAutos_used, tr, r, _, hrun, ?_⟩
  decide +kernel

end AgentProvider

end BranchDB
