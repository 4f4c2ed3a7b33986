/-
# `BranchDB.Zfs.Reset` — a dataset that was reset is empty

    ListClones ─▶ DeleteClone for each ─▶ ListSnapshots ─▶ DeleteSnapshot for each ─▶ nil

A listing of clones that fails is an empty one, and the names that are deleted are read out of
texts; all the same nothing is left if the result is nil.  For each snapshot that was listed
one of the dataset was destroyed (`runs_resetSnapshots`), and as many were listed as there are
(`length_parsed`), so there is none left; and a clone would have its origin (`Store.WF`).
-/
import BranchDB.Zfs.Listing
import BranchDB.Zfs.Survival

namespace BranchDB.AgentProvider

open Concur Strings Zfs Machine

variable (p : AgentProvider) {m m' : Machine} {tr : List (Event OsCall OsCall.Reply Machine)}

/-! ## What a reset does not do -/

/-- Nothing is taken, renamed or cloned. -/
def Removes : OsCall → Prop
  | .zfs (.snapshot _) | .zfs (.rename ..) | .zfs (.clone ..) => False
  | .zfs _ | .hostname | .readThreads | .writeThreads _ | .now | .visit _ => True

theorem resetDataset_removes : p.resetDataset.Only Removes :=
  p.resetDataset_only trivial trivial trivial (fun _ => trivial) trivial trivial
    (fun _ => trivial) (fun _ => trivial) (fun _ => trivial)

/-- So every snapshot that is there was there before. -/
theorem exec_removes {c : OsCall} {r : c.Reply} (hc : Removes c) (h : exec c m r m') {s : Snapshot}
    (hs : s ∈ m'.store.snapshots) : s ∈ m.store.snapshots := by
  cases c with
  | zfs c =>
      obtain ⟨⟨clock, hserved⟩, -⟩ := h
      rcases hserved.snapshot_before hs with hs | ⟨t, -, target, rfl, -⟩ | ⟨name, rfl, -⟩
      · exact hs
      · exact hc.elim
      · exact hc.elim
  | hostname | now => exact h ▸ hs
  | visit | readThreads => exact h.2 ▸ hs
  | writeThreads => exact h.2 ▸ hs

/-! ## What it does -/

/-- A deletion without an error was carried out. -/
theorem runs_deleteSnapshot_ok {name : String} (h : Runs (p.deleteSnapshot name) m tr (.ok ()) m') :
    ∃ clock, refusal m.store (.destroy false (p.snapshotPath name)) = none ∧
      m'.store = effect clock m.store (.destroy false (p.snapshotPath name)) := by
  obtain ⟨out, ⟨⟨clock, hserved⟩, -⟩, hr, -⟩ := p.deleteSnapshot_ends.mp h
  obtain ⟨hrefused, -, hstore⟩ := hserved.of_ok (destroyed_ok.mp hr.symm)
  exact ⟨clock, hrefused, hstore⟩

/-- It leaves fewer snapshots of the dataset. -/
theorem length_own_lt {name : String} (hdataset : ValidFilesystem p.dataset.toList)
    (hname : Unmarked name) (h : Runs (p.deleteSnapshot name) m tr (.ok ()) m') :
    (m'.store.own p.dataset).length < (m.store.own p.dataset).length := by
  obtain ⟨clock, hr, hstore⟩ := p.runs_deleteSnapshot_ok h
  have hplain := p.plain_snapshotPath hdataset hname
  simp only [refusal, if_pos hplain.1] at hr
  obtain ⟨s, hs⟩ := List.exists_mem_of_ne_nil _ (clones_of_refuseSnapshots hr).1
  obtain ⟨hmem, hpath⟩ := (mem_selected_of_plain hplain).mp hs
  have hown : s ∈ m.store.own p.dataset := by
    refine mem_own.mpr ⟨hmem, ?_⟩
    rw [hpath, snapshotPath, String.toList_append, String.toList_append, List.append_assoc]
    exact (congrArg String.ofList (congrArg Prod.fst (cutAt_append hdataset.not_mem))).trans
      String.ofList_toList
  have hfilter : m'.store.own p.dataset =
      (m.store.own p.dataset).filter (· ∉ m.store.selected (p.snapshotPath name)) := by
    rw [hstore, effect, if_pos hplain.1]
    exact List.filter_comm _ _ _
  rw [hfilter]
  exact List.length_filter_lt_length_iff_exists.mpr ⟨s, hown, by simpa using hs⟩

/-- For each snapshot that is deleted there is one less. -/
theorem runs_resetSnapshots {snaps : List SnapshotInfo}
    (hdataset : ValidFilesystem p.dataset.toList)
    (hnames : ∀ s ∈ snaps, Unmarked s.name) (h : Runs (p.resetSnapshots snaps) m tr (.ok ()) m') :
    (m'.store.own p.dataset).length + snaps.length ≤ (m.store.own p.dataset).length := by
  induction snaps generalizing m tr with
  | nil =>
      obtain ⟨-, -, rfl⟩ := Prog.ends_ret.mp h
      exact Nat.le_refl _
  | cons s rest ih =>
      obtain ⟨r, m₁, first, more, hfirst, hmore, rfl⟩ := Prog.ends_bind.mp h
      cases r with
      | error err =>
          obtain ⟨-, hr, -⟩ := Prog.ends_ret.mp hmore
          cases hr
      | ok =>
          have hless := p.length_own_lt hdataset (hnames s List.mem_cons_self) hfirst
          have hrest := ih (fun t ht => hnames t (List.mem_cons_of_mem s ht)) hmore
          rw [List.length_cons]
          omega

/-- The second half of a reset, from wherever the first half ended, leaves no snapshot. -/
theorem runs_resetDataset (h : Runs p.resetDataset m tr (.ok ()) m') :
    m'.store.own p.dataset = [] := by
  obtain ⟨r, m₁, _, _, hclones, hrest, rfl⟩ := Prog.ends_bind.mp h
  cases r with
  | error err =>
      obtain ⟨-, hr, -⟩ := Prog.ends_ret.mp hrest
      cases hr
  | ok clones =>
      obtain ⟨r, m₂, _, _, hdeleted, hrest, rfl⟩ := Prog.ends_bind.mp hrest
      cases r with
      | error err =>
          obtain ⟨-, hr, -⟩ := Prog.ends_ret.mp hrest
          cases hr
      | ok =>
          obtain ⟨r, m₃, _, _, hlist, hrest, rfl⟩ := Prog.ends_bind.mp hrest
          cases r with
          | error err =>
              obtain ⟨-, hr, -⟩ := Prog.ends_ret.mp hrest
              cases hr
          | ok snaps =>
              obtain ⟨rfl, hlisted⟩ := p.runs_listSnapshots hlist
              obtain ⟨hthere, rfl⟩ := hlisted snaps rfl
              have hless := p.runs_resetSnapshots (valid_of_filesystem hthere)
                (fun s hs => unmarked_parsed m₃.wf hs) hrest
              rw [length_parsed m₃.wf] at hless
              exact List.eq_nil_of_length_eq_zero (by omega)

/-! ## Main result -/

/-- After a reset that returns nil there is no snapshot of the dataset, and no clone of one that
there was. -/
theorem reset_empties (h : Runs p.resetDataset m tr (.ok ()) m') :
    m'.store.own p.dataset = [] ∧ ∀ s ∈ m.store.own p.dataset, m'.store.clones s = [] := by
  have hnone := p.runs_resetDataset h
  refine ⟨hnone, fun s hs => clones_eq_nil.mpr fun f hf horigin => ?_⟩
  have hbefore := Prog.Ends.preserved
    (J := fun m' => ∀ s ∈ m'.store.snapshots, s ∈ m.store.snapshots)
    (fun _ _ _ _ hc hJ hexec s hs => hJ s (exec_removes hc hexec hs)) h p.resetDataset_removes
    (fun _ h => h)
  obtain ⟨hmem, hdataset⟩ := mem_own.mp hs
  -- The clone has its origin, which was there before and so is `s`.
  obtain ⟨t, ht, hguid⟩ := m'.wf.origins f hf s.guid horigin
  obtain rfl := m.wf.eq_of_guid (hbefore t ht) hmem hguid
  have hleft : t ∈ m'.store.own p.dataset := mem_own.mpr ⟨ht, hdataset⟩
  rw [hnone] at hleft
  cases hleft

theorem reset_empties_demo : ∃ m' : Machine, m'.store.own "tank/mysql" = [] ∧
    ∀ s ∈ demoBranch.store.own "tank/mysql", m'.store.clones s = [] := by
  obtain ⟨tr, hrun⟩ := serve_runs quiet demoProvider.resetDataset demoBranch
    (show _ = Except.ok () by decide +kernel)
  exact ⟨_, demoProvider.reset_empties hrun⟩

end BranchDB.AgentProvider
