/-
# `BranchDB.ZfsAgent.Current` — what takes a snapshot away

    DeleteSnapshot, ResetDataset, TakeSnapshot with an overwrite    what they name
    GCSnapshots                                                     what has the name of an archive
    CreateClone, DeleteClone                                        what a clone has, at most

A snapshot that is none of a clone, under a name that is not that of an archive, is left by
everything but the first three, for whichever dataset they are called (`Requested.stays`).  Nor
does a collection see the name of an archive in one that has blanks in it.
-/
import BranchDB.Zfs.Newest
import BranchDB.ZfsAgent.Backend

namespace BranchDB.ZfsAgent

open AgentProvider Concur Net Strings Zfs

/-- Calls that leave a snapshot. -/
def Passes (s : Snapshot) : OsCall → Prop
  | .zfs (.destroy _ object) => ∀ st : Store, s ∉ st.selected object
  | .zfs (.rename name _) => name ≠ s.name
  | .zfs _ | .hostname | .readThreads | .writeThreads _ | .now | .visit _ => True

/-- The methods that take snapshots away by their name. -/
def AgentCall.removes : AgentCall → Bool
  | .deleteSnapshot _ | .resetDataset => true
  | .takeSnapshot _ overwrite => overwrite
  | .listSnapshots | .gcSnapshots _ | .createClone .. | .deleteClone _ | .listClones
  | .getClone _ => false

/-- The calls of the client that do. -/
def removes : VolumeCall → Bool
  | .deleteSnapshot .. | .resetDataset _ => true
  | .takeSnapshot _ _ overwrite => overwrite
  | .listSnapshots _ | .gcSnapshots .. | .createClone .. | .deleteClone .. | .listClones _ => false

theorem AgentCall.Serves.removes {a : AgentCall} {c : VolumeCall} (h : a.Serves c) :
    a.removes = ZfsAgent.removes c := by
  cases c with
  | takeSnapshot dbType name overwrite =>
      cases a with
      | takeSnapshot name' overwrite' => exact h.2
      | _ => exact h.elim
  | _ => cases a <;> first | rfl | exact h.elim

/-- A snapshot of the dataset itself, under a name that is not that of an archive. -/
structure Current (d : String) (s : Snapshot) : Prop where
  own : String.ofList (cutAt s.name.toList).1 = d
  label : IsWord s.label → archivePrefix s.label = none

/-- A dataset that is not among the clones of another. -/
def Aside (d d' : String) : Prop := ∀ name, Zfs.below (d' ++ "/branches") (d ++ "@" ++ name) = false

/-- Datasets neither of which begins like the other's clones do. -/
theorem aside_of {d d' : String} (h : ∀ a ∈ ["/branches/", "/branches@"],
    ¬ d'.toList ++ a.toList <+: d.toList ++ ['@'] ∧ ¬ d.toList ++ ['@'] <+: d'.toList ++ a.toList) :
    Aside d d' := by
  intro name
  have hname : d.toList ++ ['@'] <+: (d ++ "@" ++ name).toList := ⟨name.toList, by simp⟩
  have hapart : ∀ a ∈ ["/branches/", "/branches@"],
      ¬ d'.toList ++ a.toList <+: (d ++ "@" ++ name).toList := by
    intro a ha hprefix
    rcases List.prefix_or_prefix_of_prefix hprefix hname with hle | hle
    · exact (h a ha).1 hle
    · exact (h a ha).2 hle
  refine Bool.eq_false_iff.mpr fun hbelow => ?_
  rw [below_iff, String.toList_append, List.append_assoc, List.append_assoc] at hbelow
  rcases hbelow with hbelow | hbelow
  · exact hapart "/branches/" (by simp) hbelow
  · exact hapart "/branches@" (by simp) hbelow

variable {d : String} {s : Snapshot} {m m' : Machine} {p : AgentProvider}

theorem Passes.exec {c : OsCall} {r : c.Reply} (hc : Passes s c) (h : Machine.exec c m r m')
    (hs : s ∈ m.store.snapshots) : s ∈ m'.store.snapshots := by
  cases c with
  | zfs c =>
      obtain ⟨⟨clock, hserved⟩, -⟩ := h
      rcases hserved.snapshot_kept hs with
        hkept | ⟨target, rfl, -⟩ | ⟨force, object, rfl, hsel, -⟩
      · exact hkept
      · exact absurd rfl hc
      · exact absurd hsel (hc m.store)
  | hostname | now => exact h ▸ hs
  | readThreads | visit | writeThreads => exact h.2 ▸ hs

/-- What is behind the first `@` is the label. -/
theorem name_eq (hat : '@' ∈ s.name.toList) :
    s.name = String.ofList (cutAt s.name.toList).1 ++ "@" ++ s.label := by
  refine String.toList_inj.mp ?_
  simp only [String.toList_append, String.toList_ofList, Snapshot.label]
  exact (cutAt_eq hat).trans (by simp)

theorem label_of_name {name : String} (hp : '@' ∉ p.dataset.toList)
    (h : s.name = p.snapshotPath name) : s.label = name := by
  have hchars : s.name.toList = p.dataset.toList ++ '@' :: name.toList := by
    simp [h, snapshotPath]
  rw [Snapshot.label, hchars, cutAt_append hp, String.ofList_toList]

/-- A clone that is destroyed takes no snapshot along that is not its own. -/
theorem passes_clone (hp : '@' ∉ p.dataset.toList) (haside : Aside d p.dataset)
    (hs : Current d s) (hat : '@' ∈ s.name.toList) (force : Bool) (cloneName : String) :
    Passes s (.zfs (.destroy force (p.clonePath cloneName))) := by
  intro st hsel
  have hbranches : '@' ∉ (p.dataset ++ "/branches").toList := by
    rw [String.toList_append, List.mem_append]
    exact fun h => h.elim hp (by decide)
  have hbelow : Zfs.below (p.dataset ++ "/branches") (p.clonePath cloneName) = true := by
    rw [below_iff]
    left
    exact ⟨cloneName.toList, by simp [clonePath]⟩
  have hinside := below_of_selected hbranches hbelow hsel
  rw [name_eq hat, hs.own, haside s.label] at hinside
  cases hinside

/-- What is read of a line as the name of an archive is a word. -/
theorem isWord_of_entry {st : Store} {dataset : String} (h : st.WF) {e : SnapshotInfo}
    (he : e ∈ parseSnapshotList (Zfs.answer st (.listSnapshots dataset)) dataset)
    (hname : archivePrefix e.name ≠ none) : IsWord e.name := by
  rw [parseSnapshotList_answer h] at he
  obtain ⟨s, -, hparsed⟩ := List.mem_filterMap.mp he
  refine ⟨fun hempty => hname (hempty ▸ by decide), ?_⟩
  intro c hc
  unfold parseSnapshotLine at hparsed
  split at hparsed
  · next fullName x rest hfields =>
    obtain rfl := Option.some.inj hparsed
    have hword : IsWord fullName := isWord_of_mem_fields (hfields ▸ List.mem_cons_self)
    exact hword.2 c (mem_trimPrefix hc)
  · cases hparsed

/-- A collection takes archives only. -/
theorem passes_collected (hp : '@' ∉ p.dataset.toList) (hs : Current d s) {name : String}
    (hplain : PlainObject (p.snapshotPath name)) (hword : IsWord name)
    (hname : archivePrefix name ≠ none) :
    Passes s (.zfs (.destroy false (p.snapshotPath name))) := by
  intro st hsel
  have hlabel := label_of_name hp ((mem_selected_of_plain hplain).mp hsel).2
  subst hlabel
  exact hname (hs.label hword)

variable {tr : List (Event OsCall OsCall.Reply Machine)}

theorem stays_gc (hp : '@' ∉ p.dataset.toList) (hs : Current d s) (hmem : s ∈ m.store.snapshots)
    {keepCount : Int} {r : Except GoError (List String)}
    (h : Machine.Runs (p.gcSnapshots keepCount) m tr r m') : s ∈ m'.store.snapshots := by
  rw [AgentProvider.gcSnapshots_eq] at h
  obtain ⟨listed, m₁, first, rest, hlist, hrest, rfl⟩ := Prog.ends_bind.mp h
  obtain ⟨rfl, hlisted⟩ := p.runs_listSnapshots hlist
  have honly : (p.afterListing keepCount listed).Only (Passes s) := by
    cases listed with
    | error err => exact .ret
    | ok snaps =>
        obtain ⟨hthere, rfl⟩ := hlisted snaps rfl
        refine p.afterListing_only (fun _ => trivial) (fun _ _ _ => trivial) ?_
        intro key e he
        obtain ⟨hentry, hkey⟩ := mem_of_surplus he
        have hplain := p.plain_snapshotPath (valid_of_filesystem hthere)
          (unmarked_parsed m₁.wf hentry)
        have hname : archivePrefix e.name ≠ none := hkey ▸ Option.some_ne_none key
        exact passes_collected hp hs hplain (isWord_of_entry m₁.wf hentry hname) hname
  exact Prog.Ends.preserved (J := fun m' => s ∈ m'.store.snapshots)
    (fun _ _ _ _ hc hJ hexec => hc.exec hexec hJ) hrest honly hmem

/-- What a method that is not for removing snapshots leaves. -/
theorem stays (hp : '@' ∉ p.dataset.toList) (haside : Aside d p.dataset) (hs : Current d s)
    (hmem : s ∈ m.store.snapshots) {c : AgentCall} (hc : c.removes = false) {reply : c.Reply}
    (h : Machine.Runs (volumeProvider p c) m tr reply m') : s ∈ m'.store.snapshots := by
  have hclone : ∀ force name, Passes s (.zfs (.destroy force (p.clonePath name))) :=
    passes_clone hp haside hs (m.wf.valid s hmem).1
  have hrun : (volumeProvider p c).Only (Passes s) → s ∈ m'.store.snapshots := fun honly =>
    Prog.Ends.preserved (J := fun m' => s ∈ m'.store.snapshots)
      (fun _ _ _ _ hc hJ hexec => hc.exec hexec hJ) h honly hmem
  cases c with
  | takeSnapshot name overwrite =>
      obtain rfl : overwrite = false := hc
      exact hrun (run_only trivial)
  | gcSnapshots keepCount => exact stays_gc hp hs hmem h
  | createClone snapshot cloneName =>
      refine hrun (.bind (.perform trivial) fun out => ?_)
      exact p.afterClone_only trivial trivial trivial fun _ => hclone _ _
  | deleteClone cloneName =>
      exact hrun (p.deleteClone_only trivial trivial (fun _ => trivial) (hclone _ _) trivial)
  | listSnapshots => exact hrun (p.listSnapshots_only trivial)
  | listClones => exact hrun (p.listClones_only trivial trivial)
  | getClone cloneName => exact hrun (getClone_only p trivial trivial)
  | deleteSnapshot | resetDataset => cases hc

/-- A call of a client that is not for removing snapshots, however it ends, leaves those that are
no archives and of no clone. -/
theorem Requested.stays {B : Backend} {c : VolumeCall} {r : c.Reply}
    (hkeys : ∀ key ∈ B.keys, '@' ∉ (B.ds key).dataset.toList ∧ Aside d (B.ds key).dataset)
    (h : Requested B c m r m') (hc : removes c = false) (hs : Current d s)
    (hmem : s ∈ m.store.snapshots) : s ∈ m'.store.snapshots := by
  refine h.preserved (J := fun m => s ∈ m.store.snapshots) hmem ?_
  intro key a reply m₁ m₂ hkey hserves hmem₁ ⟨tr, hrun⟩
  obtain ⟨hp, haside⟩ := hkeys key hkey
  exact ZfsAgent.stays hp haside hs hmem₁ (hserves.removes.trans hc) hrun

end BranchDB.ZfsAgent
