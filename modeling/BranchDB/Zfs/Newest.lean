/-
# `BranchDB.Zfs.Newest` — whether a collection keeps the newest archives

The listing tells the time of a creation to the minute, so of archives made in one minute it
does not tell which is the newest; the first of the listing is kept.  A collection that keeps
`keepCount` of a prefix leaves the newest ones, whatever the order of the listing, exactly where
of each that has no clones the listing shows at most `keepCount` archives that are not older
(`keepsNewest_iff`).  Two archives of a minute are enough for the newest to be destroyed
(`newest_lost`).
-/
import BranchDB.Zfs.Archives
import BranchDB.Zfs.Listing
import BranchDB.Zfs.Survival

namespace Zfs

/-- What follows the `@`. -/
def Snapshot.label (s : Snapshot) : String := String.ofList (cutAt s.name.toList).2

variable {st : Store} {dataset : String} {s : Snapshot}

/-- The snapshots in another order. -/
theorem Store.WF.perm (h : st.WF) {snapshots : List Snapshot}
    (hperm : snapshots.Perm st.snapshots) :
    ({ st with snapshots := snapshots } : Store).WF where
  names := (hperm.map _).nodup_iff.mpr h.names
  guids := (hperm.map _).nodup_iff.mpr h.guids
  fresh s hs := h.fresh s (hperm.mem_iff.mp hs)
  valid s hs := h.valid s (hperm.mem_iff.mp hs)
  filesystems := h.filesystems
  origins f hf g hg := by
    obtain ⟨s, hs, hguid⟩ := h.origins f hf g hg
    exact ⟨s, hperm.mem_iff.mpr hs, hguid⟩
  validFilesystems := h.validFilesystems

end Zfs

namespace BranchDB.AgentProvider

open Concur Ranked Strings Zfs Machine

variable (p : AgentProvider) {m m₁ m' : Machine} {s : Snapshot} {keep : Nat}

/-! ## The newest archives -/

/-- How many archives of its prefix were created after it. -/
def newer (m : Machine) (s : Snapshot) : Nat :=
  (m.store.own p.dataset).countP fun t =>
    archivePrefix t.label = archivePrefix s.label ∧ s.creation < t.creation

/-- It is an archive, one of the so many that were created last. -/
def Newest (m : Machine) (keep : Nat) (s : Snapshot) : Prop :=
  s ∈ m.store.own p.dataset ∧ archivePrefix s.label ≠ none ∧ p.newer m s < keep

/-- The same pool, listed in another order. -/
def Shuffled (m m₁ : Machine) : Prop :=
  m₁.store.snapshots.Perm m.store.snapshots ∧ m₁.store.filesystems = m.store.filesystems

/-- In whatever order it is listed, none of the newest archives is destroyed. -/
def KeepsNewest (m : Machine) (keepCount : Int) : Prop :=
  ∀ m₁ tr r m', Shuffled m m₁ → Runs (p.gcSnapshots keepCount) m₁ tr r m' →
    ∀ s, p.Newest m keepCount.toNat s → s ∈ m'.store.snapshots

/-- What is read of the listing. -/
def entries (st : Store) : List SnapshotInfo :=
  parseSnapshotList (answer st (.listSnapshots p.dataset)) p.dataset

/-- Of the newest archives without clones, none is listed with more than `keep` that do not look
older. -/
def Apart (m : Machine) (keep : Nat) : Prop :=
  ∀ s, p.Newest m keep s → m.store.clones s = [] →
    ∀ e ∈ p.entries m.store, p.snapshotPath e.name = s.name →
      ∀ key, archivePrefix e.name = some key →
        rank recent (archivesOf key (p.entries m.store)) e ≤ keep

variable {p}

theorem perm_entries (h : Shuffled m m₁) :
    (p.entries m₁.store).Perm (p.entries m.store) := by
  rw [entries, entries, parseSnapshotList_answer m₁.wf, parseSnapshotList_answer m.wf]
  exact (h.1.filter _).filterMap _

theorem perm_archivesOf {key : String} {snaps snaps' : List SnapshotInfo} (h : snaps'.Perm snaps) :
    (archivesOf key snaps').Perm (archivesOf key snaps) := h.filter _

/-! ## What a collection leaves -/

/-- Of the snapshots, calls that destroy only others, or one that has clones. -/
def Leaves (m : Machine) (s : Snapshot) : OsCall → Prop
  | .zfs (.destroy _ object) =>
    PlainObject object ∧ (object = s.name → m.store.clones s ≠ [])
  | .zfs (.getClones _) | .zfs (.listSnapshots _) | .visit _ => True
  | .zfs _ | .hostname | .readThreads | .writeThreads _ | .now => False

theorem leaves_exec {c : OsCall} {r : c.Reply} (hc : Leaves m s c)
    (h : s ∈ m₁.store.snapshots ∧ m₁.store.filesystems = m.store.filesystems)
    (hexec : Machine.exec c m₁ r m') :
    s ∈ m'.store.snapshots ∧ m'.store.filesystems = m.store.filesystems := by
  cases c with
  | zfs c =>
      obtain ⟨⟨clock, hserved⟩, -⟩ := hexec
      have hsnapshots : c.OnSnapshots := by
        cases c with
        | destroy => exact hc.1.1
        | getClones | listSnapshots => trivial
        | snapshot | rename | clone | share | shareAll | unshare | getSharenfs | listTree | list =>
          exact hc.elim
      refine ⟨?_, (hserved.filesystems hsnapshots).trans h.2⟩
      rcases hserved.snapshot_kept h.1 with
        hkept | ⟨target, rfl, -⟩ | ⟨force, object, rfl, hsel, hnone⟩
      · exact hkept
      · exact hc.elim
      · obtain ⟨hplain, hclones⟩ := hc
        have hname : s.name = object := ((mem_selected_of_plain hplain).mp hsel).2
        have hsame : m₁.store.clones s = m.store.clones s := by
          rw [Store.clones, h.2]
          rfl
        exact absurd (hsame ▸ hnone) (hclones hname.symm)
  | visit => exact hexec.2 ▸ h
  | hostname | readThreads | writeThreads | now => exact hc.elim

/-- Where the listing shows enough of them to be older, the newest archives stay. -/
theorem keepsNewest_of_apart {keepCount : Int} (h : p.Apart m keepCount.toNat) :
    p.KeepsNewest m keepCount := by
  intro m₁ tr r m' hshuffled hrun s hs
  rw [gcSnapshots_eq] at hrun
  obtain ⟨listed, m₂, first, rest, hlist, hrest, rfl⟩ := Prog.ends_bind.mp hrun
  obtain ⟨rfl, hlisted⟩ := p.runs_listSnapshots hlist
  have hstart : s ∈ m₂.store.snapshots ∧ m₂.store.filesystems = m.store.filesystems :=
    ⟨hshuffled.1.mem_iff.mpr (mem_own.mp hs.1).1, hshuffled.2⟩
  have honly : (p.afterListing keepCount listed).Only (Leaves m s) := by
    cases listed with
    | error err => exact .ret
    | ok snaps =>
        obtain ⟨hthere, rfl⟩ := hlisted snaps rfl
        have hdataset := valid_of_filesystem hthere
        refine p.afterListing_only (fun _ => trivial) (fun _ _ _ => trivial)
          fun key e he => ?_
        obtain ⟨hmem, hkey⟩ := mem_of_surplus he
        refine ⟨p.plain_snapshotPath hdataset (unmarked_parsed m₂.wf hmem), ?_⟩
        intro hname hnone
        have hperm := perm_entries (p := p) hshuffled
        have hrank := h s hs hnone e (hperm.mem_iff.mp hmem) hname key hkey
        rw [← rank_perm (perm_archivesOf hperm) e] at hrank
        exact absurd (lt_rank_of_surplus he) (not_lt.mpr hrank)
  exact (Prog.Ends.preserved
    (J := fun m' => s ∈ m'.store.snapshots ∧ m'.store.filesystems = m.store.filesystems)
    (fun _ _ _ _ hc hJ hexec => leaves_exec hc hJ hexec) hrest honly hstart).1

/-! ## A collection in which nothing goes wrong -/

/-- On a quiet host. -/
def Quietly (c : OsCall) (m : Machine) (r : c.Reply) (m' : Machine) : Prop :=
  serve quiet c m = (r, m')

theorem Quietly.exec {c : OsCall} {r : c.Reply} (h : Quietly c m r m') : Machine.exec c m r m' := by
  have hexec := exec_serve quiet c m
  rw [h] at hexec
  exact hexec

theorem Quietly.zfs {c : Command} {out : Output} (h : Quietly (.zfs c) m out m') :
    Zfs.serve 0 c m.store = (out, m'.store) := by
  obtain ⟨rfl, rfl⟩ := Prod.mk.inj h
  rfl

/-- Nothing of that name has clones. -/
def Loose (name : String) (m : Machine) : Prop :=
  ∀ t ∈ m.store.snapshots, t.name = name → m.store.clones t = []

/-- The calls of a collection. -/
def Sweeps : OsCall → Prop
  | .zfs (.destroy _ object) => PlainObject object
  | .zfs (.getClones _) | .zfs (.listSnapshots _) | .visit _ => True
  | .zfs _ | .hostname | .readThreads | .writeThreads _ | .now => False

theorem sweeps_exec {c : OsCall} {r : c.Reply} (hc : Sweeps c) (hexec : Machine.exec c m r m') :
    m'.store.snapshots ⊆ m.store.snapshots ∧ m'.store.filesystems = m.store.filesystems := by
  cases c with
  | zfs c =>
      obtain ⟨⟨clock, hserved⟩, -⟩ := hexec
      have hsnapshots : c.OnSnapshots := by
        cases c with
        | destroy => exact hc.1
        | getClones | listSnapshots => trivial
        | snapshot | rename | clone | share | shareAll | unshare | getSharenfs | listTree | list =>
          exact hc.elim
      refine ⟨?_, hserved.filesystems hsnapshots⟩
      intro t ht
      rcases hserved.snapshot_before ht with ht | ⟨u, -, target, rfl, -⟩ | ⟨fresh, rfl, -⟩
      · exact ht
      · exact hc.elim
      · exact hc.elim
  | visit => exact hexec.2 ▸ ⟨List.Subset.refl _, rfl⟩
  | hostname | readThreads | writeThreads | now => exact hc.elim

/-- What a collection does not bring back, and what it gives no clones. -/
theorem swept {α : Type} {q : Os α} {tr : List (Event OsCall OsCall.Reply Machine)} {a : α}
    (hq : q.Only Sweeps) (h : q.Ends Quietly m tr a m') :
    m'.store.snapshots ⊆ m.store.snapshots ∧ m'.store.filesystems = m.store.filesystems := by
  refine Prog.Ends.preserved (P := Sweeps) (J := fun m' =>
    m'.store.snapshots ⊆ m.store.snapshots ∧ m'.store.filesystems = m.store.filesystems)
    (fun c m₁ r m₂ hc hJ hexec => ?_) h hq ⟨List.Subset.refl _, rfl⟩
  obtain ⟨hsnapshots, hfilesystems⟩ := sweeps_exec hc hexec.exec
  exact ⟨fun t ht => hJ.1 (hsnapshots ht), hfilesystems.trans hJ.2⟩

theorem Loose.swept {α : Type} {q : Os α} {tr : List (Event OsCall OsCall.Reply Machine)} {a : α}
    {name : String} (hloose : Loose name m) (hq : q.Only Sweeps) (h : q.Ends Quietly m tr a m') :
    Loose name m' := by
  obtain ⟨hsnapshots, hfilesystems⟩ := AgentProvider.swept hq h
  intro t ht hname
  rw [Store.clones, hfilesystems]
  exact hloose t (hsnapshots ht) hname

/-- The probe does not tell of any clones. -/
theorem probe_loose {name : String} {out : Output} (hloose : Loose name m)
    (h : Quietly (.zfs (.getClones name)) m out m') : ¬ Shown out := by
  rintro ⟨hempty, hdash⟩
  have hserved := h.zfs
  unfold Zfs.serve at hserved
  split at hserved
  · obtain ⟨rfl, -⟩ := Prod.mk.inj hserved
    cases hsnapshot : m.store.snapshot name with
    | none =>
        refine hdash ?_
        rw [Output.ok, answer, hsnapshot]
        exact show trimSpace "-\n" = "-" by decide
    | some t =>
        obtain ⟨hmem, hname⟩ := mem_of_snapshot hsnapshot
        refine hempty ?_
        rw [Output.ok, answer, hsnapshot, Option.map_some, hloose t hmem hname]
        exact show trimSpace "\n" = "" by decide
  · obtain ⟨rfl, -⟩ := Prod.mk.inj hserved
    exact hempty (show trimSpace "" = "" by decide)

/-- What has no clones is destroyed. -/
theorem destroy_loose {name : String} {force : Bool} {out : Output} (hplain : PlainObject name)
    (hloose : Loose name m) (h : Quietly (.zfs (.destroy force name)) m out m') :
    ∀ t ∈ m'.store.snapshots, t.name ≠ name := by
  have hserved := h.zfs
  unfold Zfs.serve at hserved
  intro t ht hname
  split at hserved
  · obtain ⟨-, hstore⟩ := Prod.mk.inj hserved
    rw [← hstore, effect, if_pos hplain.1] at ht
    obtain ⟨hmem, hnot⟩ := List.mem_filter.mp ht
    exact of_decide_eq_true hnot ((mem_selected_of_plain hplain).mpr ⟨hmem, hname⟩)
  · next why hrefused =>
    obtain ⟨-, hstore⟩ := Prod.mk.inj hserved
    rw [← hstore] at ht
    have hselected : t ∈ m.store.selected name := (mem_selected_of_plain hplain).mpr ⟨ht, hname⟩
    rw [refusal, if_pos hplain.1, refuseSnapshots,
      if_neg (List.ne_nil_of_mem hselected)] at hrefused
    obtain ⟨u, hu, -⟩ := Option.map_eq_some_iff.mp hrefused
    obtain ⟨hmem, huname⟩ := (mem_selected_of_plain hplain).mp (List.mem_of_find?_eq_some hu)
    have hclones := List.find?_some hu
    simp [hloose u hmem huname] at hclones

/-- A loop over archives destroys each that has no clones. -/
theorem collect_loose {name : String} {l : List SnapshotInfo} {deleted : List String}
    {tr : List (Event OsCall OsCall.Reply Machine)}
    (hplain : ∀ e ∈ l, PlainObject (p.snapshotPath e.name)) (hloose : Loose name m)
    (h : (p.collect l).Ends Quietly m tr deleted m')
    (hmem : ∃ e ∈ l, p.snapshotPath e.name = name) :
    ∀ t ∈ m'.store.snapshots, t.name ≠ name := by
  induction l generalizing m tr deleted with
  | nil =>
      obtain ⟨e, he, -⟩ := hmem
      cases he
  | cons s rest ih =>
      have hrest : ∀ e ∈ rest, PlainObject (p.snapshotPath e.name) :=
        fun e he => hplain e (List.mem_cons_of_mem s he)
      have hcollect : (p.collect rest).Only Sweeps := p.collect_only (fun _ _ => trivial) hrest
      have hdelete : (p.deleteSnapshot s.name).Only Sweeps :=
        p.deleteSnapshot_only (hplain s List.mem_cons_self)
      have hprobe : (zfs (.getClones (p.snapshotPath s.name))).Only Sweeps := .perform trivial
      obtain ⟨out, m₁, tr₁, hanswer, rfl, hmore⟩ := p.collect_ends h
      have hloose₁ := hloose.swept hprobe (Prog.ends_perform.mpr ⟨hanswer, rfl⟩)
      by_cases hname : p.snapshotPath s.name = name
      · -- its turn has come, and nothing of it comes back
        rw [hname] at hanswer
        obtain ⟨-, r, m₂, tr₂, tr₃, more, hdestroy, hmore, -⟩ :=
          hmore.resolve_left fun h => probe_loose hloose hanswer h.1
        obtain ⟨out₂, hdestroy, -⟩ := p.deleteSnapshot_ends.mp hdestroy
        rw [hname] at hdestroy
        have hgone := destroy_loose (hname ▸ hplain s List.mem_cons_self) hloose₁ hdestroy
        exact fun t ht => hgone t ((swept hcollect hmore).1 ht)
      · have hlater : ∃ e ∈ rest, p.snapshotPath e.name = name := by
          obtain ⟨e, he, hpath⟩ := hmem
          rcases List.mem_cons.mp he with rfl | he
          · exact absurd hpath hname
          · exact ⟨e, he, hpath⟩
        rcases hmore with ⟨-, hmore⟩ | ⟨-, r, m₂, tr₂, tr₃, more, hdestroy, hmore, -⟩
        · exact ih hrest hloose₁ hmore hlater
        · exact ih hrest (hloose₁.swept hdelete hdestroy) hmore hlater

theorem collectGroups_loose {name : String} {snaps : List SnapshotInfo} {keys deleted : List String}
    {tr : List (Event OsCall OsCall.Reply Machine)}
    (hplain : ∀ e ∈ snaps, PlainObject (p.snapshotPath e.name)) (hloose : Loose name m)
    (h : (p.collectGroups keep (archiveGroups snaps) keys).Ends Quietly m tr deleted m')
    (hmem : ∃ key ∈ keys, ∃ e ∈ surplus keep key snaps, p.snapshotPath e.name = name) :
    ∀ t ∈ m'.store.snapshots, t.name ≠ name := by
  induction keys generalizing m tr deleted with
  | nil =>
      obtain ⟨key, hkey, -⟩ := hmem
      cases hkey
  | cons key keys ih =>
      have hbehind : ∀ key, ∀ e ∈ surplus keep key snaps, PlainObject (p.snapshotPath e.name) :=
        fun key e he => hplain e (mem_of_surplus he).1
      have hfirst : (p.collect (surplus keep key snaps)).Only Sweeps :=
        p.collect_only (fun _ _ => trivial) (hbehind key)
      have hrest : (p.collectGroups keep (archiveGroups snaps) keys).Only Sweeps :=
        p.collectGroups_only (fun _ _ _ => trivial) hbehind keys
      obtain ⟨m₁, tr₁, tr₂, first, more, hcollect, hgroups, -⟩ := p.collectGroups_ends h
      obtain ⟨k, hk, e, he, hpath⟩ := hmem
      rcases List.mem_cons.mp hk with rfl | hk
      · have hgone := collect_loose (hbehind k) hloose hcollect ⟨e, he, hpath⟩
        exact fun t ht => hgone t ((swept hrest hgroups).1 ht)
      · exact ih (hloose.swept hfirst hcollect) hgroups ⟨k, hk, e, he, hpath⟩

theorem listSnapshots_quiet {tr : List (Event OsCall OsCall.Reply Machine)}
    {r : Except GoError (List SnapshotInfo)} (hthere : m.store.filesystem p.dataset ≠ none)
    (h : p.listSnapshots.Ends Quietly m tr r m') : m' = m ∧ r = .ok (p.entries m.store) := by
  obtain ⟨out, m₁, rest, hlist, hret, rfl⟩ := ends_zfs_bind.mp h
  have hserved := hlist.zfs
  rw [Zfs.serve, refusal, if_neg hthere] at hserved
  obtain ⟨rfl, -⟩ := Prod.mk.inj hserved
  obtain ⟨-, rfl, rfl⟩ := Prog.ends_ret.mp hret
  exact ⟨(p.runs_listSnapshots (h.mono fun _ _ _ _ h => h.exec)).1, rfl⟩

/-- Whatever is behind and has no clones is destroyed. -/
theorem exists_collection {keepCount : Int} {name key : String} {e : SnapshotInfo}
    (hkeep : 0 ≤ keepCount) (hthere : m.store.filesystem p.dataset ≠ none) (hloose : Loose name m)
    (he : e ∈ surplus keepCount.toNat key (p.entries m.store))
    (hpath : p.snapshotPath e.name = name) :
    ∃ tr r m', Runs (p.gcSnapshots keepCount) m tr r m' ∧
      ∀ t ∈ m'.store.snapshots, t.name ≠ name := by
  have hserve : ∀ c m, Quietly c m (serve quiet c m).1 (serve quiet c m).2 := fun _ _ => rfl
  obtain ⟨tr, hrun⟩ := Prog.ends_run hserve (p.gcSnapshots keepCount) m
  refine ⟨tr, _, _, hrun.mono fun _ _ _ _ h => h.exec, ?_⟩
  rw [gcSnapshots_eq] at hrun
  obtain ⟨listed, m₁, tr₁, rest, hlist, hrest, -⟩ := Prog.ends_bind.mp hrun
  obtain ⟨rfl, rfl⟩ := listSnapshots_quiet hthere hlist
  have hplain : ∀ e ∈ p.entries m₁.store, PlainObject (p.snapshotPath e.name) := fun e he =>
    p.plain_snapshotPath (valid_of_filesystem hthere) (unmarked_parsed m₁.wf he)
  obtain ⟨order, m₂, tr₂, deleted, hvisit, hgroups, -⟩ := p.afterListing_ends hkeep hrest
  obtain ⟨rfl, rfl⟩ := Prod.mk.inj hvisit
  exact collectGroups_loose hplain hloose hgroups
    ⟨key, mem_keys.mpr ⟨e, mem_of_surplus he⟩, e, he, hpath⟩

/-! ## An order in which one of the newest is behind -/

variable (p) in
/-- The archive of a prefix that the line of a snapshot is read as. -/
def archiveAs (key : String) (x : Snapshot) : Option SnapshotInfo :=
  (if decide (String.ofList (cutAt x.name.toList).1 = p.dataset) then
    parseSnapshotLine p.dataset (lineOf x) else none).filter
      fun e => archivePrefix e.name = some key

theorem archivesOf_entries {st : Store} (h : st.WF) (key : String) :
    archivesOf key (p.entries st) = st.snapshots.filterMap (p.archiveAs key) := by
  rw [entries, parseSnapshotList_answer h, archivesOf, Store.own, List.filterMap_filter,
    List.filter_filterMap]
  rfl

variable (p) in
/-- When the line of a snapshot says it was created. -/
def readAt (x : Snapshot) : Int := ((parseSnapshotLine p.dataset (lineOf x)).map recent).getD 0

theorem readAt_eq {key : String} (x : Snapshot) (e : SnapshotInfo)
    (h : p.archiveAs key x = some e) : recent e = p.readAt x := by
  obtain ⟨hread, -⟩ := Option.filter_eq_some_iff.mp h
  split at hread
  · rw [readAt, hread]
    rfl
  · cases hread

theorem exists_surplus {key : String} {e : SnapshotInfo} (he : e ∈ p.entries m.store)
    (hkey : archivePrefix e.name = some key)
    (hrank : keep < rank recent (archivesOf key (p.entries m.store)) e) :
    ∃ m₁, Shuffled m m₁ ∧ e ∈ surplus keep key (p.entries m₁.store) := by
  have harchive : e ∈ archivesOf key (p.entries m.store) := mem_archivesOf.mpr ⟨he, hkey⟩
  rw [archivesOf_entries m.wf] at harchive
  obtain ⟨x, hx, hread⟩ := List.mem_filterMap.mp harchive
  obtain ⟨snapshots, hperm, hdesc, hlast⟩ := exists_descending p.readAt hx
  obtain ⟨m₁, hm₁⟩ : ∃ m₁ : Machine, m₁ = { m with
      store := { m.store with snapshots := snapshots }, wf := m.wf.perm hperm } := ⟨_, rfl⟩
  have hshuffled : Shuffled m m₁ := hm₁ ▸ ⟨hperm, rfl⟩
  have harchives : archivesOf key (p.entries m₁.store) = snapshots.filterMap (p.archiveAs key) := by
    rw [archivesOf_entries m₁.wf, hm₁]
  refine ⟨m₁, hshuffled, ?_⟩
  rw [← rank_perm (perm_archivesOf (perm_entries hshuffled)), harchives] at hrank
  rw [surplus, harchives, sort_of_descending (hdesc.filterMap readAt_eq)]
  exact (hlast.filterMap readAt_eq hread).mem_drop hrank

/-! ## Main result -/

theorem apart_of_keepsNewest {keepCount : Int} (hkeep : 1 ≤ keepCount)
    (hthere : m.store.filesystem p.dataset ≠ none) (h : p.KeepsNewest m keepCount) :
    p.Apart m keepCount.toNat := by
  intro s hs hclones e he hpath key hkey
  by_contra hrank
  obtain ⟨m₁, hshuffled, hsurplus⟩ := exists_surplus he hkey (not_le.mp hrank)
  have hmem : s ∈ m₁.store.snapshots := hshuffled.1.mem_iff.mpr (mem_own.mp hs.1).1
  have hthere₁ : m₁.store.filesystem p.dataset ≠ none := by
    rw [Store.filesystem, hshuffled.2]
    exact hthere
  have hloose : Loose s.name m₁ := by
    intro t ht hname
    obtain rfl := m₁.wf.eq_of_name ht hmem hname
    rw [Store.clones, hshuffled.2]
    exact hclones
  obtain ⟨tr, r, m', hrun, hgone⟩ :=
    exists_collection (by omega) hthere₁ hloose hsurplus hpath
  exact hgone s (h m₁ tr r m' hshuffled hrun s hs) rfl

variable (p) in
/-- A collection never destroys one of the newest archives, in whatever order they are listed,
exactly where the listing tells each of them from all but as many as are kept. -/
theorem keepsNewest_iff {keepCount : Int} (hkeep : 1 ≤ keepCount)
    (hthere : m.store.filesystem p.dataset ≠ none) :
    p.KeepsNewest m keepCount ↔ p.Apart m keepCount.toNat :=
  ⟨apart_of_keepsNewest hkeep hthere, keepsNewest_of_apart⟩

/-- Two archives were made in one minute. -/
def demoMinute : Machine where
  store :=
    { snapshots := [⟨"tank/mysql@base-20260531-150405", "tank/mysql@base", 0, 1780239845⟩,
        ⟨"tank/mysql@base-20260531-150425", "tank/mysql@base", 1, 1780239865⟩]
      filesystems := demo.store.filesystems
      next := 2 }
  threads := 8
  wf :=
    { names := by decide
      guids := by decide
      fresh := by decide
      valid := by decide
      filesystems := demo.wf.filesystems
      origins := fun f hf o ho => absurd ho (demo_origin_ne hf o)
      validFilesystems := demo.wf.validFilesystems }
  bounded := demo.bounded

/-- Two archives that were made an hour apart, and one of another snapshot. -/
def demoHour : Machine where
  store :=
    { snapshots := [⟨"tank/mysql@base-20260531-150405", "tank/mysql@base", 0, 1780239845⟩,
        ⟨"tank/mysql@base-20260531-160405", "tank/mysql@base", 1, 1780243445⟩,
        ⟨"tank/mysql@v1-20260531-150406", "tank/mysql@v1", 2, 1780239846⟩]
      filesystems := demo.store.filesystems
      next := 3 }
  threads := 8
  wf :=
    { names := by decide
      guids := by decide
      fresh := by decide
      valid := by decide
      filesystems := demo.wf.filesystems
      origins := fun f hf o ho => absurd ho (demo_origin_ne hf o)
      validFilesystems := demo.wf.validFilesystems }
  bounded := demo.bounded

theorem ranks_demoHour : ∀ s ∈ demoHour.store.snapshots, demoProvider.Newest demoHour 1 s →
    ∀ e ∈ demoProvider.entries demoHour.store, demoProvider.snapshotPath e.name = s.name →
      ∀ key ∈ archivePrefix e.name,
        rank recent (archivesOf key (demoProvider.entries demoHour.store)) e ≤ 1 := by
  rw [entries, parseSnapshotList_answer demoHour.wf]
  unfold Newest
  decide +kernel

/-- One is to be kept of each, and one is destroyed. -/
theorem keepsNewest_demo : demoProvider.KeepsNewest demoHour 1 ∧
    (surplus 1 "base" (demoProvider.entries demoHour.store)).map (·.name) =
      ["base-20260531-150405"] := by
  refine ⟨(demoProvider.keepsNewest_iff (by decide) (by decide +kernel)).mpr ?_, ?_⟩
  · intro s hs _ e he hpath key hkey
    exact ranks_demoHour s (mem_own.mp hs.1).1 hs e he hpath key hkey
  · rw [entries, parseSnapshotList_answer demoHour.wf]
    decide +kernel

/-- Of these the newer one is destroyed, though one is to be kept. -/
theorem newest_lost : (demoMinute.store.snapshots.map (·.creation)).Nodup ∧
    demoMinute.store.filesystem "tank/mysql" ≠ none ∧ ¬ demoProvider.KeepsNewest demoMinute 1 := by
  obtain ⟨e, he, hname⟩ : ∃ e ∈ surplus 1 "base" (demoProvider.entries demoMinute.store),
      demoProvider.snapshotPath e.name = "tank/mysql@base-20260531-150425" := by
    rw [entries, parseSnapshotList_answer demoMinute.wf]
    decide +kernel
  have hloose : Loose "tank/mysql@base-20260531-150425" demoMinute := by
    unfold Loose
    decide +kernel
  have hthere : demoMinute.store.filesystem "tank/mysql" ≠ none := by decide +kernel
  refine ⟨by decide, hthere, ?_⟩
  intro hkeeps
  obtain ⟨tr, r, m', hrun, hgone⟩ :=
    @exists_collection demoProvider demoMinute 1 _ _ _ (by decide) hthere hloose he hname
  have hnewest : demoProvider.Newest demoMinute 1
      ⟨"tank/mysql@base-20260531-150425", "tank/mysql@base", 1, 1780239865⟩ := by
    unfold Newest
    decide +kernel
  exact hgone _ (hkeeps demoMinute tr r m' ⟨.refl _, rfl⟩ hrun _ hnewest) rfl

end BranchDB.AgentProvider
