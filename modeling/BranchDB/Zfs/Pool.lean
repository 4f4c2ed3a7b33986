/-
# `Zfs.Pool` — stores that are well formed, and commands served on them

In a well-formed store names and guids are unique, and every clone has its origin.  What is
served keeps it so, whatever the outcome (`Served.wf`), because a snapshot with clones is
never destroyed and a rename keeps the guid.  A `Pool` is a store with that proof.
-/
import BranchDB.Zfs.Store

namespace Zfs

open Strings

/-! ## Outcomes -/

/-- What a finished command leaves: its output, and the error of its exit. -/
structure Output where
  stdout : String
  stderr : String
  err : Option String
deriving DecidableEq, Repr

def Output.ok (stdout : String) : Output := ⟨stdout, "", none⟩

def Output.failed (why err : String) : Output := ⟨"", why, some err⟩

/-- `CombinedOutput`. -/
def Output.combined (out : Output) : String := out.stdout ++ out.stderr

/-- A complaint about an object of the command, or none, for another reason than those the
texts stand for. -/
def Other (c : Command) (why : String) : Prop :=
  why = "" ∨ ∃ verb object reason, object ∈ c.objects ∧ why = complaint verb object reason ∧
    ∀ text ∈ [missingText, clonesText, existsText],
      contains verb text = false ∧ contains reason text = false

/-- What another complaint about one object says beyond its name is none of the known reasons. -/
theorem Other.destroy {force : Bool} {object why : String} (h : Other (.destroy force object) why) :
    why = "" ∨ ∀ text ∈ [missingText, clonesText, existsText],
      contains why text = contains object text := by
  rcases h with rfl | ⟨verb, named, reason, hnamed, rfl, hnone⟩
  · exact Or.inl rfl
  · obtain rfl := List.mem_singleton.mp hnamed
    refine Or.inr ?_
    intro text htext
    obtain ⟨hverb, hreason⟩ := hnone text htext
    exact contains_complaint_object htext hverb hreason

/-- `Served clock c st out st'`: `c` executed in `st` may leave `out` and `st'`. -/
inductive Served (clock : UInt64) (c : Command) (st : Store) : Output → Store → Prop
  | done : refusal st c = none → Served clock c st (.ok (answer st c)) (effect clock st c)
  | refused {why : String} (err : String) : refusal st c = some why →
      Served clock c st (.failed why err) st
  | failed {why : String} (err : String) : Other c why → Served clock c st (.failed why err) st
  | broke {why : String} (err : String) : refusal st c = none → Other c why →
      Served clock c st (.failed why err) (effect clock st c)

/-- `zfs` itself, when nothing comes in between. -/
def serve (clock : UInt64) (c : Command) (st : Store) : Output × Store :=
  match refusal st c with
  | none => (.ok (answer st c), effect clock st c)
  | some why => (.failed why "exit status 1", st)

theorem served_serve (clock : UInt64) (c : Command) (st : Store) :
    Served clock c st (serve clock c st).1 (serve clock c st).2 := by
  unfold serve
  split
  · next h => exact .done h
  · next h => exact .refused _ h

variable {clock : UInt64} {c : Command} {st st' : Store} {out : Output}

/-- A command without an error was not refused, and did what it does. -/
theorem Served.of_ok (h : Served clock c st out st') (herr : out.err = none) :
    refusal st c = none ∧ out = .ok (answer st c) ∧ st' = effect clock st c := by
  cases h with
  | done hr => exact ⟨hr, rfl, rfl⟩
  | refused | failed | broke => cases herr

/-- What was served was done, or changed nothing. -/
theorem Served.cases_effect (h : Served clock c st out st') :
    st' = st ∨ (refusal st c = none ∧ st' = effect clock st c) := by
  cases h with
  | done hr => exact Or.inr ⟨hr, rfl⟩
  | refused | failed => exact Or.inl rfl
  | broke _ hr => exact Or.inr ⟨hr, rfl⟩

/-! ## Lookups -/

theorem mem_of_snapshot {name : String} {s : Snapshot} (h : st.snapshot name = some s) :
    s ∈ st.snapshots ∧ s.name = name := by
  refine ⟨List.mem_of_find?_eq_some h, ?_⟩
  simpa using List.find?_some h

theorem snapshot_eq_none {name : String} :
    st.snapshot name = none ↔ ∀ s ∈ st.snapshots, s.name ≠ name := by
  simp [Store.snapshot]

theorem mem_of_filesystem {name : String} {f : Filesystem} (h : st.filesystem name = some f) :
    f ∈ st.filesystems ∧ f.name = name := by
  refine ⟨List.mem_of_find?_eq_some h, ?_⟩
  simpa using List.find?_some h

theorem filesystem_eq_none {name : String} :
    st.filesystem name = none ↔ ∀ f ∈ st.filesystems, f.name ≠ name := by
  simp [Store.filesystem]

theorem clones_eq_nil {s : Snapshot} :
    st.clones s = [] ↔ ∀ f ∈ st.filesystems, f.origin ≠ some s.guid := by
  simp [Store.clones, List.filter_eq_nil_iff]

/-- Only snapshots without clones are destroyed. -/
theorem clones_of_refuseSnapshots {object : String} (h : refuseSnapshots st object = none) :
    st.selected object ≠ [] ∧ ∀ s ∈ st.selected object, st.clones s = [] := by
  unfold refuseSnapshots at h
  split at h
  · cases h
  · next hne =>
    refine ⟨hne, ?_⟩
    intro s hs
    simpa using List.find?_eq_none.mp (Option.map_eq_none_iff.mp h) s hs

/-! ## When a command is not refused -/

theorem refusal_snapshot {name : String} :
    refusal st (.snapshot name) = none ↔ ValidSnapshot name.toList ∧
      st.filesystem (String.ofList (cutAt name.toList).1) ≠ none ∧ st.snapshot name = none := by
  unfold refusal
  by_cases hvalid : ValidSnapshot name.toList
  · by_cases hfs : st.filesystem (String.ofList (cutAt name.toList).1) = none
    · simp [hvalid, hfs]
    · simp [hvalid, hfs]
  · simp [hvalid]

theorem refusal_rename {name target : String} :
    refusal st (.rename name target) = none ↔ st.snapshot name ≠ none ∧
      ValidSnapshot target.toList ∧ (cutAt target.toList).1 = (cutAt name.toList).1 ∧
        st.snapshot target = none := by
  unfold refusal
  by_cases hname : st.snapshot name = none
  · simp [hname]
  · by_cases hvalid : ValidSnapshot target.toList
    · by_cases hfs : (cutAt target.toList).1 = (cutAt name.toList).1
      · simp [hname, hvalid, hfs]
      · simp [hname, hfs]
    · simp [hname, hvalid]

theorem refusal_clone {snap target : String} :
    refusal st (.clone snap target) = none ↔ st.snapshot snap ≠ none ∧
      ValidFilesystem target.toList ∧ st.filesystem target = none ∧
        st.filesystem (parent target) ≠ none := by
  unfold refusal
  by_cases hsnap : st.snapshot snap = none
  · simp [hsnap]
  · by_cases hvalid : ValidFilesystem target.toList
    · by_cases htarget : st.filesystem target = none
      · simp [hsnap, hvalid, htarget]
      · simp [hsnap, hvalid, htarget]
    · simp [hsnap, hvalid]

theorem exists_of_share {target : String} (h : refusal st (.share target) = none) :
    st.filesystem target ≠ none := by
  intro hnone
  simp only [refusal, hnone] at h
  cases h

theorem refusal_getSharenfs {name : String} :
    refusal st (.getSharenfs name) = none ↔ st.Exists name := by
  simp [refusal]

/-! ## Well-formed stores -/

structure Store.WF (st : Store) : Prop where
  names : (st.snapshots.map (·.name)).Nodup
  guids : (st.snapshots.map (·.guid)).Nodup
  fresh : ∀ s ∈ st.snapshots, s.guid < st.next
  valid : ∀ s ∈ st.snapshots, ValidSnapshot s.name.toList
  filesystems : (st.filesystems.map (·.name)).Nodup
  origins : ∀ f ∈ st.filesystems, ∀ g, f.origin = some g → ∃ s ∈ st.snapshots, s.guid = g
  validFilesystems : ∀ f ∈ st.filesystems, ValidFilesystem f.name.toList

namespace Store.WF

/-- The name of a snapshot tells which one it is. -/
theorem eq_of_name (h : st.WF) {s t : Snapshot} (hs : s ∈ st.snapshots) (ht : t ∈ st.snapshots)
    (he : s.name = t.name) : s = t :=
  List.inj_on_of_nodup_map h.names hs ht he

theorem eq_of_guid (h : st.WF) {s t : Snapshot} (hs : s ∈ st.snapshots) (ht : t ∈ st.snapshots)
    (he : s.guid = t.guid) : s = t :=
  List.inj_on_of_nodup_map h.guids hs ht he

/-- Fewer filesystems, and snapshots without clones gone. -/
theorem shrink (h : st.WF) {snapshots : List Snapshot} {filesystems : List Filesystem}
    (hs : List.Sublist snapshots st.snapshots) (hf : List.Sublist filesystems st.filesystems)
    (horigin : ∀ f ∈ filesystems, ∀ s ∈ st.snapshots, f.origin = some s.guid → s ∈ snapshots) :
    ({ st with snapshots := snapshots, filesystems := filesystems } : Store).WF where
  names := h.names.sublist (hs.map _)
  guids := h.guids.sublist (hs.map _)
  fresh s hmem := h.fresh s (hs.subset hmem)
  valid s hmem := h.valid s (hs.subset hmem)
  filesystems := h.filesystems.sublist (hf.map _)
  origins f hmem g hg := by
    obtain ⟨s, hs', rfl⟩ := h.origins f (hf.subset hmem) g hg
    exact ⟨s, horigin f hmem s hs' hg, rfl⟩
  validFilesystems f hmem := h.validFilesystems f (hf.subset hmem)

theorem destroySnapshots (h : st.WF) {object : String} (hr : refuseSnapshots st object = none) :
    ({ st with snapshots := st.snapshots.filter (· ∉ st.selected object) } : Store).WF := by
  refine h.shrink List.filter_sublist (List.Sublist.refl _) ?_
  intro f hf s hs ho
  refine List.mem_filter.mpr ⟨hs, decide_eq_true fun hsel => ?_⟩
  exact clones_eq_nil.mp ((clones_of_refuseSnapshots hr).2 s hsel) f hf ho

theorem destroyFilesystem (h : st.WF) (name : String) :
    ({ st with filesystems := st.filesystems.filter (·.name ≠ name) } : Store).WF :=
  h.shrink (List.Sublist.refl _) List.filter_sublist fun _ _ _ hs _ => hs

theorem takeSnapshot (h : st.WF) {name : String} (hvalid : ValidSnapshot name.toList)
    (hnew : st.snapshot name = none) (clock : UInt64) :
    ({ st with
      snapshots := st.snapshots ++ [⟨name, name, st.next, clock⟩]
      next := st.next + 1 } : Store).WF where
  names := by
    rw [List.map_append]
    refine List.nodup_append.mpr ⟨h.names, List.nodup_singleton _, ?_⟩
    rintro a ha b hb rfl
    obtain ⟨s, hs, hname⟩ := List.mem_map.mp ha
    exact snapshot_eq_none.mp hnew s hs (hname.trans (List.mem_singleton.mp hb))
  guids := by
    rw [List.map_append]
    refine List.nodup_append.mpr ⟨h.guids, List.nodup_singleton _, ?_⟩
    rintro a ha b hb rfl
    obtain ⟨s, hs, hguid⟩ := List.mem_map.mp ha
    have hlt := h.fresh s hs
    have hb := List.mem_singleton.mp hb
    have hguid' : s.guid = st.next := hguid.trans hb
    omega
  fresh := by
    intro s hs
    rcases List.mem_append.mp hs with hs | hs
    · exact Nat.lt_succ_of_lt (h.fresh s hs)
    · rw [List.mem_singleton.mp hs]
      exact Nat.lt_succ_self _
  valid := by
    intro s hs
    rcases List.mem_append.mp hs with hs | hs
    · exact h.valid s hs
    · rw [List.mem_singleton.mp hs]
      exact hvalid
  filesystems := h.filesystems
  origins f hf g hg := by
    obtain ⟨s, hs, he⟩ := h.origins f hf g hg
    exact ⟨s, List.mem_append_left _ hs, he⟩
  validFilesystems := h.validFilesystems

theorem renameSnapshot (h : st.WF) {name target : String} (hvalid : ValidSnapshot target.toList)
    (hnew : st.snapshot target = none) :
    ({ st with snapshots := st.snapshots.map fun s =>
        if s.name = name then { s with name := target } else s } : Store).WF := by
  have hguids : (st.snapshots.map fun s =>
      if s.name = name then { s with name := target } else s).map (·.guid) =
        st.snapshots.map (·.guid) := by
    rw [List.map_map]
    refine List.map_congr_left ?_
    intro s _
    show (if s.name = name then ({ s with name := target } : Snapshot) else s).guid = s.guid
    split <;> rfl
  have hrenamed : ∀ s ∈ st.snapshots.map fun s =>
      if s.name = name then { s with name := target } else s,
      ∃ t ∈ st.snapshots, s.guid = t.guid ∧ (s.name = t.name ∨ s.name = target) := by
    intro s hs
    obtain ⟨t, ht, rfl⟩ := List.mem_map.mp hs
    refine ⟨t, ht, ?_⟩
    split
    · exact ⟨rfl, Or.inr rfl⟩
    · exact ⟨rfl, Or.inl rfl⟩
  exact
    { names := by
        rw [List.map_map]
        refine h.names.of_map _ |>.map_on ?_
        intro s hs t ht he
        have hs' := snapshot_eq_none.mp hnew s hs
        have ht' := snapshot_eq_none.mp hnew t ht
        have hname : s.name = t.name := by
          simp only [Function.comp_apply] at he
          split at he
          · next hsn =>
            split at he
            · next htn => exact hsn.trans htn.symm
            · exact absurd he.symm ht'
          · split at he
            · exact absurd he hs'
            · exact he
        exact h.eq_of_name hs ht hname
      guids := hguids ▸ h.guids
      fresh := by
        intro s hs
        obtain ⟨t, ht, hguid, -⟩ := hrenamed s hs
        exact hguid ▸ h.fresh t ht
      valid := by
        intro s hs
        obtain ⟨t, ht, -, hname | hname⟩ := hrenamed s hs
        · exact hname ▸ h.valid t ht
        · exact hname ▸ hvalid
      filesystems := h.filesystems
      origins := by
        intro f hf g hg
        obtain ⟨s, hs, he⟩ := h.origins f hf g hg
        refine ⟨_, List.mem_map_of_mem hs, ?_⟩
        split
        · exact he
        · exact he
      validFilesystems := h.validFilesystems }

theorem addClone (h : st.WF) {f : Filesystem} (hvalid : ValidFilesystem f.name.toList)
    (hnew : st.filesystem f.name = none)
    (horigin : ∀ g, f.origin = some g → ∃ s ∈ st.snapshots, s.guid = g) :
    ({ st with filesystems := st.filesystems ++ [f] } : Store).WF where
  names := h.names
  guids := h.guids
  fresh := h.fresh
  valid := h.valid
  filesystems := by
    rw [List.map_append]
    refine List.nodup_append.mpr ⟨h.filesystems, List.nodup_singleton _, ?_⟩
    rintro a ha b hb rfl
    obtain ⟨f', hf', hname⟩ := List.mem_map.mp ha
    exact filesystem_eq_none.mp hnew f' hf' (hname.trans (List.mem_singleton.mp hb))
  origins := by
    intro f' hf' g hg
    rcases List.mem_append.mp hf' with hf' | hf'
    · exact h.origins f' hf' g hg
    · rw [List.mem_singleton.mp hf'] at hg
      exact horigin g hg
  validFilesystems := by
    intro f' hf'
    rcases List.mem_append.mp hf' with hf' | hf'
    · exact h.validFilesystems f' hf'
    · rw [List.mem_singleton.mp hf']
      exact hvalid

/-- Whether filesystems are shared is no matter. -/
theorem share (h : st.WF) {g : Filesystem → Filesystem} (hname : ∀ f, (g f).name = f.name)
    (horigin : ∀ f, (g f).origin = f.origin) :
    ({ st with filesystems := st.filesystems.map g } : Store).WF where
  names := h.names
  guids := h.guids
  fresh := h.fresh
  valid := h.valid
  filesystems := by
    have hnames : (st.filesystems.map g).map (·.name) = st.filesystems.map (·.name) := by
      rw [List.map_map]
      exact List.map_congr_left fun f _ => hname f
    exact hnames ▸ h.filesystems
  origins := by
    intro f hf g' hg
    obtain ⟨f', hf', rfl⟩ := List.mem_map.mp hf
    exact h.origins f' hf' g' ((horigin f').symm.trans hg)
  validFilesystems := by
    intro f hf
    obtain ⟨f', hf', rfl⟩ := List.mem_map.mp hf
    exact (hname f').symm ▸ h.validFilesystems f' hf'

end Store.WF

/-- What a command does that is not refused keeps the store well formed. -/
theorem Store.WF.effect (h : st.WF) (hr : refusal st c = none) : (effect clock st c).WF := by
  cases c with
  | destroy force object =>
      by_cases hat : '@' ∈ object.toList
      · simp only [refusal, if_pos hat] at hr
        simp only [Zfs.effect, if_pos hat]
        exact h.destroySnapshots hr
      · simp only [Zfs.effect, if_neg hat]
        exact h.destroyFilesystem object
  | snapshot name =>
      obtain ⟨hvalid, -, hnew⟩ := refusal_snapshot.mp hr
      exact h.takeSnapshot hvalid hnew clock
  | rename name target =>
      obtain ⟨-, hvalid, -, hnew⟩ := refusal_rename.mp hr
      exact h.renameSnapshot hvalid hnew
  | clone snap target =>
      obtain ⟨-, hvalid, hnew, -⟩ := refusal_clone.mp hr
      refine h.addClone hvalid hnew ?_
      intro g hg
      obtain ⟨s, hs, rfl⟩ := Option.map_eq_some_iff.mp hg
      exact ⟨s, (mem_of_snapshot hs).1, rfl⟩
  | share target =>
      refine h.share (fun f => ?_) (fun f => ?_) <;> split <;> rfl
  | shareAll => exact h.share (fun _ => rfl) (fun _ => rfl)
  | unshare target =>
      refine h.share (fun f => ?_) (fun f => ?_) <;> split <;> rfl
  | getSharenfs | getClones | listSnapshots | listTree | list => exact h

theorem Served.wf (h : Served clock c st out st') (hst : st.WF) : st'.WF := by
  rcases h.cases_effect with rfl | ⟨hr, rfl⟩
  · exact hst
  · exact hst.effect hr

/-! ## What becomes of snapshots and filesystems -/

/-- A snapshot stays as it is, or is renamed, or is destroyed, having no clones. -/
theorem Served.snapshot_kept (h : Served clock c st out st') {s : Snapshot}
    (hs : s ∈ st.snapshots) :
    s ∈ st'.snapshots ∨
      (∃ target, c = .rename s.name target ∧ { s with name := target } ∈ st'.snapshots) ∨
      ∃ force object, c = .destroy force object ∧ s ∈ st.selected object ∧ st.clones s = [] := by
  rcases h.cases_effect with rfl | ⟨hr, rfl⟩
  · exact Or.inl hs
  · cases c with
    | destroy force object =>
        by_cases hat : '@' ∈ object.toList
        · simp only [refusal, if_pos hat] at hr
          by_cases hsel : s ∈ st.selected object
          · exact Or.inr (Or.inr ⟨force, object, rfl, hsel,
              (clones_of_refuseSnapshots hr).2 s hsel⟩)
          · simp only [effect, if_pos hat]
            exact Or.inl (List.mem_filter.mpr ⟨hs, decide_eq_true hsel⟩)
        · simp only [effect, if_neg hat]
          exact Or.inl hs
    | snapshot name => exact Or.inl (List.mem_append_left _ hs)
    | rename name target =>
        have hmem := List.mem_map_of_mem (f := fun s : Snapshot =>
          if s.name = name then { s with name := target } else s) hs
        by_cases hname : s.name = name
        · rw [if_pos hname] at hmem
          exact Or.inr (Or.inl ⟨target, by rw [hname], hmem⟩)
        · rw [if_neg hname] at hmem
          exact Or.inl hmem
    | clone | share | shareAll | unshare | getSharenfs | getClones | listSnapshots | listTree
    | list => exact Or.inl hs

/-- A snapshot was there, under this name or another, or was just taken. -/
theorem Served.snapshot_before (h : Served clock c st out st') {s : Snapshot}
    (hs : s ∈ st'.snapshots) :
    s ∈ st.snapshots ∨
      (∃ t ∈ st.snapshots, ∃ target, c = .rename t.name target ∧ s = { t with name := target }) ∨
      ∃ name, c = .snapshot name ∧ s = ⟨name, name, st.next, clock⟩ := by
  rcases h.cases_effect with rfl | ⟨hr, rfl⟩
  · exact Or.inl hs
  · cases c with
    | destroy force object =>
        by_cases hat : '@' ∈ object.toList
        · simp only [effect, if_pos hat] at hs
          exact Or.inl (List.mem_filter.mp hs).1
        · simp only [effect, if_neg hat] at hs
          exact Or.inl hs
    | snapshot name =>
        rcases List.mem_append.mp hs with hs | hs
        · exact Or.inl hs
        · exact Or.inr (Or.inr ⟨name, rfl, List.mem_singleton.mp hs⟩)
    | rename name target =>
        obtain ⟨t, ht, rfl⟩ := List.mem_map.mp hs
        by_cases hname : t.name = name
        · rw [if_pos hname]
          exact Or.inr (Or.inl ⟨t, ht, target, by rw [hname], rfl⟩)
        · rw [if_neg hname]
          exact Or.inl ht
    | clone | share | shareAll | unshare | getSharenfs | getClones | listSnapshots | listTree
    | list => exact Or.inl hs

/-- Guids are given out once. -/
theorem Served.next_le (h : Served clock c st out st') : st.next ≤ st'.next := by
  rcases h.cases_effect with rfl | ⟨-, rfl⟩
  · exact Nat.le_refl _
  · cases c with
    | destroy force object =>
        simp only [effect]
        split
        · exact Nat.le_refl _
        · exact Nat.le_refl _
    | snapshot name => exact Nat.le_succ _
    | rename | clone | share | shareAll | unshare | getSharenfs | getClones | listSnapshots
    | listTree | list => exact Nat.le_refl _

/-- The command is about snapshots only. -/
def Command.OnSnapshots : Command → Prop
  | .destroy _ object => '@' ∈ object.toList
  | .snapshot _ | .rename .. | .getClones _ | .listSnapshots _ => True
  | .clone .. | .share _ | .shareAll | .unshare _ | .getSharenfs _ | .listTree _ | .list _ => False

theorem Served.filesystems (h : Served clock c st out st') (hc : c.OnSnapshots) :
    st'.filesystems = st.filesystems := by
  rcases h.cases_effect with rfl | ⟨-, rfl⟩
  · rfl
  · cases c with
    | destroy force object =>
        simp only [effect, if_pos (show '@' ∈ object.toList from hc)]
    | snapshot | rename | getClones | listSnapshots => rfl
    | clone | share | shareAll | unshare | getSharenfs | listTree | list => exact hc.elim

/-- The filesystems and what they are clones of, whether shared or not. -/
def Store.datasets (st : Store) : List (String × Option Nat) :=
  st.filesystems.map fun f => (f.name, f.origin)

theorem mem_datasets {name : String} {origin : Option Nat} :
    (name, origin) ∈ st.datasets ↔ ∃ f ∈ st.filesystems, f.name = name ∧ f.origin = origin := by
  simp [Store.datasets]

theorem filesystem_ne_none {name : String} :
    st.filesystem name ≠ none ↔ ∃ origin, (name, origin) ∈ st.datasets := by
  constructor
  · intro h
    obtain ⟨f, hf⟩ := Option.ne_none_iff_exists'.mp h
    obtain ⟨hmem, hname⟩ := mem_of_filesystem hf
    exact ⟨f.origin, mem_datasets.mpr ⟨f, hmem, hname, rfl⟩⟩
  · rintro ⟨origin, h⟩ hnone
    obtain ⟨f, hf, hname, -⟩ := mem_datasets.mp h
    exact filesystem_eq_none.mp hnone f hf hname

/-- What is there without an `@` in its name is a filesystem. -/
theorem Store.WF.filesystem_of_exists (h : st.WF) {name : String} (hexists : st.Exists name)
    (hat : '@' ∉ name.toList) : ∃ origin, (name, origin) ∈ st.datasets := by
  rcases hexists with hfs | hsnap
  · exact filesystem_ne_none.mp hfs
  · obtain ⟨s, hs⟩ := Option.ne_none_iff_exists'.mp hsnap
    obtain ⟨hmem, hname⟩ := mem_of_snapshot hs
    exact absurd (hname ▸ (h.valid s hmem).1) hat

/-- No filesystem is made or destroyed. -/
def Command.Spares : Command → Prop
  | .clone .. => False
  | .destroy _ object => '@' ∈ object.toList
  | .snapshot _ | .rename .. | .share _ | .shareAll | .unshare _ | .getSharenfs _ | .getClones _
  | .listSnapshots _ | .listTree _ | .list _ => True

theorem datasets_effect (hc : c.Spares) : (effect clock st c).datasets = st.datasets := by
  have hmap : ∀ g : Filesystem → Filesystem, (∀ f, (g f).name = f.name) →
      (∀ f, (g f).origin = f.origin) →
      ({ st with filesystems := st.filesystems.map g } : Store).datasets = st.datasets := by
    intro g hname horigin
    simp [Store.datasets, hname, horigin]
  cases c with
  | destroy force object =>
      simp only [effect, if_pos (show '@' ∈ object.toList from hc)]
      rfl
  | clone snap target => exact hc.elim
  | share target => exact hmap _ (fun f => by split <;> rfl) (fun f => by split <;> rfl)
  | shareAll => exact hmap _ (fun _ => rfl) (fun _ => rfl)
  | unshare target => exact hmap _ (fun f => by split <;> rfl) (fun f => by split <;> rfl)
  | snapshot | rename | getSharenfs | getClones | listSnapshots | listTree | list => rfl

theorem datasets_clone {snap target : String} :
    (effect clock st (.clone snap target)).datasets =
      st.datasets ++ [(target, (st.snapshot snap).map (·.guid))] := by
  simp [effect, Store.datasets, Filesystem.export]

theorem datasets_destroy {force : Bool} {name : String} (hat : '@' ∉ name.toList) :
    (effect clock st (.destroy force name)).datasets = st.datasets.filter (·.1 ≠ name) := by
  simp only [effect, if_neg hat, Store.datasets, List.filter_map]
  rfl

theorem Served.datasets (h : Served clock c st out st') (hc : c.Spares) :
    st'.datasets = st.datasets := by
  rcases h.cases_effect with rfl | ⟨-, rfl⟩
  · rfl
  · exact datasets_effect hc

/-- A filesystem and its origin stay, unless it is destroyed. -/
theorem Served.dataset_kept (h : Served clock c st out st') {name : String} {origin : Option Nat}
    (hmem : (name, origin) ∈ st.datasets) (hc : ∀ force, c ≠ .destroy force name) :
    (name, origin) ∈ st'.datasets := by
  by_cases hspares : c.Spares
  · rwa [h.datasets hspares]
  · rcases h.cases_effect with rfl | ⟨-, rfl⟩
    · exact hmem
    · cases c with
      | destroy force object =>
          rw [datasets_destroy hspares]
          refine List.mem_filter.mpr ⟨hmem, decide_eq_true ?_⟩
          rintro rfl
          exact hc force rfl
      | clone snap target =>
          rw [datasets_clone]
          exact List.mem_append_left _ hmem
      | snapshot | rename | share | shareAll | unshare | getSharenfs | getClones | listSnapshots
      | listTree | list => exact absurd trivial hspares

/-- A snapshot with clones is not destroyed. -/
theorem clones_ne_nil {s : Snapshot} {name : String} (h : (name, some s.guid) ∈ st.datasets) :
    st.clones s ≠ [] := by
  obtain ⟨f, hf, -, ho⟩ := mem_datasets.mp h
  exact fun hnil => clones_eq_nil.mp hnil f hf ho

end Zfs
