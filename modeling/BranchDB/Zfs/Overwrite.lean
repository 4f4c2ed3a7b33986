/-
# `BranchDB.Zfs.Overwrite` — the runs of an overwriting `TakeSnapshot`

    destroy ─ok─────────────▶ snapshot ─▶ nil, error
      ├─does not exist──────▶    ▲
      ├─has dependent clones▶ rename ─error▶ error
      └─else─▶ error

What the outcome is called is read out of the text of `zfs destroy`, and that text holds the
name of the snapshot.  So a name can pass for the reason.
-/
import BranchDB.Zfs.Calls
import BranchDB.Zfs.Machine

namespace BranchDB.AgentProvider

open Concur Strings Zfs Machine

variable (p : AgentProvider) {name : String} {m m₁ m' : Machine}
  {tr : List (Event OsCall OsCall.Reply Machine)} {r : Except GoError Unit} {out : Output}

/-! ## Paths -/

/-- `zfs destroy` of the snapshot under the name. -/
abbrev destroyCall (name : String) : OsCall := .zfs (.destroy false (p.snapshotPath name))

abbrev renameCall (name : String) (t : Time) : OsCall :=
  .zfs (.rename (p.snapshotPath name) (p.snapshotPath (name ++ "-" ++ t.stamp)))

abbrev snapshotCall (name : String) : OsCall := .zfs (.snapshot (p.snapshotPath name))

def Missing (out : Output) : Prop := contains out.combined missingText = true

def Cloned (out : Output) : Prop := contains out.combined clonesText = true

/-- How the first half of an overwrite may go, once the destroy has answered `out` in `m`. -/
inductive MadeRoom (name : String) (out : Output) (m : Machine) :
    List (Event OsCall OsCall.Reply Machine) → Except GoError Unit → Machine → Prop
  | destroyed : out.err = none → MadeRoom name out m [] (.ok ()) m
  | missing : out.err ≠ none → Missing out → MadeRoom name out m [] (.ok ()) m
  | renamed {moved : Output} {m' : Machine} (t : Time) :
      out.err ≠ none → ¬ Missing out → Cloned out →
      exec (p.renameCall name t) m moved m' → moved.err = none →
      MadeRoom name out m [⟨.now, m, t, m⟩, ⟨p.renameCall name t, m, moved, m'⟩] (.ok ()) m'
  | notRenamed {moved : Output} {m' : Machine} (t : Time) (err : GoError) :
      out.err ≠ none → ¬ Missing out → Cloned out →
      exec (p.renameCall name t) m moved m' → moved.err ≠ none →
      MadeRoom name out m [⟨.now, m, t, m⟩, ⟨p.renameCall name t, m, moved, m'⟩] (.error err) m'
  | stuck (err : GoError) :
      out.err ≠ none → ¬ Missing out → ¬ Cloned out → MadeRoom name out m [] (.error err) m

theorem contains_trimmed {text : String} (h : text ∈ [missingText, clonesText]) :
    contains (trimSpace out.combined) text = contains out.combined text := by
  rcases List.mem_cons.mp h with rfl | h
  · exact contains_trimSpace (x := 'd') (y := 't') (p := missingText.toList.drop 1)
      (q := missingText.toList.dropLast) (by decide) (by decide) (by decide) (by decide)
  · obtain rfl := List.mem_singleton.mp h
    exact contains_trimSpace (x := 'h') (y := 's') (p := clonesText.toList.drop 1)
      (q := clonesText.toList.dropLast) (by decide) (by decide) (by decide) (by decide)

theorem runs_archive (h : Runs (p.archive name) m tr r m') :
    ∃ t moved, exec (p.renameCall name t) m moved m' ∧
      tr = [⟨.now, m, t, m⟩, ⟨p.renameCall name t, m, moved, m'⟩] ∧
      (r = .ok () ↔ moved.err = none) := by
  obtain ⟨t, m₁, rest, hexec, hrest, rfl⟩ := runs_os_bind.mp h
  obtain rfl : m₁ = m := hexec
  obtain ⟨result, m₂, first, last, hrename, hlast, rfl⟩ := Prog.ends_bind.mp hrest
  obtain ⟨moved, hmoved, rfl, hresult⟩ := runs_run hrename
  cases result with
  | ok =>
      obtain ⟨rfl, rfl, rfl⟩ := Prog.ends_ret.mp hlast
      exact ⟨t, moved, hmoved, rfl, hresult⟩
  | error err =>
      obtain ⟨rfl, rfl, rfl⟩ := Prog.ends_ret.mp hlast
      refine ⟨t, moved, hmoved, rfl, iff_of_false nofun fun hnone => ?_⟩
      exact nomatch hresult.mpr hnone

theorem runs_makeRoom (h : Runs (p.makeRoom name) m tr r m') :
    ∃ out m₁ rest, exec (p.destroyCall name) m out m₁ ∧
      tr = ⟨p.destroyCall name, m, out, m₁⟩ :: rest ∧ p.MadeRoom name out m₁ rest r m' := by
  obtain ⟨out, m₁, rest, hexec, hrest, rfl⟩ := runs_zfs_bind.mp h
  refine ⟨out, m₁, rest, hexec, rfl, ?_⟩
  cases herr : out.err with
  | none =>
      rw [herr] at hrest
      obtain ⟨rfl, rfl, rfl⟩ := Prog.ends_ret.mp hrest
      exact .destroyed herr
  | some err =>
      have herr' : out.err ≠ none := by
        rw [herr]
        nofun
      rw [herr] at hrest
      dsimp only at hrest
      split at hrest
      · next hmissing =>
        obtain ⟨rfl, rfl, rfl⟩ := Prog.ends_ret.mp hrest
        exact .missing herr' ((contains_trimmed (by simp [missingText])).symm.trans hmissing)
      · next hmissing =>
        have hpresent : ¬ Missing out := fun h =>
          hmissing ((contains_trimmed (by simp [missingText])).trans h)
        split at hrest
        · next hcloned =>
          have hclones : Cloned out := (contains_trimmed (by simp [clonesText])).symm.trans hcloned
          obtain ⟨t, moved, hmoved, rfl, hresult⟩ := p.runs_archive hrest
          cases r with
          | ok => exact .renamed t herr' hpresent hclones hmoved (hresult.mp rfl)
          | error err =>
              exact .notRenamed t err herr' hpresent hclones hmoved fun hnone =>
                nomatch hresult.mpr hnone
        · next hcloned =>
          obtain ⟨rfl, rfl, rfl⟩ := Prog.ends_ret.mp hrest
          exact .stuck _ herr' hpresent fun h =>
            hcloned ((contains_trimmed (by simp [clonesText])).trans h)

/-- An overwrite is over when no room could be made, or takes the snapshot. -/
theorem runs_takeSnapshot (h : Runs (p.takeSnapshot name true) m tr r m') :
    ∃ out m₁ room result m₂ rest, exec (p.destroyCall name) m out m₁ ∧
      p.MadeRoom name out m₁ room result m₂ ∧
      tr = ⟨p.destroyCall name, m, out, m₁⟩ :: room ++ rest ∧
      (((∃ err, result = .error err ∧ r = .error err) ∧ m' = m₂ ∧ rest = []) ∨
        (result = .ok () ∧ ∃ taken, exec (p.snapshotCall name) m₂ taken m' ∧
          rest = [⟨p.snapshotCall name, m₂, taken, m'⟩] ∧ (r = .ok () ↔ taken.err = none))) := by
  obtain ⟨result, m₂, first, rest, hroom, hrest, rfl⟩ := Prog.ends_bind.mp h
  obtain ⟨out, m₁, room, hexec, rfl, hmade⟩ := p.runs_makeRoom hroom
  refine ⟨out, m₁, room, result, m₂, rest, hexec, hmade, rfl, ?_⟩
  cases result with
  | error err =>
      obtain ⟨rfl, rfl, rfl⟩ := Prog.ends_ret.mp hrest
      exact Or.inl ⟨⟨err, rfl, rfl⟩, rfl, rfl⟩
  | ok =>
      obtain ⟨taken, htaken, rfl, hresult⟩ := runs_run hrest
      exact Or.inr ⟨rfl, taken, htaken, rfl, hresult⟩

/-! ## What becomes of the snapshots -/

theorem exec_destroy_kept (h : exec (p.destroyCall name) m out m') {s : Snapshot}
    (hs : s ∈ m.store.snapshots) :
    s ∈ m'.store.snapshots ∨
      (s ∈ m.store.selected (p.snapshotPath name) ∧ m.store.clones s = []) := by
  obtain ⟨⟨clock, hserved⟩, -⟩ := h
  rcases hserved.snapshot_kept hs with h | ⟨target, h, -⟩ | ⟨force, object, h, hsel, hnone⟩
  · exact Or.inl h
  · cases h
  · cases h
    exact Or.inr ⟨hsel, hnone⟩

theorem exec_rename_kept {t : Time} (h : exec (p.renameCall name t) m out m') {s : Snapshot}
    (hs : s ∈ m.store.snapshots) :
    s ∈ m'.store.snapshots ∨ (s.name = p.snapshotPath name ∧
      { s with name := p.snapshotPath (name ++ "-" ++ t.stamp) } ∈ m'.store.snapshots) := by
  obtain ⟨⟨clock, hserved⟩, -⟩ := h
  rcases hserved.snapshot_kept hs with h | ⟨target, h, hmem⟩ | ⟨force, object, h, -⟩
  · exact Or.inl h
  · obtain ⟨hname, rfl⟩ := Command.rename.inj h
    exact Or.inr ⟨hname.symm, hmem⟩
  · cases h

theorem exec_snapshot_kept (h : exec (p.snapshotCall name) m out m') {s : Snapshot}
    (hs : s ∈ m.store.snapshots) : s ∈ m'.store.snapshots := by
  obtain ⟨⟨clock, hserved⟩, -⟩ := h
  rcases hserved.snapshot_kept hs with h | ⟨target, h, -⟩ | ⟨force, object, h, -⟩
  · exact h
  · cases h
  · cases h

theorem exec_filesystems {c : Command} (h : exec (.zfs c) m out m') (hc : c.OnSnapshots) :
    m'.store.filesystems = m.store.filesystems := by
  obtain ⟨⟨clock, hserved⟩, -⟩ := h
  exact hserved.filesystems hc

variable {p} in
/-- Making room renames the snapshot or leaves everything. -/
theorem MadeRoom.kept {room : List (Event OsCall OsCall.Reply Machine)}
    (h : p.MadeRoom name out m room r m') {s : Snapshot} (hs : s ∈ m.store.snapshots) :
    s ∈ m'.store.snapshots ∨ (s.name = p.snapshotPath name ∧ ∃ t moved,
      ⟨p.renameCall name t, m, moved, m'⟩ ∈ room ∧
        { s with name := p.snapshotPath (name ++ "-" ++ t.stamp) } ∈ m'.store.snapshots) := by
  cases h with
  | destroyed | missing | stuck => exact Or.inl hs
  | @renamed moved _ t _ _ _ hmoved | @notRenamed moved _ t _ _ _ _ hmoved =>
      rcases p.exec_rename_kept hmoved hs with h | ⟨hname, hmem⟩
      · exact Or.inl h
      · exact Or.inr ⟨hname, t, moved, by simp, hmem⟩

variable {p} in
theorem MadeRoom.filesystems {room : List (Event OsCall OsCall.Reply Machine)}
    (h : p.MadeRoom name out m room r m') : m'.store.filesystems = m.store.filesystems := by
  cases h with
  | destroyed | missing | stuck => rfl
  | renamed t _ _ _ hmoved | notRenamed t _ _ _ _ hmoved => exact exec_filesystems hmoved trivial

/-- What may become of the snapshot under the name, where an overwrite fails: it is archived if
the rename was carried out, and gone if the destroy was, which it is only without clones. -/
inductive Fate (name : String) (m : Machine) (tr : List (Event OsCall OsCall.Reply Machine))
    (m' : Machine) (s : Snapshot) : Prop
  | kept : s ∈ m'.store.snapshots → Fate name m tr m' s
  | archived {m₁ m₂ : Machine} {moved : Output} (t : Time) :
      ⟨p.renameCall name t, m₁, moved, m₂⟩ ∈ tr →
      { s with name := p.snapshotPath (name ++ "-" ++ t.stamp) } ∈ m'.store.snapshots →
      Fate name m tr m' s
  | destroyed {m₁ : Machine} {out : Output} :
      ⟨p.destroyCall name, m, out, m₁⟩ ∈ tr → s ∉ m₁.store.snapshots → m.store.clones s = [] →
      Fate name m tr m' s

/-- A failed overwrite loses no snapshot that has clones, and touches no other snapshot. -/
theorem overwrite_error {err : GoError} (h : Runs (p.takeSnapshot name true) m tr (.error err) m') :
    m'.store.filesystems = m.store.filesystems ∧
    (∀ s ∈ m.store.snapshots, s.name = p.snapshotPath name → p.Fate name m tr m' s) ∧
    ∀ s ∈ m.store.snapshots, s.name ≠ p.snapshotPath name →
      s ∉ m.store.selected (p.snapshotPath name) → s ∈ m'.store.snapshots := by
  obtain ⟨out, m₁, room, result, m₂, rest, hdestroy, hroom, rfl, hlast⟩ := p.runs_takeSnapshot h
  have hlast' : m'.store.filesystems = m₂.store.filesystems ∧
      ∀ s ∈ m₂.store.snapshots, s ∈ m'.store.snapshots := by
    rcases hlast with ⟨-, rfl, -⟩ | ⟨-, taken, htaken, -⟩
    · exact ⟨rfl, fun _ hs => hs⟩
    · exact ⟨exec_filesystems htaken trivial, fun s hs => p.exec_snapshot_kept htaken hs⟩
  refine ⟨?_, fun s hs hname => ?_, fun s hs hname hsel => ?_⟩
  · rw [hlast'.1, hroom.filesystems, exec_filesystems hdestroy (p.at_mem_snapshotPath name)]
  · by_cases hs₁ : s ∈ m₁.store.snapshots
    · rcases hroom.kept hs₁ with hs₂ | ⟨-, t, moved, hmem, hs₂⟩
      · exact .kept (hlast'.2 s hs₂)
      · exact .archived t (List.mem_append_left rest (List.mem_cons_of_mem _ hmem)) (hlast'.2 _ hs₂)
    · rcases p.exec_destroy_kept hdestroy hs with h | ⟨-, hnone⟩
      · exact absurd h hs₁
      · exact .destroyed List.mem_cons_self hs₁ hnone
  · rcases p.exec_destroy_kept hdestroy hs with hs₁ | ⟨h, -⟩
    · rcases hroom.kept hs₁ with hs₂ | ⟨h, -⟩
      · exact hlast'.2 s hs₂
      · exact absurd h hname
    · exact absurd h hsel

/-- The destroy is carried out, and then no snapshot is taken. -/
theorem overwrite_error_demo : ∃ tr, demoProvider.Fate "base" demoTaken tr
    (finish (failing (.snapshot "tank/mysql@base")) (demoProvider.takeSnapshot "base" true)
      demoTaken) ⟨"tank/mysql@base", "tank/mysql@base", 0, 0⟩ := by
  obtain ⟨tr, hrun⟩ := serve_runs (failing (.snapshot "tank/mysql@base"))
    (demoProvider.takeSnapshot "base" true) demoTaken (show _ = Except.error _ from rfl)
  exact ⟨tr, (demoProvider.overwrite_error hrun).2.1 _ (by decide +kernel) rfl⟩

/-- The snapshot that was there is lost. -/
theorem overwrite_error_loses :
    demoTaken.store.snapshot "tank/mysql@base" ≠ none ∧ ∃ tr err m',
      Runs (demoProvider.takeSnapshot "base" true) demoTaken tr (.error err) m' ∧
        m'.store.snapshot "tank/mysql@base" = none := by
  obtain ⟨tr, hrun⟩ := serve_runs (failing (.snapshot "tank/mysql@base"))
    (demoProvider.takeSnapshot "base" true) demoTaken (show _ = Except.error _ from rfl)
  exact ⟨by decide +kernel, tr, _, _, hrun, by decide +kernel⟩

/-! ## Success -/

/-- What an overwrite is for. -/
structure Overwrites (name : String) (tr : List (Event OsCall OsCall.Reply Machine))
    (m m' : Machine) : Prop where
  filesystems : m'.store.filesystems = m.store.filesystems
  /-- The snapshot under the name is new. -/
  taken : ∃ s ∈ m'.store.snapshots, s.name = p.snapshotPath name ∧ s.born = p.snapshotPath name ∧
    ∀ t ∈ m.store.snapshots, t.guid ≠ s.guid
  gone : ∀ s ∈ m.store.snapshots, s.name = p.snapshotPath name → m.store.clones s = [] →
    ∀ t ∈ m'.store.snapshots, t.guid ≠ s.guid
  archived : ∀ s ∈ m.store.snapshots, s.name = p.snapshotPath name → m.store.clones s ≠ [] →
    ∃ t m₁, ⟨.now, m₁, t, m₁⟩ ∈ tr ∧
      { s with name := p.snapshotPath (name ++ "-" ++ t.stamp) } ∈ m'.store.snapshots ∧
      m'.store.clones { s with name := p.snapshotPath (name ++ "-" ++ t.stamp) } =
        m.store.clones s
  others : ∀ s ∈ m.store.snapshots, s.name ≠ p.snapshotPath name → s ∈ m'.store.snapshots
  nothingElse : ∀ s ∈ m'.store.snapshots, s.name ≠ p.snapshotPath name →
    ∃ t ∈ m.store.snapshots, t.guid = s.guid

/-- No snapshot is left under the name, and none with clones was lost. -/
structure Cleared (name : String) (m m' : Machine) : Prop where
  filesystems : m'.store.filesystems = m.store.filesystems
  snapshots : m'.store.snapshots = m.store.snapshots.filter (·.name ≠ p.snapshotPath name)
  clones : ∀ s ∈ m.store.snapshots, s.name = p.snapshotPath name → m.store.clones s = []
  next : m.store.next ≤ m'.store.next

theorem Cleared.mem_snapshots (h : p.Cleared name m m') {s : Snapshot} :
    s ∈ m'.store.snapshots ↔ s ∈ m.store.snapshots ∧ s.name ≠ p.snapshotPath name := by
  rw [h.snapshots, List.mem_filter, decide_eq_true_iff]

theorem cleared_of_none (hstore : m'.store = m.store)
    (hnone : m.store.snapshot (p.snapshotPath name) = none) : p.Cleared name m m' := by
  have hnot := snapshot_eq_none.mp hnone
  refine ⟨by rw [hstore], ?_, fun s hs hname => absurd hname (hnot s hs), by rw [hstore]⟩
  rw [hstore, eq_comm, List.filter_eq_self]
  exact fun s hs => decide_eq_true (hnot s hs)

/-- A destroy changes nothing, or clears the name. -/
theorem exec_destroy_cases (h : exec (p.destroyCall name) m out m')
    (hplain : PlainObject (p.snapshotPath name)) :
    (m'.store = m.store ∧ out.err ≠ none) ∨ p.Cleared name m m' := by
  have hfs := exec_filesystems h (p.at_mem_snapshotPath name)
  obtain ⟨⟨clock, hserved⟩, -⟩ := h
  have hnext := hserved.next_le
  have hcleared : refusal m.store (.destroy false (p.snapshotPath name)) = none →
      m'.store = effect clock m.store (.destroy false (p.snapshotPath name)) →
      p.Cleared name m m' := by
    intro hr hstore
    simp only [refusal, if_pos (p.at_mem_snapshotPath name)] at hr
    refine ⟨hfs, ?_, fun s hs hname => ?_, hnext⟩
    · rw [hstore]
      simp only [effect, if_pos (p.at_mem_snapshotPath name), selected_of_plain hplain]
      refine List.filter_congr ?_
      intro s hs
      simp [hs]
    · exact (clones_of_refuseSnapshots hr).2 s ((mem_selected_of_plain hplain).mpr ⟨hs, hname⟩)
  rcases hserved.cases_effect with hstore | ⟨hr, hstore⟩
  · by_cases herr : out.err = none
    · obtain ⟨hr, -, hstore⟩ := hserved.of_ok herr
      exact Or.inr (hcleared hr hstore)
    · exact Or.inl ⟨hstore, herr⟩
  · exact Or.inr (hcleared hr hstore)

/-- What `zfs snapshot` does where it succeeds. -/
theorem exec_snapshot_ok (h : exec (p.snapshotCall name) m out m') (herr : out.err = none) :
    ValidSnapshot (p.snapshotPath name).toList ∧ m.store.snapshot (p.snapshotPath name) = none ∧
      m'.store.filesystems = m.store.filesystems ∧
      ∃ clock, m'.store.snapshots = m.store.snapshots ++
        [⟨p.snapshotPath name, p.snapshotPath name, m.store.next, clock⟩] := by
  obtain ⟨⟨clock, hserved⟩, -⟩ := h
  obtain ⟨hr, -, hstore⟩ := hserved.of_ok herr
  obtain ⟨hvalid, -, hnone⟩ := refusal_snapshot.mp hr
  exact ⟨hvalid, hnone, by rw [hstore]; rfl, clock, by rw [hstore]; rfl⟩

theorem cleared_overwrites (h : p.Cleared name m m₁) (hsnap : exec (p.snapshotCall name) m₁ out m')
    (herr : out.err = none) : p.Overwrites name tr m m' := by
  obtain ⟨-, -, hfs, clock, hsnaps⟩ := p.exec_snapshot_ok hsnap herr
  have hfresh : ∀ s ∈ m.store.snapshots, s.guid ≠ m₁.store.next := fun s hs =>
    Nat.ne_of_lt (Nat.lt_of_lt_of_le (m.wf.fresh s hs) h.next)
  have hmem : ∀ t ∈ m'.store.snapshots, (t ∈ m.store.snapshots ∧ t.name ≠ p.snapshotPath name) ∨
      (t.name = p.snapshotPath name ∧ t.guid = m₁.store.next) := by
    intro t ht
    rw [hsnaps] at ht
    rcases List.mem_append.mp ht with ht | ht
    · exact Or.inl (h.mem_snapshots.mp ht)
    · obtain rfl := List.mem_singleton.mp ht
      exact Or.inr ⟨rfl, rfl⟩
  constructor
  case filesystems => rw [hfs, h.filesystems]
  case taken =>
    refine ⟨⟨p.snapshotPath name, p.snapshotPath name, m₁.store.next, clock⟩, ?_, rfl, rfl, hfresh⟩
    rw [hsnaps]
    exact List.mem_append_right _ List.mem_cons_self
  case gone =>
    intro s hs hname _ t ht hguid
    rcases hmem t ht with ⟨ht, hother⟩ | ⟨-, hnew⟩
    · obtain rfl := m.wf.eq_of_guid ht hs hguid
      exact hother hname
    · exact hfresh s hs (hguid ▸ hnew)
  case archived =>
    intro s hs hname hclones
    exact absurd (h.clones s hs hname) hclones
  case others =>
    intro s hs hname
    rw [hsnaps]
    exact List.mem_append_left _ (h.mem_snapshots.mpr ⟨hs, hname⟩)
  case nothingElse =>
    intro s hs hname
    rcases hmem s hs with ⟨hs, -⟩ | ⟨h, -⟩
    · exact ⟨s, hs, rfl⟩
    · exact absurd h hname

theorem exec_rename_ok {t : Time} (h : exec (p.renameCall name t) m out m')
    (herr : out.err = none) :
    m.store.snapshot (p.snapshotPath name) ≠ none ∧
      m'.store.filesystems = m.store.filesystems ∧
      m'.store.snapshots = m.store.snapshots.map (fun s => if s.name = p.snapshotPath name
        then { s with name := p.snapshotPath (name ++ "-" ++ t.stamp) } else s) ∧
      m'.store.next = m.store.next := by
  obtain ⟨⟨clock, hserved⟩, -⟩ := h
  obtain ⟨hr, -, hstore⟩ := hserved.of_ok herr
  exact ⟨(refusal_rename.mp hr).1, by rw [hstore]; rfl, by rw [hstore]; rfl, by rw [hstore]; rfl⟩

/-- The rename made room: what was under the name is archived, with clones or without. -/
theorem renamed_overwrites {t : Time} {moved : Output} {m₂ : Machine} (hstore : m₁.store = m.store)
    (hrename : exec (p.renameCall name t) m₁ moved m₂) (hmoved : moved.err = none)
    (hsnap : exec (p.snapshotCall name) m₂ out m') (herr : out.err = none)
    (hnow : ⟨.now, m₁, t, m₁⟩ ∈ tr) :
    p.Overwrites name tr m m' ↔
      ∀ s ∈ m.store.snapshots, s.name = p.snapshotPath name → m.store.clones s ≠ [] := by
  obtain ⟨-, hfs, hmap, hnext⟩ := p.exec_rename_ok hrename hmoved
  obtain ⟨-, hnone, hfs', clock, hsnaps⟩ := p.exec_snapshot_ok hsnap herr
  rw [hstore] at hfs hmap hnext
  have hfs'' : m'.store.filesystems = m.store.filesystems := by rw [hfs', hfs]
  have hkept : ∀ s ∈ m.store.snapshots, (if s.name = p.snapshotPath name
      then { s with name := p.snapshotPath (name ++ "-" ++ t.stamp) } else s) ∈
        m'.store.snapshots := by
    intro s hs
    rw [hsnaps, hmap]
    exact List.mem_append_left _ (List.mem_map_of_mem hs)
  have harchived : ∀ s ∈ m.store.snapshots, s.name = p.snapshotPath name →
      { s with name := p.snapshotPath (name ++ "-" ++ t.stamp) } ∈ m'.store.snapshots := by
    intro s hs hname
    have h := hkept s hs
    rwa [if_pos hname] at h
  constructor
  · intro h s hs hname hclones
    exact h.gone s hs hname hclones _ (harchived s hs hname) rfl
  intro hclones
  constructor
  case filesystems => exact hfs''
  case taken =>
    refine ⟨⟨p.snapshotPath name, p.snapshotPath name, m₂.store.next, clock⟩, ?_, rfl, rfl, ?_⟩
    · rw [hsnaps]
      exact List.mem_append_right _ List.mem_cons_self
    · intro s hs
      rw [hnext]
      exact Nat.ne_of_lt (m.wf.fresh s hs)
  case gone =>
    intro s hs hname hnil
    exact absurd hnil (hclones s hs hname)
  case archived =>
    intro s hs hname _
    exact ⟨t, m₁, hnow, harchived s hs hname, by simp only [Store.clones, hfs'']⟩
  case others =>
    intro s hs hname
    have h := hkept s hs
    rwa [if_neg hname] at h
  case nothingElse =>
    intro s hs hname
    rw [hsnaps, hmap] at hs
    rcases List.mem_append.mp hs with hs | hs
    · obtain ⟨u, hu, rfl⟩ := List.mem_map.mp hs
      refine ⟨u, hu, ?_⟩
      split
      · rfl
      · rfl
    · obtain rfl := List.mem_singleton.mp hs
      exact absurd rfl hname

/-- A destroy that fails though nothing prevents it says nothing of the known reasons. -/
theorem exec_destroy_other (h : exec (p.destroyCall name) m out m') {s : Snapshot}
    (hs : m.store.snapshot (p.snapshotPath name) = some s) (hclones : m.store.clones s = [])
    (herr : out.err ≠ none) :
    out.combined = "" ∨ ∀ text ∈ [missingText, clonesText, existsText],
      contains out.combined text = contains (p.snapshotPath name) text := by
  obtain ⟨hmem, hname⟩ := mem_of_snapshot hs
  have hplain : PlainObject (p.snapshotPath name) := (hname ▸ m.wf.valid s hmem).plain
  have hsel : s ∈ m.store.selected (p.snapshotPath name) :=
    (mem_selected_of_plain hplain).mpr ⟨hmem, hname⟩
  have hr : refuseSnapshots m.store (p.snapshotPath name) = none := by
    unfold refuseSnapshots
    rw [if_neg (List.ne_nil_of_mem hsel), Option.map_eq_none_iff, List.find?_eq_none]
    intro t ht
    obtain ⟨ht, htname⟩ := (mem_selected_of_plain hplain).mp ht
    obtain rfl := m.wf.eq_of_name ht hmem (htname.trans hname.symm)
    simp [hclones]
  obtain ⟨⟨clock, hserved⟩, -⟩ := h
  have hcombined : ∀ why err, (Output.failed why err).combined = why := fun why err => by
    simp [Output.failed, Output.combined]
  generalize m'.store = st' at hserved
  cases hserved with
  | done => exact absurd rfl herr
  | refused err hwhy =>
      simp only [refusal, if_pos (p.at_mem_snapshotPath name), hr] at hwhy
      cases hwhy
  | failed err hother | broke err _ hother =>
      rw [hcombined]
      exact hother.destroy

/-- The reason for a failure was looked for, and was found in the name. -/
structure Mistaken (name : String) (tr : List (Event OsCall OsCall.Reply Machine)) (m : Machine) :
    Prop where
  unused : ∃ s, m.store.snapshot (p.snapshotPath name) = some s ∧ m.store.clones s = []
  failed : ∃ ev ∈ tr, Failed (.destroy false (p.snapshotPath name)) ev
  named : contains (p.snapshotPath name) clonesText = true
  notMissing : ¬ contains (p.snapshotPath name) missingText = true

/-- A successful overwrite does what it is for, but for mistaken reasons. -/
theorem overwrite_iff (h : Runs (p.takeSnapshot name true) m tr (.ok ()) m') :
    p.Overwrites name tr m m' ↔ ¬ p.Mistaken name tr m := by
  obtain ⟨out, m₁, room, result, m₂, rest, hdestroy, hroom, rfl, hlast⟩ := p.runs_takeSnapshot h
  rcases hlast with ⟨⟨err, -, h⟩, -⟩ | ⟨rfl, taken, hsnap, rfl, htaken⟩
  · cases h
  have hok : taken.err = none := htaken.mp rfl
  obtain ⟨hvalid, hnone, -⟩ := p.exec_snapshot_ok hsnap hok
  have hcases := p.exec_destroy_cases hdestroy hvalid.plain
  cases hroom with
  | destroyed herr =>
      rcases hcases with ⟨-, h⟩ | hcleared
      · exact absurd herr h
      · refine iff_of_true (p.cleared_overwrites hcleared hsnap hok) ?_
        intro hmistaken
        obtain ⟨ev, hev, hfailed⟩ := hmistaken.failed
        rcases List.mem_cons.mp hev with rfl | hev
        · exact hfailed.2 herr
        · obtain rfl := List.mem_singleton.mp hev
          exact absurd hfailed.1 nofun
  | missing herr hmissing =>
      refine iff_of_true ?_ fun hmistaken => ?_
      · rcases hcases with ⟨hstore, -⟩ | hcleared
        · exact p.cleared_overwrites (p.cleared_of_none hstore (hstore ▸ hnone)) hsnap hok
        · exact p.cleared_overwrites hcleared hsnap hok
      · obtain ⟨s, hs, hclones⟩ := hmistaken.unused
        rcases p.exec_destroy_other hdestroy hs hclones herr with hnil | hsame
        · rw [Missing, hnil] at hmissing
          exact absurd hmissing (by decide)
        · rw [Missing, hsame missingText (by simp)] at hmissing
          exact hmistaken.notMissing hmissing
  | renamed t herr hpresent hcloned hrename hmoved =>
      obtain ⟨s, hs⟩ := Option.ne_none_iff_exists'.mp (p.exec_rename_ok hrename hmoved).1
      have hstore : m₁.store = m.store := by
        rcases hcases with ⟨hstore, -⟩ | hcleared
        · exact hstore
        · obtain ⟨hmem, hname⟩ := mem_of_snapshot hs
          exact absurd hname (hcleared.mem_snapshots.mp hmem).2
      rw [hstore] at hs
      obtain ⟨hmem, hname⟩ := mem_of_snapshot hs
      rw [p.renamed_overwrites hstore hrename hmoved hsnap hok (by simp)]
      constructor
      · intro hclones hmistaken
        obtain ⟨s', hs', hnil⟩ := hmistaken.unused
        obtain ⟨hmem', hname'⟩ := mem_of_snapshot hs'
        exact hclones s' hmem' hname' hnil
      · intro hnot s' hs' hname' hnil
        obtain rfl := m.wf.eq_of_name hs' hmem (hname'.trans hname.symm)
        refine hnot ⟨⟨s', hs, hnil⟩, ⟨_, List.mem_cons_self, rfl, herr⟩, ?_, ?_⟩
        · rcases p.exec_destroy_other hdestroy hs hnil herr with h | hsame
          · rw [Cloned, h] at hcloned
            exact absurd hcloned (by decide)
          · exact (hsame clonesText (by simp)).symm.trans hcloned
        · intro hmissing
          rcases p.exec_destroy_other hdestroy hs hnil herr with h | hsame
          · rw [Cloned, h] at hcloned
            exact absurd hcloned (by decide)
          · exact hpresent ((hsame missingText (by simp)).trans hmissing)

theorem overwrite_demo : ∃ tr, demoProvider.Overwrites "base" tr demoTaken
    (finish quiet (demoProvider.takeSnapshot "base" true) demoTaken) := by
  obtain ⟨tr, hrun⟩ := serve_runs quiet (demoProvider.takeSnapshot "base" true) demoTaken
    (show _ = Except.ok () from rfl)
  exact ⟨tr, (demoProvider.overwrite_iff hrun).mpr fun h => absurd h.named (by decide)⟩

/-- A snapshot whose name reads like a reason. -/
def demoNamed : Machine :=
  finish quiet (demoProvider.takeSnapshot "has dependent clones" false) demo

/-- It is busy, and so it is archived: though it has no clones it is not gone. -/
theorem overwrite_mistaken : ∃ tr m',
    Runs (demoProvider.takeSnapshot "has dependent clones" true) demoNamed tr (.ok ()) m' ∧
      ¬ demoProvider.Overwrites "has dependent clones" tr demoNamed m' := by
  obtain ⟨tr, hrun⟩ := serve_runs (busy false "tank/mysql@has dependent clones")
    (demoProvider.takeSnapshot "has dependent clones" true) demoNamed
    (show _ = Except.ok () by decide +kernel)
  refine ⟨tr, _, hrun, ?_⟩
  intro h
  have hgone := h.gone ⟨"tank/mysql@has dependent clones", "tank/mysql@has dependent clones", 0, 0⟩
    (by decide +kernel) (by decide) (by decide +kernel)
  revert hgone
  decide +kernel

end BranchDB.AgentProvider
