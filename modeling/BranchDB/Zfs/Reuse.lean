/-
# `BranchDB.Zfs.Reuse` — what `CreateClone` takes for its own, and what it takes back

    dataset there before    it stays as it was, with the origin it has
    not there, success      it is a clone of the snapshot (`createClone_origin`)
    not there, error        it is not there, if `zfs clone` fails only having made nothing

An attempt that is repeated finds the clone by what `zfs clone` says of it, and that looks at
the snapshot first: with the snapshot renamed or gone the repetition fails (`createClone_again`).
-/
import BranchDB.Zfs.Survival

namespace BranchDB.AgentProvider

open Concur Strings Zfs Machine

variable (p : AgentProvider) {snapshot cloneName : String} {m m₁ m' : Machine}
  {tr : List (Event OsCall OsCall.Reply Machine)} {r : Except GoError VolumeInfo} {out : Output}

/-! ## Origins -/

/-- `zfs clone` makes a clone where there was nothing, or changes nothing; it may fail all the
same. -/
theorem exec_clone_cases {snap target : String} (h : exec (.zfs (.clone snap target)) m out m') :
    (m'.store.datasets = m.store.datasets ∧ out.err ≠ none) ∨
      ('@' ∉ target.toList ∧ m.store.filesystem target = none ∧
        ∃ s, m.store.snapshot snap = some s ∧
          m'.store.datasets = m.store.datasets ++ [(target, some s.guid)]) := by
  obtain ⟨⟨clock, hserved⟩, -⟩ := h
  have hmade : refusal m.store (.clone snap target) = none →
      m'.store = effect clock m.store (.clone snap target) →
      '@' ∉ target.toList ∧ m.store.filesystem target = none ∧
        ∃ s, m.store.snapshot snap = some s ∧
          m'.store.datasets = m.store.datasets ++ [(target, some s.guid)] := by
    intro hr hstore
    obtain ⟨hsnap, hvalid, hnew, -⟩ := refusal_clone.mp hr
    obtain ⟨s, hs⟩ := Option.ne_none_iff_exists'.mp hsnap
    exact ⟨hvalid.not_mem, hnew, s, hs, by rw [hstore, datasets_clone, hs]; rfl⟩
  rcases hserved.cases_effect with hstore | ⟨hr, hstore⟩
  · by_cases herr : out.err = none
    · obtain ⟨hr, -, hstore⟩ := hserved.of_ok herr
      exact Or.inr (hmade hr hstore)
    · exact Or.inl ⟨by rw [hstore], herr⟩
  · exact Or.inr (hmade hr hstore)

/-- A dataset that was under the path of the clone stays, with its origin. -/
theorem createClone_keeps (h : Runs (p.createClone snapshot cloneName) m tr r m')
    {origin : Option Nat} (hmem : (p.clonePath cloneName, origin) ∈ m.store.datasets) :
    (p.clonePath cloneName, origin) ∈ m'.store.datasets :=
  (p.survives_createClone (.refl hmem) h).dataset

/-- Where there was no dataset, the one that is there on success is a clone of the snapshot. -/
theorem createClone_origin {vol : VolumeInfo}
    (h : Runs (p.createClone snapshot cloneName) m tr (.ok vol) m') :
    (∀ origin, (p.clonePath cloneName, origin) ∈ m.store.datasets →
      (p.clonePath cloneName, origin) ∈ m'.store.datasets) ∧
    (m.store.filesystem (p.clonePath cloneName) = none → '@' ∉ (p.clonePath cloneName).toList →
      ∃ s, m.store.snapshot (p.snapshotPath snapshot) = some s ∧
        (p.clonePath cloneName, some s.guid) ∈ m'.store.datasets) := by
  refine ⟨fun origin hmem => p.createClone_keeps h hmem, ?_⟩
  intro hnew hat
  obtain ⟨out, m₁, rest, created, hclone, -, hexported⟩ := p.runs_createClone_ok h
  have hsame : m'.store.datasets = m₁.store.datasets := hexported.datasets
  rcases exec_clone_cases hclone with ⟨hkept, -⟩ | ⟨-, -, s, hs, hmade⟩
  · -- Nothing was made, so what is there now was there before.
    obtain ⟨origin, hmem⟩ := m'.wf.filesystem_of_exists hexported.exists hat
    rw [hsame, hkept] at hmem
    exact absurd hnew (filesystem_ne_none.mpr ⟨origin, hmem⟩)
  · refine ⟨s, hs, ?_⟩
    rw [hsame, hmade]
    exact List.mem_append_right _ List.mem_cons_self

theorem createClone_origin_demo : (demoProvider.clonePath "feature", some 0) ∈
    demoBranch.store.datasets := by
  obtain ⟨tr, hrun⟩ := serve_runs quiet (demoProvider.createClone "base" "feature") demoTaken
    (show _ = Except.ok ⟨"feature", "10.0.0.1", "/tank/mysql/branches/feature"⟩ by decide +kernel)
  obtain ⟨s, hs, hmem⟩ :=
    (demoProvider.createClone_origin hrun).2 (by decide +kernel) (by decide +kernel)
  have hs' : demoTaken.store.snapshot (demoProvider.snapshotPath "base") =
      some ⟨"tank/mysql@base", "tank/mysql@base", 0, 0⟩ := by decide +kernel
  rw [hs'] at hs
  obtain rfl := Option.some.inj hs
  exact hmem

/-- Of two snapshots, a branch is made of the second. -/
def demoOther : Machine := finish quiet (demoProvider.takeSnapshot "other" false) demoTaken

def demoForeign : Machine := finish quiet (demoProvider.createClone "other" "feature") demoOther

/-- To a branch of the same name of the first, the clone of the second is good enough. -/
theorem createClone_foreign : ∃ tr vol m',
    Runs (demoProvider.createClone "base" "feature") demoForeign tr (.ok vol) m' ∧
      m'.store.filesystem (demoProvider.clonePath "feature") ≠ none ∧
      ∀ m ∈ [demo, demoTaken, demoOther, demoForeign], ∀ s ∈ m.store.snapshots,
        s.name = demoProvider.snapshotPath "base" →
          (demoProvider.clonePath "feature", some s.guid) ∉ m'.store.datasets := by
  obtain ⟨tr, hrun⟩ := serve_runs quiet (demoProvider.createClone "base" "feature") demoForeign
    (show _ = Except.ok ⟨"feature", "10.0.0.1", "/tank/mysql/branches/feature"⟩ by decide +kernel)
  exact ⟨tr, _, _, hrun, by decide +kernel, by decide +kernel⟩

/-! ## Rollback -/

/-- A rollback that was tried succeeded. -/
def RolledBack (cloneName : String) (tr : List (Event OsCall OsCall.Reply Machine)) : Prop :=
  ∀ ev ∈ tr, ¬ Failed (.destroy true (p.clonePath cloneName)) ev

/-- `zfs clone` failed, and a clone had been made. -/
def LeftBehind (snapshot cloneName : String) (tr : List (Event OsCall OsCall.Reply Machine)) :
    Prop :=
  ∃ ev ∈ tr, Failed (.clone (p.snapshotPath snapshot) (p.clonePath cloneName)) ev ∧
    ev.after.store.datasets ≠ ev.before.store.datasets

variable {p} in
theorem Exported.calls {created : Bool} (h : p.Exported cloneName created m tr r m') :
    ∀ ev ∈ tr, ev.call ∈ [.zfs (.share (p.clonePath cloneName)),
      .zfs (.getSharenfs (p.clonePath cloneName)), .hostname,
      .zfs (.destroy true (p.clonePath cloneName))] := by
  cases h <;> simp

variable {p} in
theorem Exported.not_clone {created : Bool} (h : p.Exported cloneName created m tr r m')
    {snap target : String} : ∀ ev ∈ tr, ¬ Failed (.clone snap target) ev := by
  intro ev hev hfailed
  have hcall := h.calls ev hev
  rw [hfailed.call] at hcall
  simp at hcall

theorem leftBehind_iff {rest : List (Event OsCall OsCall.Reply Machine)}
    (hrest : ∀ ev ∈ rest, ¬ Failed (.clone (p.snapshotPath snapshot) (p.clonePath cloneName)) ev) :
    p.LeftBehind snapshot cloneName
        (⟨.zfs (.clone (p.snapshotPath snapshot) (p.clonePath cloneName)), m, out, m₁⟩ :: rest) ↔
      out.err ≠ none ∧ m₁.store.datasets ≠ m.store.datasets := by
  constructor
  · rintro ⟨ev, hev, hfailed, hne⟩
    rcases List.mem_cons.mp hev with rfl | hev
    · exact ⟨hfailed.2, hne⟩
    · exact absurd hfailed (hrest ev hev)
  · rintro ⟨herr, hne⟩
    exact ⟨_, List.mem_cons_self, ⟨rfl, herr⟩, hne⟩

/-- Where the rollback succeeds, only a clone that `zfs clone` denies is left behind. -/
theorem createClone_rollback {err : GoError}
    (h : Runs (p.createClone snapshot cloneName) m tr (.error err) m')
    (hrolled : p.RolledBack cloneName tr) :
    m'.store.datasets = m.store.datasets ↔ ¬ p.LeftBehind snapshot cloneName tr := by
  obtain ⟨out, m₁, rest, hclone, rfl, hpath⟩ := p.runs_createClone h
  rcases hpath with ⟨hok, hexported⟩ | ⟨herr, -, hexported⟩ | ⟨herr, -, -, rfl, rfl⟩
  · rw [p.leftBehind_iff hexported.not_clone]
    refine iff_of_true ?_ fun h => h.1 hok
    rcases exec_clone_cases hclone with ⟨-, h⟩ | ⟨hat, hnew, s, -, hmade⟩
    · exact absurd hok h
    cases hexported with
    | left err _ _ _ _ hcreated => cases hcreated
    | @takenBack _ _ destroyed _ m₂ _ err hshare _ hget _ _ hdestroy =>
        have hdone : destroyed.err = none := by
          by_contra herr
          exact hrolled ⟨.zfs (.destroy true (p.clonePath cloneName)), m₂, destroyed, m'⟩ (by simp)
            ⟨rfl, herr⟩
        obtain ⟨⟨clock, hserved⟩, -⟩ := hdestroy
        rw [(hserved.of_ok hdone).2.2, datasets_destroy hat, exec_zfs_datasets hget trivial,
          exec_zfs_datasets hshare trivial, hmade]
        have hother : ∀ x ∈ m.store.datasets, x.1 ≠ p.clonePath cloneName := by
          rintro ⟨name, origin⟩ hmem rfl
          exact filesystem_ne_none.mpr ⟨origin, hmem⟩ hnew
        simpa using hother
  · rw [p.leftBehind_iff hexported.not_clone]
    cases hexported with
    | left err hshare _ hget =>
        rw [exec_zfs_datasets hget trivial, exec_zfs_datasets hshare trivial]
        simp [herr]
    | takenBack err _ _ _ _ hcreated => cases hcreated
  · rw [p.leftBehind_iff fun ev hev => absurd hev List.not_mem_nil]
    simp [herr]

/-! ## Repetition -/

/-- The addresses the host was found under. -/
def addresses (tr : List (Event OsCall OsCall.Reply Machine)) : List String :=
  tr.filterMap fun
    | ⟨.hostname, _, a, _⟩ => some (address a)
    | _ => none

/-- Where the share failed, the probe said that the clone is shared. -/
def ShareHolds (cloneName : String) (tr : List (Event OsCall OsCall.Reply Machine)) : Prop :=
  ∀ ev ∈ tr, match ev with
    | ⟨.zfs c, _, out, _⟩ => c = .getSharenfs (p.clonePath cloneName) → Shared out
    | _ => True

/-- `zfs clone` said that the dataset exists. -/
def Reuses (snapshot cloneName : String) (tr : List (Event OsCall OsCall.Reply Machine)) : Prop :=
  ∃ ev ∈ tr, match ev with
    | ⟨.zfs c, _, out, _⟩ =>
      c = .clone (p.snapshotPath snapshot) (p.clonePath cloneName) ∧ Reused out
    | _ => False

variable {p} in
theorem Exported.volume {created : Bool} {vol : VolumeInfo}
    (h : p.Exported cloneName created m tr (.ok vol) m') :
    ∃ a, addresses tr = [address a] ∧ vol = p.volume cloneName a := by
  cases h with
  | shared a | wasShared a => exact ⟨a, rfl, rfl⟩

variable {p} in
theorem Exported.succeeds {created : Bool} (h : p.Exported cloneName created m tr r m')
    (hshare : p.ShareHolds cloneName tr) : ∃ vol, r = .ok vol := by
  cases h with
  | shared a | wasShared a => exact ⟨_, rfl⟩
  | left err _ _ _ hnot | takenBack err _ _ _ hnot =>
      exact absurd (hshare _ (List.mem_cons_of_mem _ List.mem_cons_self) rfl) hnot

/-- A success tells where the host was found. -/
theorem createClone_volume {vol : VolumeInfo}
    (h : Runs (p.createClone snapshot cloneName) m tr (.ok vol) m') :
    ∃ a, addresses tr = [address a] ∧ vol = p.volume cloneName a := by
  obtain ⟨out, m₁, rest, created, -, rfl, hexported⟩ := p.runs_createClone_ok h
  exact hexported.volume

/-- The repetition finds the clone exactly if `zfs clone` says that it is there. -/
theorem createClone_again {m₀ : Machine} {tr₀ : List (Event OsCall OsCall.Reply Machine)}
    {vol : VolumeInfo} (h₀ : Runs (p.createClone snapshot cloneName) m₀ tr₀ (.ok vol) m₁)
    (h : Runs (p.createClone snapshot cloneName) m tr r m')
    (hthere : m.store.filesystem (p.clonePath cloneName) ≠ none)
    (hshare : p.ShareHolds cloneName tr) (hhost : addresses tr ⊆ addresses tr₀) :
    (r = .ok vol ∧ m'.store.datasets = m.store.datasets) ↔ p.Reuses snapshot cloneName tr := by
  obtain ⟨out, m₂, rest, hclone, rfl, hpath⟩ := p.runs_createClone h
  obtain ⟨hkept, herr⟩ : m₂.store.datasets = m.store.datasets ∧ out.err ≠ none := by
    rcases exec_clone_cases hclone with h | ⟨-, hnone, -⟩
    · exact h
    · exact absurd hnone hthere
  rcases hpath with ⟨hok, -⟩ | ⟨-, hreused, hexported⟩ | ⟨-, hnot, ⟨err, rfl⟩, rfl, rfl⟩
  · exact absurd hok herr
  · refine iff_of_true ?_ ⟨_, List.mem_cons_self, rfl, hreused⟩
    obtain ⟨vol', rfl⟩ := hexported.succeeds fun ev hev => hshare ev (List.mem_cons_of_mem _ hev)
    obtain ⟨a, ha, rfl⟩ := hexported.volume
    refine ⟨?_, hexported.datasets.trans hkept⟩
    obtain ⟨a₀, ha₀, rfl⟩ := p.createClone_volume h₀
    have haddress : address a ∈ addresses tr₀ := hhost (by
      show address a ∈ addresses rest
      rw [ha]
      exact List.mem_singleton_self _)
    rw [ha₀, List.mem_singleton] at haddress
    simp only [volume, haddress]
  · refine iff_of_false (fun h => nomatch h.1) ?_
    rintro ⟨ev, hev, h⟩
    obtain rfl := List.mem_singleton.mp hev
    exact hnot h.2

/-- Where the clone is there, an undisturbed `zfs clone` says so if the snapshot is there too. -/
theorem refusal_clone_reused {st : Store} {snap target why : String} (hwf : st.WF)
    (hthere : st.filesystem target ≠ none) (hr : refusal st (.clone snap target) = some why) :
    contains why existsText = true ↔
      st.snapshot snap ≠ none ∨ contains snap existsText = true := by
  have htext : existsText ∈ [missingText, clonesText, existsText] := by simp
  obtain ⟨f, hf⟩ := Option.ne_none_iff_exists'.mp hthere
  obtain ⟨hmem, rfl⟩ := mem_of_filesystem hf
  have hvalid := hwf.validFilesystems f hmem
  by_cases hsnap : st.snapshot snap = none
  · rw [refusal, if_pos hsnap] at hr
    obtain rfl := Option.some.inj hr
    rw [contains_complaint_object htext (by decide) (by decide)]
    exact (or_iff_right (not_not.mpr hsnap)).symm
  · rw [refusal, if_neg hsnap, if_neg (not_not.mpr hvalid), if_pos hthere] at hr
    obtain rfl := Option.some.inj hr
    refine iff_of_true ((contains_complaint htext).mpr (Or.inr (Or.inr ?_))) (Or.inl hsnap)
    decide

/-! ## Main results -/

/-- What was there stays; what was not is taken back, but for a clone that `zfs clone` denies;
and a repetition succeeds exactly if `zfs clone` says that the clone is there. -/
theorem createClone_idempotent (h : Runs (p.createClone snapshot cloneName) m tr r m') :
    (∀ origin, (p.clonePath cloneName, origin) ∈ m.store.datasets →
      (p.clonePath cloneName, origin) ∈ m'.store.datasets) ∧
    (∀ err, r = .error err → p.RolledBack cloneName tr →
      (m'.store.datasets = m.store.datasets ↔ ¬ p.LeftBehind snapshot cloneName tr)) ∧
    ∀ m₀ tr₀ vol m₁, Runs (p.createClone snapshot cloneName) m₀ tr₀ (.ok vol) m₁ →
      m.store.filesystem (p.clonePath cloneName) ≠ none → p.ShareHolds cloneName tr →
      addresses tr ⊆ addresses tr₀ →
      ((r = .ok vol ∧ m'.store.datasets = m.store.datasets) ↔ p.Reuses snapshot cloneName tr) := by
  refine ⟨fun origin hmem => p.createClone_keeps h hmem, ?_, ?_⟩
  · rintro err rfl hrolled
    exact p.createClone_rollback h hrolled
  · intro m₀ tr₀ vol m₁ h₀ hthere hshare hhost
    exact p.createClone_again h₀ h hthere hshare hhost

/-- What a command was answered. -/
def outputs (c : Command) (tr : List (Event OsCall OsCall.Reply Machine)) : List Output :=
  tr.filterMap fun
    | ⟨.zfs c', _, out, _⟩ => if c' = c then some out else none
    | _ => none

theorem mem_outputs {c : Command} (h : ⟨.zfs c, m, out, m'⟩ ∈ tr) : out ∈ outputs c tr :=
  List.mem_filterMap.mpr ⟨_, h, if_pos rfl⟩

theorem not_failed_of_outputs {c : Command} (h : ∀ out ∈ outputs c tr, out.err = none) :
    ∀ ev ∈ tr, ¬ Failed c ev := by
  rintro ⟨call, m, reply, m'⟩ hev hfailed
  cases call with
  | zfs c' =>
      obtain ⟨rfl, herr⟩ := hfailed
      exact herr (h reply (mem_outputs hev))
  | hostname | readThreads | writeThreads | now | visit => exact hfailed

theorem shareHolds_of_outputs
    (h : ∀ out ∈ outputs (.getSharenfs (p.clonePath cloneName)) tr, Shared out) :
    p.ShareHolds cloneName tr := by
  rintro ⟨call, m, reply, m'⟩ hev
  cases call with
  | zfs c =>
      intro hc
      subst hc
      exact h reply (mem_outputs hev)
  | hostname | readThreads | writeThreads | now | visit => exact trivial

/-- Clones cannot be exported; of those there are, it is said all the same that they are. -/
def unexported (probed : Bool) : Host where
  fault c := match c with
    | .share _ => some (.fails "")
    | .getSharenfs _ => if probed then none else some (.fails "")
    | _ => none
  now := quiet.now
  ok c f hf := by
    cases c with
    | share =>
        cases hf
        exact Or.inl rfl
    | getSharenfs =>
        cases probed with
        | true => cases hf
        | false =>
            cases hf
            exact Or.inl rfl
    | snapshot | destroy | rename | clone | shareAll | unshare | getClones | listSnapshots
    | listTree | list => cases hf

/-- The clone is made where it can be exported; repeated where it cannot, but is; and taken back
where it is not. -/
def demoClone (h : Host) (m : Machine) : List (Event OsCall OsCall.Reply Machine) :=
  (demoProvider.createClone "base" "feature").record (serve h) m

theorem runs_demoClone (h : Host) (m : Machine) : Runs (demoProvider.createClone "base" "feature") m
    (demoClone h m) ((demoProvider.createClone "base" "feature").run (serve h) m).1
    (finish h (demoProvider.createClone "base" "feature") m) :=
  Prog.ends_record (exec_serve h) _ m

theorem createClone_idempotent_demo :
    (demoProvider.clonePath "feature", some 0) ∈
      (finish quiet (demoProvider.createClone "base" "feature") demoBranch).store.datasets ∧
    (finish (unexported false) (demoProvider.createClone "base" "feature")
      demoTaken).store.datasets = demoTaken.store.datasets ∧
    ((demoProvider.createClone "base" "feature").run (serve (unexported true)) demoBranch).1 =
      .ok ⟨"feature", "10.0.0.1", "/tank/mysql/branches/feature"⟩ := by
  refine ⟨?_, ?_, ?_⟩
  · exact (demoProvider.createClone_idempotent (runs_demoClone quiet demoBranch)).1 (some 0)
      (by decide +kernel)
  · have hrolled : demoProvider.RolledBack "feature" (demoClone (unexported false) demoTaken) :=
      not_failed_of_outputs (by decide +kernel)
    have hmade : ∀ ev ∈ demoClone (unexported false) demoTaken, ¬ Failed
        (.clone (demoProvider.snapshotPath "base") (demoProvider.clonePath "feature")) ev :=
      not_failed_of_outputs (by decide +kernel)
    have hfailed : ((demoProvider.createClone "base" "feature").run (serve (unexported false))
        demoTaken).1.isOk = false := by
      decide +kernel
    obtain ⟨-, hback, -⟩ :=
      demoProvider.createClone_idempotent (runs_demoClone (unexported false) demoTaken)
    cases hr : ((demoProvider.createClone "base" "feature").run (serve (unexported false))
        demoTaken).1 with
    | ok vol =>
        rw [hr] at hfailed
        cases hfailed
    | error err =>
        refine (hback err hr hrolled).mpr ?_
        rintro ⟨ev, hev, hclone, -⟩
        exact hmade ev hev hclone
  · have hfirst : ((demoProvider.createClone "base" "feature").run (serve quiet) demoTaken).1 =
        .ok ⟨"feature", "10.0.0.1", "/tank/mysql/branches/feature"⟩ := by
      decide +kernel
    have hrun := runs_demoClone quiet demoTaken
    rw [hfirst] at hrun
    have hshared : demoProvider.ShareHolds "feature" (demoClone (unexported true) demoBranch) :=
      demoProvider.shareHolds_of_outputs (by unfold Shared; decide +kernel)
    have hreuses : demoProvider.Reuses "base" "feature" (demoClone (unexported true) demoBranch) :=
      ⟨_, List.mem_cons_self, rfl, by unfold Reused; decide +kernel⟩
    obtain ⟨-, -, hagain⟩ :=
      demoProvider.createClone_idempotent (runs_demoClone (unexported true) demoBranch)
    exact ((hagain _ _ _ _ hrun (by decide +kernel) hshared (by decide +kernel)).mpr hreuses).1

/-- A `zfs clone` that fails otherwise is the end. -/
theorem createClone_denied {err : String}
    (h : exec (.zfs (.clone (p.snapshotPath snapshot) (p.clonePath cloneName))) m out m')
    (herr : out.err = some err) (hnot : ¬ Reused out) :
    Runs (p.createClone snapshot cloneName) m
      [⟨.zfs (.clone (p.snapshotPath snapshot) (p.clonePath cloneName)), m, out, m'⟩]
      (.error (errClone (p.snapshotPath snapshot) (p.clonePath cloneName) err out.combined))
      m' := by
  rw [createClone_eq]
  refine runs_zfs_bind.mpr ⟨out, m', [], h, ?_, rfl⟩
  unfold afterClone
  simp only [herr]
  rw [if_neg (show ¬ contains out.combined "dataset already exists" = true from hnot)]
  exact .ret

/-- The snapshot of the branch is archived, and then no new one is taken. -/
def demoArchived : Machine :=
  finish (failing (.snapshot "tank/mysql@base")) (demoProvider.takeSnapshot "base" true) demoBranch

theorem demoArchived_store : demoArchived.store =
    { snapshots := [⟨"tank/mysql@base-20260531-150405", "tank/mysql@base", 0, 0⟩]
      filesystems := [⟨"tank/mysql", none, "rw=@10.0.0.0/8", true⟩,
        ⟨"tank/mysql/branches", none, "rw=@10.0.0.0/8", true⟩,
        ⟨"tank/mysql/branches/feature", some 0, "rw=@10.0.0.0/8", true⟩]
      next := 1 } := by decide +kernel

/-- A clone is made, and denied.  And one is there, but its snapshot is archived. -/
theorem createClone_not_idempotent :
    (∃ tr err m', Runs (demoProvider.createClone "base" "feature") demoTaken tr (.error err) m' ∧
      demoProvider.RolledBack "feature" tr ∧ m'.store.datasets ≠ demoTaken.store.datasets) ∧
    ∃ tr₀ vol tr err m',
      Runs (demoProvider.createClone "base" "feature") demoTaken tr₀ (.ok vol) demoBranch ∧
      demoArchived.store.filesystem (demoProvider.clonePath "feature") ≠ none ∧
      Runs (demoProvider.createClone "base" "feature") demoArchived tr (.error err) m' ∧
      demoProvider.ShareHolds "feature" tr ∧ addresses tr ⊆ addresses tr₀ := by
  constructor
  · have hclone := exec_serve (breaking (.clone (demoProvider.snapshotPath "base")
      (demoProvider.clonePath "feature"))) (.zfs (.clone (demoProvider.snapshotPath "base")
        (demoProvider.clonePath "feature"))) demoTaken
    have hrun := demoProvider.createClone_denied hclone
      (show _ = some "exit status 1" by decide +kernel) (by unfold Reused; decide +kernel)
    refine ⟨_, _, _, hrun, ?_, by decide +kernel⟩
    intro ev hev hfailed
    obtain rfl := List.mem_singleton.mp hev
    exact nomatch hfailed.1
  · obtain ⟨tr₀, hfirst⟩ := serve_runs quiet (demoProvider.createClone "base" "feature") demoTaken
      (show _ = Except.ok ⟨"feature", "10.0.0.1", "/tank/mysql/branches/feature"⟩ by decide +kernel)
    have hout : (serve quiet (.zfs (.clone (demoProvider.snapshotPath "base")
        (demoProvider.clonePath "feature"))) demoArchived).1 = .failed
          (complaint "cannot open" "tank/mysql@base" missingText) "exit status 1" := by
      rw [serve_zfs, demoArchived_store]
      decide +kernel
    have hclone := exec_serve quiet (.zfs (.clone (demoProvider.snapshotPath "base")
        (demoProvider.clonePath "feature"))) demoArchived
    rw [hout] at hclone
    have hrun := demoProvider.createClone_denied hclone rfl (by unfold Reused; decide +kernel)
    have hthere : demoArchived.store.filesystem (demoProvider.clonePath "feature") ≠ none := by
      rw [demoArchived_store]
      decide +kernel
    refine ⟨tr₀, _, _, _, _, hfirst, hthere, hrun, ?_, nofun⟩
    intro ev hev
    obtain rfl := List.mem_singleton.mp hev
    intro hget
    cases hget

end BranchDB.AgentProvider
