/-
# `BranchDB.Operator.Phases` — the phase machine

The state transition diagram of a DatabaseBranch, as a condition on one status write
(`Diagram`), and that every status write of every run meets it.  Once a CR is Ready
nothing is created for it again, and what users connect with stays as it is.

         ┌──────────────── retry ────────────────┐
         ▼                                       │
    "" ─▶ Creating ──▶ Ready                     │
             └──────▶ Error (creation) ──────────┘
                                                    deletion timestamp
    any phase ──▶ Deleting ──▶ Error (deletion) ──▶ Deleting ─ ─ ▶ gone
-/
import BranchDB.Operator.Healthy

namespace BranchDB.Operator

open Concur Relation

variable {S : Setting}

/-- The diagram, for the write that replaces `old` by `new`. -/
structure Diagram (old new : DatabaseBranch) : Prop where
  uid : new.uid = old.uid
  deletionTimestamp : new.deletionTimestamp = old.deletionTimestamp
  phase : new.status.phase ∈ [.creating, .ready, .error, .deleting]
  creating : new.status.phase = .creating → old.deletionTimestamp = none ∧
    old.status.phase ∈ [.unset, .pending, .creating, .error]
  ready : new.status.phase = .ready → old.deletionTimestamp = none ∧ old.status.phase = .creating
  error : new.status.phase = .error →
    CreationError new.status.message ∨ DeletionError new.status.message
  creationError : new.status.phase = .error → CreationError new.status.message →
    old.deletionTimestamp = none ∧ old.status.phase = .creating
  deletionError : new.status.phase = .error → DeletionError new.status.message →
    old.deletionTimestamp.isSome
  deleting : new.status.phase = .deleting → old.deletionTimestamp.isSome
  leftReady : old.status.phase = .ready → new.status.phase ≠ .ready →
    old.deletionTimestamp.isSome

/-! ## The reconciler's writes follow it -/

/-- The message of an error tells which flow failed. -/
theorem CreationError.not_deletionError {message : String} (h : CreationError message) :
    ¬ DeletionError message := by
  intro h'
  cases h <;> generalize hm : (GoError.wrap _ _).msg = message at h' <;> cases h' <;>
  · replace hm := congrArg String.toList hm
    simp [GoError.wrap] at hm

theorem StatusWrite.diagram {reading : Option Int} {old new : DatabaseBranch} (hold : Fine old)
    (huid : new.uid = old.uid) (hdt : new.deletionTimestamp = old.deletionTimestamp)
    (h : StatusWrite reading old new.status) : Diagram old new := by
  generalize hst : new.status = st at h
  cases h with
  | creating hnone _ hne =>
      have hphase : old.status.phase ∈ [.unset, .pending, .creating, .error] := by
        cases hp : old.status.phase with
        | ready => exact absurd hp hne
        | deleting => exact absurd (hold.deleting hp) (by simp [hnone])
        | unset | pending | creating | error => simp
      constructor <;> simp [hst, huid, hdt, hnone, hphase, hne]
  | ready hnone _ hphase _ =>
      constructor <;> simp [hst, huid, hdt, hnone, hphase, readyStatus]
  | createError hnone _ hphase hmsg =>
      constructor <;> simp [hst, huid, hdt, hnone, hphase, hmsg, hmsg.not_deletionError]
  | deleting hsome _ =>
      constructor <;> simp [hst, huid, hdt, hsome]
  | @deleteError message hsome _ hphase hmsg =>
      have hne : ¬ CreationError message := fun hc => hc.not_deletionError hmsg
      constructor <;> simp [hst, huid, hdt, hsome, hphase, hmsg, hne]

/-- A status write that a Reconcile commits follows the diagram. -/
theorem Logged.diagram {w : World} {e : Call} {run : Nat} {old new : DatabaseBranch}
    {reading : Option Int} (hinv : Inv w) (hg : Guar e w)
    (h : Logged w e (.statusWritten run old new reading)) : Diagram old new := by
  cases h with
  | @statusWritten b _ hacc =>
      obtain ⟨v, hv, -, st, hw, rfl⟩ := hg
      obtain ⟨rfl, -⟩ := accept_version hinv hv rfl hacc
      rw [w.replace_fst]
      exact StatusWrite.diagram (hinv.fine old hv) rfl rfl hw

/-! ## Over a run -/

/-- The CR `u` was Ready, and since `log` nothing was created for it. -/
structure Settled (v : DatabaseBranch) (log : List Event) (w : World) : Prop where
  version : v ∈ w.crs.versions
  quiet : ∃ newer, w.log = newer ++ log ∧ ∀ e ∈ newer, ¬ e.Invokes v.uid

theorem diagram_preserved (main : Prog Call Call.Reply Outcome) :
    (system S main).Preserved contract fun w =>
      ∀ run old new reading, .statusWritten run old new reading ∈ w.log → Diagram old new where
  env w w' _ hJ henv := by
    rw [(show Env S w w' from henv).sameRun.log]
    exact hJ
  start w w' _ hJ hst := by
    cases (show w' = _ from hst)
    exact hJ
  call e w r w' hinv hJ hg hex := by
    intro run old new reading hev
    rcases exec_grown hex with hlog | ⟨ev, hl, hlog⟩
    · exact hJ run old new reading (hlog ▸ hev)
    · rw [hlog] at hev
      rcases List.mem_cons.mp hev with rfl | hev
      · exact hl.diagram hinv hg
      · exact hJ run old new reading hev

theorem settled_preserved {v : DatabaseBranch} (hready : v.status.phase = .ready)
    (log : List Event) (main : Prog Call Call.Reply Outcome) :
    (system S main).Preserved contract (Settled v log) where
  env w w' _ hJ henv := by
    refine ⟨(show Env S w w' from henv).change.versions hJ.version, ?_⟩
    rw [(show Env S w w' from henv).sameRun.log]
    exact hJ.quiet
  start w w' _ hJ hst := by
    cases (show w' = _ from hst)
    exact ⟨hJ.version, hJ.quiet⟩
  call e w r w' hinv hJ hg hex := by
    refine ⟨(exec_change hinv hg hex).versions hJ.version, ?_⟩
    obtain ⟨newer, hnewer, hquiet⟩ := hJ.quiet
    rcases exec_grown hex with hlog | ⟨ev, hl, hlog⟩
    · exact ⟨newer, hlog.trans hnewer, hquiet⟩
    · refine ⟨ev :: newer, hlog.trans (congrArg _ hnewer), ?_⟩
      intro e' he'
      rcases List.mem_cons.mp he' with rfl | he'
      · -- what is created for is not Ready
        intro hin
        obtain ⟨hh, u, hh', -, hnever⟩ := hl.invokes hg hin
        rw [hh, Option.some.injEq] at hh'
        exact hnever v hJ.version hh' hready
      · exact hquiet e' he'

/-- In every run, every status write follows the diagram; and once a version `v` of a CR
was Ready, nothing is created for that CR any more, it leaves Ready only to be deleted,
and its hosts, ports and expiry stay those of `v`. -/
theorem phase_machine {externalHost : String} {c : Config Call Call.Reply World Outcome}
    (hc : (system S (reconcile (reconciler externalHost) S.name)).Reach c) :
    (∀ run old new reading, .statusWritten run old new reading ∈ c.state.log → Diagram old new) ∧
    ∀ v ∈ c.state.crs.versions, v.status.phase = .ready →
      ∀ c', ReflTransGen (system S (reconcile (reconciler externalHost) S.name)).Step c c' →
        (∃ newer, c'.state.log = newer ++ c.state.log ∧ ∀ e ∈ newer, ¬ e.Invokes v.uid) ∧
        ∀ cur, c'.state.crs.obj = some cur → cur.uid = v.uid →
          (cur.status.phase = .ready ∨ cur.deletionTimestamp.isSome) ∧
          cur.status.endpoint = v.status.endpoint := by
  have hsound := reconcile_sound S externalHost
  refine ⟨(diagram_preserved _).reach hsound (fun w hinit => ?_) hc, ?_⟩
  · simp [hinit.log]
  · intro v hv hready c' hs
    have hset : Settled v c.state.log c'.state :=
      (settled_preserved hready _ _).steps hsound hc ⟨hv, [], rfl, fun _ he => nomatch he⟩ hs
    refine ⟨hset.quiet, ?_⟩
    intro cur hcur huid
    have holder := ((hc.trans hs).inv hsound).older v hset.version cur hcur huid.symm
    exact ⟨holder.ready hready, holder.endpoint hready⟩

theorem phase_machine_demo :
    (∀ run old new reading,
      .statusWritten run old new reading ∈ (demoReady ⟨"base", 1, "mysql", ""⟩).log →
        Diagram old new) ∧
    ∀ v ∈ (demoReady ⟨"base", 1, "mysql", ""⟩).crs.versions, v.status.phase = .ready →
      ∀ c', ReflTransGen (system demo demoReconcile).Step
          ⟨demoReady ⟨"base", 1, "mysql", ""⟩, none⟩ c' →
        (∃ newer, c'.state.log = newer ++ (demoReady ⟨"base", 1, "mysql", ""⟩).log ∧
          ∀ e ∈ newer, ¬ e.Invokes v.uid) ∧
        ∀ cur, c'.state.crs.obj = some cur → cur.uid = v.uid →
          (cur.status.phase = .ready ∨ cur.deletionTimestamp.isSome) ∧
          cur.status.endpoint = v.status.endpoint :=
  phase_machine (reach_demoReady _)

end BranchDB.Operator
