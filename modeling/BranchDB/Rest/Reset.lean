/-
# `BranchDB.Rest.Reset` — which branches a full refresh takes along

A reset deletes the CRs of a database type and has the agent empty the dataset of that type.
Which CRs are of the type is decided here, by comparing `spec.databaseType` with the type
given; which dataset is emptied is decided in the agent.  The two agree only as long as
nobody leaves a type out: a CR without one lives in the agent's default dataset but is none
of the type of that dataset (`reset_leaves_branch`), and a request without one takes the
CRs of every type.  Besides, several types may share a dataset; a body that does not decode
counts as one without a type; and a CR whose Delete failed is left behind.  `reset_scoped_iff`
says when none of this happens.
-/
import BranchDB.K8sDatabase.Provider
import BranchDB.Rest.Gc
import BranchDB.ZfsAgent.Isolation

namespace BranchDB.Rest

open Concur

/-! ## Datasets -/

/-- The dataset an agent with the types `keys` serves a request for `resource` from. -/
def servedFrom (keys : List String) (resource dbType : String) : Option String :=
  (Net.wire (Net.utf8 (resource ++ ZfsAgent.dbTypeQuery dbType))).bind fun u =>
    ZfsAgent.servedBy keys (Net.get (Net.parseQuery u.rawQuery) (Net.utf8 "db_type"))

/-- ResetDataset for the type `dbType` empties the dataset in which CreateClone makes the
clone of the CR; `ds` is the dataset each type is configured with. -/
def Endangered (keys : List String) (ds : String → String) (dbType : String)
    (cr : DatabaseBranch) : Prop :=
  ∃ dataset, (servedFrom keys "/reset" dbType).map ds = some dataset ∧
    (servedFrom keys "/clones" cr.spec.databaseType).map ds = some dataset

/-! ## The calls of a reset -/

/-- The type a body gives, "" if it gives none. -/
def givenType (body : Body) : String := (decode resetFields {} body).value.dbType

/-- The reset deletes the CR. -/
def Chosen (dbType : String) (cr : DatabaseBranch) : Prop :=
  dbType = "" ∨ cr.spec.databaseType = dbType

instance (dbType : String) (cr : DatabaseBranch) : Decidable (Chosen dbType cr) :=
  inferInstanceAs (Decidable (_ ∨ _))

/-- The Deletes of a reset that knows the CRs. -/
def deletions (dbType : String) (crs : List DatabaseBranch) : List Call :=
  (crs.filter (Chosen dbType ·)).map fun cr => .client (.delete cr)

variable {answer : (e : Call) → e.Reply} {configured : Bool} {dbType : String} {body : Body}
  {crs : List DatabaseBranch}

theorem trace_deleteBranches :
    (deleteBranches (direct configured) dbType crs).trace answer = deletions dbType crs := by
  induction crs with
  | nil => rfl
  | cons cr rest ih =>
      rw [deleteBranches]
      by_cases hcr : Chosen dbType cr
      · have hskip : ¬ (dbType ≠ "" ∧ cr.spec.databaseType ≠ dbType) := by
          rintro ⟨hne, hdiff⟩
          exact hcr.elim hne hdiff
        rw [if_neg hskip, deletions, List.filter_cons_of_pos (by simpa using hcr), List.map_cons,
          ← deletions, ← ih]
        show Prog.trace answer (Prog.perform (Call.client (.delete cr)) >>= _) = _
        rw [Prog.trace_bind, Prog.trace_perform, Prog.eval_perform, List.singleton_append]
        refine congrArg _ ?_
        cases answer (.client (.delete cr)) with
        | error err => rfl
        | ok u => exact (Prog.trace_bind answer _ _).trans (List.append_nil _)
      · have hskip : dbType ≠ "" ∧ cr.spec.databaseType ≠ dbType := not_or.mp hcr
        rw [if_pos hskip, deletions, List.filter_cons_of_neg (by simpa using hcr), ← deletions, ih]

/-- What a reset does to the CRs it knows, and then to the dataset. -/
def resetCalls (dbType : String) (crs : List DatabaseBranch) : List Call :=
  deletions dbType crs ++ [.volume (.resetDataset dbType)]

theorem trace_resetBranches :
    (resetBranches (direct configured) volumes dbType crs).trace answer =
      resetCalls dbType crs := by
  rw [resetBranches, Prog.trace_bind, trace_deleteBranches, resetCalls]
  refine congrArg _ ?_
  show Prog.trace answer (Prog.perform (Call.volume (.resetDataset dbType)) >>= _) = _
  rw [Prog.trace_bind, Prog.trace_perform, Prog.eval_perform, List.singleton_append]
  refine congrArg _ ?_
  cases answer (.volume (.resetDataset dbType)) with
  | error err => rfl
  | ok u => rfl

theorem trace_handleResetDataset :
    (handleResetDataset (direct configured) body).trace answer =
      if configured then
        .client .list :: (match answer (.client .list) with
          | .error _ => []
          | .ok crs => resetCalls (givenType body) crs)
      else [] := by
  cases configured with
  | false => rfl
  | true =>
      rw [if_pos rfl]
      show Prog.trace answer (Prog.perform (Call.client .list) >>= _) = _
      rw [Prog.trace_bind, Prog.trace_perform, Prog.eval_perform, List.singleton_append]
      refine congrArg _ ?_
      cases answer (.client .list) with
      | error err => rfl
      | ok crs => exact trace_resetBranches

theorem mem_deletions {cr : DatabaseBranch} :
    .client (.delete cr) ∈ deletions dbType crs ↔ cr ∈ crs ∧ Chosen dbType cr := by
  simp [deletions]

theorem reset_mem_resetCalls {t : String} :
    .volume (.resetDataset t) ∈ Call.client .list :: resetCalls dbType crs ↔ t = dbType := by
  simp [resetCalls, deletions]

theorem delete_mem_resetCalls {cr : DatabaseBranch} :
    .client (.delete cr) ∈ Call.client .list :: resetCalls dbType crs ↔
      cr ∈ crs ∧ Chosen dbType cr := by
  simp [resetCalls, mem_deletions]

/-- The dataset is emptied last. -/
theorem before_reset {earlier later : List Call} {t : String}
    (h : Call.client .list :: resetCalls dbType crs =
      earlier ++ .volume (.resetDataset t) :: later) :
    earlier = .client .list :: deletions dbType crs ∧ t = dbType := by
  have hnot : Call.volume (.resetDataset t) ∉ Call.client .list :: deletions dbType crs := by
    simp [deletions]
  rw [resetCalls, ← List.cons_append, List.append_cons_inj_of_notMem hnot List.not_mem_nil] at h
  obtain ⟨hearlier, ht, -⟩ := h
  cases ht
  exact ⟨hearlier.symm, rfl⟩

/-- Of the CRs chosen, only those without a common type are of another. -/
theorem Chosen.defaultType {cr : DatabaseBranch} (h : Chosen dbType cr) (hne : dbType ≠ "") :
    K8s.defaultType cr.spec.databaseType = K8s.defaultType dbType :=
  congrArg _ (h.resolve_left hne)

/-! ## Main results -/

/-- The calls of a reset are scoped: no CR of another type is deleted; before a dataset is
emptied the CRs of all its clones have been marked for deletion; and if the body does not
decode, neither is a CR deleted nor a dataset emptied. -/
structure Scoped (keys : List String) (ds : String → String) (answer : (e : Call) → e.Reply)
    (body : Body) (calls : List Call) : Prop where
  only : ∀ cr, .client (.delete cr) ∈ calls →
    K8s.defaultType cr.spec.databaseType = K8s.defaultType (givenType body)
  complete : ∀ earlier dbType later crs,
    calls = earlier ++ .volume (.resetDataset dbType) :: later →
    answer (.client .list) = .ok crs → ∀ cr ∈ crs, Endangered keys ds dbType cr →
      .client (.delete cr) ∈ earlier ∧ answer (.client (.delete cr)) = .ok ()
  decoded : (decode resetFields {} body).ok = false → (∀ cr, .client (.delete cr) ∉ calls) ∧
    ∀ dbType, .volume (.resetDataset dbType) ∈ calls → servedFrom keys "/reset" dbType = none

variable {keys : List String} {ds : String → String}

/-- Calls by which nothing is deleted are scoped. -/
theorem scoped_of_nothing {calls : List Call} (hdelete : ∀ cr, .client (.delete cr) ∉ calls)
    (hreset : ∀ t, .volume (.resetDataset t) ∉ calls) : Scoped keys ds answer body calls where
  only cr hmem := absurd hmem (hdelete cr)
  complete earlier t later crs hcalls := by
    subst hcalls
    exact absurd (List.mem_append_right earlier List.mem_cons_self) (hreset t)
  decoded _ := ⟨hdelete, fun t hmem => absurd hmem (hreset t)⟩

/-- The CRs are known, and the server goes on. -/
theorem scoped_resetCalls_iff (hlist : answer (.client .list) = .ok crs) :
    Scoped keys ds answer body (.client .list :: resetCalls (givenType body) crs) ↔
      ((decode resetFields {} body).ok = true ∨
        (∀ cr ∈ crs, ¬ Chosen (givenType body) cr) ∧
          servedFrom keys "/reset" (givenType body) = none) ∧
      (givenType body = "" → ∀ cr ∈ crs, K8s.defaultType cr.spec.databaseType = "mysql") ∧
      ∀ cr ∈ crs, Endangered keys ds (givenType body) cr →
        Chosen (givenType body) cr ∧ answer (.client (.delete cr)) = .ok () := by
  constructor
  · intro h
    refine ⟨?_, ?_, ?_⟩
    · cases hok : (decode resetFields {} body).ok with
      | true => exact Or.inl rfl
      | false =>
          obtain ⟨hnone, hreset⟩ := h.decoded hok
          refine Or.inr ⟨?_, hreset _ (reset_mem_resetCalls.mpr rfl)⟩
          intro cr hcr hchosen
          exact hnone cr (delete_mem_resetCalls.mpr ⟨hcr, hchosen⟩)
    · intro ht cr hcr
      have honly := h.only cr (delete_mem_resetCalls.mpr ⟨hcr, Or.inl ht⟩)
      rwa [ht] at honly
    · intro cr hcr hdanger
      obtain ⟨hmem, hdelete⟩ :=
        h.complete (.client .list :: deletions (givenType body) crs) _ [] crs rfl hlist cr
          hcr hdanger
      exact ⟨(mem_deletions.mp (by simpa using hmem)).2, hdelete⟩
  · rintro ⟨hdecoded, honly, hcomplete⟩
    refine ⟨?_, ?_, ?_⟩
    · intro cr hmem
      obtain ⟨hcr, hchosen⟩ := delete_mem_resetCalls.mp hmem
      by_cases ht : givenType body = ""
      · rw [ht]
        exact honly ht cr hcr
      · exact hchosen.defaultType ht
    · intro earlier t later crs' hreset hcrs cr hcr hdanger
      cases hlist.symm.trans hcrs
      obtain ⟨rfl, rfl⟩ := before_reset hreset
      obtain ⟨hchosen, hdelete⟩ := hcomplete cr hcr hdanger
      exact ⟨List.mem_cons_of_mem _ (mem_deletions.mpr ⟨hcr, hchosen⟩), hdelete⟩
    · intro hok
      obtain ⟨hnone, hreset⟩ := hdecoded.resolve_left (by rw [hok]; exact Bool.false_ne_true)
      refine ⟨?_, ?_⟩
      · intro cr hmem
        obtain ⟨hcr, hchosen⟩ := delete_mem_resetCalls.mp hmem
        exact hnone cr hcr hchosen
      · intro t hmem
        exact reset_mem_resetCalls.mp hmem ▸ hreset

/-- A reset is scoped exactly when, if it comes to know the CRs: the body decodes, or it
chooses none of them and no dataset is served for the type; when no type is given all of them are
MySQL's; and those whose clones live in the dataset it empties are all chosen, and their Deletes
succeed. -/
theorem reset_scoped_iff (keys : List String) (ds : String → String)
    (answer : (e : Call) → e.Reply) (configured : Bool) (body : Body) :
    Scoped keys ds answer body ((handleResetDataset (direct configured) body).trace answer) ↔
      ∀ crs, configured = true → answer (.client .list) = .ok crs →
        ((decode resetFields {} body).ok = true ∨
          (∀ cr ∈ crs, ¬ Chosen (givenType body) cr) ∧
            servedFrom keys "/reset" (givenType body) = none) ∧
        (givenType body = "" → ∀ cr ∈ crs, K8s.defaultType cr.spec.databaseType = "mysql") ∧
        ∀ cr ∈ crs, Endangered keys ds (givenType body) cr →
          Chosen (givenType body) cr ∧ answer (.client (.delete cr)) = .ok () := by
  rw [trace_handleResetDataset]
  cases configured with
  | false =>
      refine iff_of_true (scoped_of_nothing ?_ ?_) fun _ h => nomatch h
      · intro cr
        exact List.not_mem_nil
      · intro t
        exact List.not_mem_nil
  | true =>
      rw [if_pos rfl]
      cases hlist : answer (.client .list) with
      | error err =>
          refine iff_of_true (scoped_of_nothing ?_ ?_) fun _ _ h => nomatch h
          · intro cr
            simp
          · intro t
            simp
      | ok crs =>
          refine (scoped_resetCalls_iff hlist).trans ⟨?_, fun h => h crs rfl rfl⟩
          rintro h crs' - hcrs
          cases hcrs
          exact h

/-- A branch that leaves its type out. -/
def untypedBranch : DatabaseBranch where
  name := "demo"
  uid := 1
  resourceVersion := 1
  spec := { snapshotRef := "base" }

/-- Every call succeeds, and there is that branch. -/
def demoAnswer : (e : Call) → e.Reply
  | .client .list => .ok [untypedBranch]
  | .client (.delete _) => .ok ()
  | .volume (.resetDataset _) => .ok ()
  | .volume (.takeSnapshot ..) => .ok ()
  | .volume (.deleteSnapshot ..) => .ok ()
  | .volume (.createClone ..) => .ok ⟨"", "", ""⟩
  | .volume (.deleteClone ..) => .ok ()
  | .volume (.listSnapshots _) => .ok []
  | .volume (.listClones _) => .ok []
  | .volume (.gcSnapshots ..) => .ok []

/-- Asked to reset MySQL's dataset, the server leaves the CR of a branch of it alone. -/
theorem reset_leaves_branch :
    ¬ Scoped ["mysql"] ("tank/" ++ ·) demoAnswer (some (.object [("db_type", .string "mysql")]))
      ((handleResetDataset (direct true)
        (some (.object [("db_type", .string "mysql")]))).trace demoAnswer) := by
  intro h
  have hdanger : Endangered ["mysql"] ("tank/" ++ ·) "mysql" untypedBranch :=
    ⟨"tank/mysql", by decide, by decide⟩
  have hmem := (h.complete [.client .list] "mysql" [] [untypedBranch] (by decide) rfl untypedBranch
    (List.mem_singleton_self _) hdanger).1
  exact absurd hmem (by decide)

end BranchDB.Rest
