/-
# `BranchDB.K8sDatabase.Converge` — Start may be tried again, and Stop undoes it

A Start that fails may have created some of its objects, and the next one takes those for
its own.  Between two states of the cluster, one without the branch and one with all its
objects, every attempt only moves objects from the first to the second: `Between`.  So
whatever attempts came before, a Start whose calls do not fail ends where it would have
ended without them (`start_converges`), and Stop, which deletes all names the branch can
have, undoes any of it.

Here nobody but the branch's own calls touches its objects; the API server assigns the
node port of the Service when it likes, and what was deleted may take its time to go.
-/
import BranchDB.K8sDatabase.Start

namespace BranchDB.K8s

open Concur Relation

/-! ## Between two states -/

/-- Under each key `c` has what `c₀` has or what `c₁` has. -/
def Between {κ V : Type} (c₀ c₁ c : κ → V) : Prop := ∀ k, c k = c₀ k ∨ c k = c₁ k

theorem Between.left {κ V : Type} (c₀ c₁ : κ → V) : Between c₀ c₁ c₀ := fun _ => Or.inl rfl

/-- A key may move on to the second state at any time. -/
theorem Between.update {κ V : Type} [DecidableEq κ] {c₀ c₁ c : κ → V} {k : κ} {v : V}
    (h : ∀ k', k' ≠ k → c k' = c₀ k' ∨ c k' = c₁ k') (hv : c₁ k = v) :
    Between c₀ c₁ (Function.update c k v) := by
  intro k'
  by_cases hk : k' = k
  · subst hk
    exact Or.inr (by rw [Function.update_self, hv])
  · rw [Function.update_of_ne hk]
    exact h k' hk

/-- Only the keys that `c` took from it matter of the second state. -/
theorem Between.congr {κ V : Type} {c₀ c₁ c₂ c : κ → V} (h : Between c₀ c₁ c)
    (heq : ∀ k, c k ≠ c₀ k → c₂ k = c₁ k) : Between c₀ c₂ c := by
  intro k
  by_cases hk : c k = c₀ k
  · exact Or.inl hk
  · exact Or.inr (((h k).resolve_left hk).trans (heq k hk).symm)

/-! ## The objects of a branch -/

/-- The cluster with some objects put into it. -/
def withObjects (c : Cluster) : List Object → Cluster
  | [] => c
  | o :: os => Function.update (withObjects c os) o.key (some o)

theorem withObjects_of_mem {c : Cluster} {os : List Object} (hnodup : (os.map (·.key)).Nodup)
    {o : Object} (ho : o ∈ os) : withObjects c os o.key = some o := by
  induction os with
  | nil => cases ho
  | cons o' os ih =>
      rw [List.map_cons, List.nodup_cons] at hnodup
      rcases List.mem_cons.mp ho with rfl | ho
      · exact Function.update_self _ _ _
      · have hne : o.key ≠ o'.key := fun he => hnodup.1 (he ▸ List.mem_map_of_mem ho)
        rw [withObjects, Function.update_of_ne hne]
        exact ih hnodup.2 ho

theorem withObjects_of_not_mem {c : Cluster} {os : List Object} {k : Key}
    (hk : k ∉ os.map (·.key)) : withObjects c os k = c k := by
  induction os with
  | nil => rfl
  | cons o os ih =>
      rw [List.map_cons, List.mem_cons, not_or] at hk
      rw [withObjects, Function.update_of_ne hk.1]
      exact ih hk.2

/-- The object with the node port `n`, if it is a Service; 0 is none yet. -/
def Object.withNodePort (n : Int) (o : Object) : Object :=
  match o.spec with
  | .service s =>
    { o with spec := .service { s with ports := s.ports.map ({ · with nodePort := n }) } }
  | _ => o

@[simp] theorem Object.withNodePort_key (n : Int) (o : Object) :
    (o.withNodePort n).key = o.key := by
  unfold Object.withNodePort
  split <;> rfl

@[simp] theorem Object.withNodePort_deleting (n : Int) (o : Object) :
    (o.withNodePort n).deleting = o.deleting := by
  unfold Object.withNodePort
  split <;> rfl

/-- The cluster with the objects `Start` creates, when the Service has the node port `n`. -/
def started (ns branch : String) (vol : VolumeInfo) (image : String) (cfg : DbConfig)
    (c₀ : Cluster) (n : Int) : Cluster :=
  withObjects c₀ ((startObjects ns branch vol image cfg).map (·.withNodePort n))

/-- The Service is then this. -/
def startedService (branch : String) (cfg : DbConfig) (n : Int) : ServiceSpec where
  type := .nodePort
  selector := [("branchdb-branch", branch)]
  ports := [⟨cfg.port, cfg.port, n⟩]

/-- What `Start` returns then. -/
def startedEndpoint (ns branch : String) (cfg : DbConfig) (n : Int) : BranchEndpoint where
  host := branch ++ "." ++ ns ++ ".svc.cluster.local"
  port := cfg.port
  externalPort := n

variable {ns branch : String} {imageOverrides : List (String × String)} {vol : VolumeInfo}
  {image : String} {cfg : DbConfig} {B : Object} {c₀ c c' : Cluster} {m n : Int}

theorem map_withNodePort_keys :
    ((startObjects ns branch vol image cfg).map (·.withNodePort n)).map (·.key) =
      (startObjects ns branch vol image cfg).map (·.key) := by
  rw [List.map_map]
  exact List.map_congr_left fun B _ => B.withNodePort_key n

/-- Each object is there as `Start` creates it, but for the node port. -/
theorem started_of_mem (hB : B ∈ startObjects ns branch vol image cfg) :
    started ns branch vol image cfg c₀ n B.key = some (B.withNodePort n) := by
  have hmem : B.withNodePort n ∈ (startObjects ns branch vol image cfg).map (·.withNodePort n) :=
    List.mem_map_of_mem hB
  rw [← B.withNodePort_key n]
  exact withObjects_of_mem (map_withNodePort_keys ▸ startObjects_nodup) hmem

theorem started_of_not_mem {k : Key}
    (hk : k ∉ (startObjects ns branch vol image cfg).map (·.key)) :
    started ns branch vol image cfg c₀ n k = c₀ k :=
  withObjects_of_not_mem (map_withNodePort_keys ▸ hk)

/-- Only the Service has a node port. -/
theorem withNodePort_of_ne (hB : B ∈ startObjects ns branch vol image cfg)
    (hk : B.key ≠ serviceKey ns branch) : B.withNodePort n = B := by
  unfold startObjects at hB
  split at hB <;> simp only [List.cons_append, List.nil_append, List.mem_cons, List.not_mem_nil,
    or_false] at hB <;> rcases hB with rfl | rfl | rfl | rfl | rfl <;>
    first | rfl | exact absurd rfl hk

theorem eq_serviceObject (hB : B ∈ startObjects ns branch vol image cfg)
    (hk : B.key = serviceKey ns branch) : B = serviceObject ns branch cfg.port := by
  by_contra hne
  have hnodup : ((startObjects ns branch vol image cfg).map (·.key)).Nodup := startObjects_nodup
  exact hne (List.inj_on_of_nodup_map hnodup hB serviceObject_mem hk)

theorem started_service :
    started ns branch vol image cfg c₀ n (serviceKey ns branch) =
      some ((serviceObject ns branch cfg.port).withNodePort n) :=
  started_of_mem serviceObject_mem

/-- The node port is seen in the Service only. -/
theorem started_of_ne {k : Key} (hk : k ≠ serviceKey ns branch) :
    started ns branch vol image cfg c₀ m k = started ns branch vol image cfg c₀ n k := by
  by_cases hmem : k ∈ (startObjects ns branch vol image cfg).map (·.key)
  · obtain ⟨B, hB, rfl⟩ := List.mem_map.mp hmem
    rw [started_of_mem hB, started_of_mem hB, withNodePort_of_ne hB hk, withNodePort_of_ne hB hk]
  · rw [started_of_not_mem hmem, started_of_not_mem hmem]

theorem started_of_foreign {k : Key} (hk : k ∉ branchKeys ns branch) :
    started ns branch vol image cfg c₀ n k = c₀ k := by
  refine started_of_not_mem fun hmem => hk ?_
  obtain ⟨B, hB, rfl⟩ := List.mem_map.mp hmem
  exact startObjects_keys hB

/-- Nothing of what is there is being deleted. -/
theorem started_live {k : Key} {o : Object} (hfree : c₀ k = none)
    (ho : started ns branch vol image cfg c₀ n k = some o) : o.deleting = false := by
  by_cases hmem : k ∈ (startObjects ns branch vol image cfg).map (·.key)
  · obtain ⟨B, hB, rfl⟩ := List.mem_map.mp hmem
    rw [started_of_mem hB, Option.some.injEq] at ho
    rw [← ho, Object.withNodePort_deleting]
    exact startObjects_live hB
  · rw [started_of_not_mem hmem, hfree] at ho
    cases ho

/-! ## The moves -/

/-- What the system does by itself with the objects of a branch. -/
inductive Moves (ns branch : String) : Cluster → Cluster → Prop
  /-- The API server assigns the node ports of the Service. -/
  | assign {c : Cluster} {o : Object} {s : ServiceSpec} {ports : List ServicePort} :
      c (serviceKey ns branch) = some o → o.spec = .service s →
      List.Forall₂ ServicePort.Assigned s.ports ports →
      Moves ns branch c (Function.update c (serviceKey ns branch)
        (some { o with spec := .service { s with ports } }))
  /-- A terminating object is gone. -/
  | reap {c : Cluster} {k : Key} {o : Object} : k ∈ branchKeys ns branch → c k = some o →
      o.deleting = true → Moves ns branch c (Function.update c k none)

/-- A call of an attempt: whatever the API server makes of it, the caller may get an error
instead of the answer, be it served or not. -/
def Attempted : (e : Call) → Cluster → e.Reply → Cluster → Prop
  | .create o, c, r, c' => Outcome (·.reason ≠ .alreadyExists) c (create c o) r c'
  | .getService k, c, r, c' => Outcome (fun _ => True) c (getService c k, c) r c'
  | .delete k, c, r, c' => ∃ served, DeleteServed c k served ∧ Outcome (fun _ => True) c served r c'

/-- A node port of the Service, once it has one. -/
def nodePort (ns branch : String) (c : Cluster) : Option Int :=
  match getService c (serviceKey ns branch) with
  | .ok svc => firstNodePort svc.ports
  | .error _ => none

/-- A call that does not fail, but is served and answered; a Delete may find that there is
nothing to delete.  When the Service is read it has its node port. -/
def Answered (ns branch : String) : (e : Call) → Cluster → e.Reply → Cluster → Prop
  | .create o, c, r, c' => (r, c') = create c o
  | .getService k, c, r, c' => r = getService c k ∧ c' = c ∧ (nodePort ns branch c).isSome
  | .delete k, c, r, c' => DeleteServed c k (r, c')

/-- Starts of the branch, one after the other, from the cluster `c₀` on; their calls may
fail, and any of them may be cut short. -/
def attempts (ns : String) (imageOverrides : List (String × String)) (b : Branch)
    (c₀ : Cluster) : System Call Call.Reply Cluster (Except GoError BranchEndpoint) where
  init c := c = c₀
  exec := Attempted
  env := Moves ns b.name
  start c c' := c' = c
  main p := p = b.start ns imageOverrides

/-- Programs none of whose calls fails. -/
def unfailing (ns branch : String) (α : Type) : System Call Call.Reply Cluster α where
  init _ := True
  exec := Answered ns branch
  env := Moves ns branch
  start c c' := c' = c
  main _ := True

/-! ## On the way -/

/-- The branch's objects are partly there, those in `done` for certain. -/
structure Underway (ns branch : String) (vol : VolumeInfo) (image : String) (cfg : DbConfig)
    (c₀ : Cluster) (done : List Object) (n : Int) (c : Cluster) : Prop where
  between : Between c₀ (started ns branch vol image cfg c₀ n) c
  done : ∀ B ∈ done, c B.key ≠ none

variable {done : List Object}

theorem Underway.init : Underway ns branch vol image cfg c₀ [] n c₀ :=
  ⟨.left _ _, fun _ hB => nomatch hB⟩

/-- While there is no Service its node port may be anything. -/
theorem Underway.free (h : Underway ns branch vol image cfg c₀ done m c)
    (hnone : c (serviceKey ns branch) = none) :
    Underway ns branch vol image cfg c₀ done n c := by
  refine ⟨h.between.congr fun k hk => started_of_ne fun he => ?_, h.done⟩
  subst he
  rcases h.between (serviceKey ns branch) with hk' | hk'
  · exact hk hk'
  · rw [hnone, started_service] at hk'
    cases hk'

/-- Serving a Create leads on. -/
theorem Underway.create (h : Underway ns branch vol image cfg c₀ done n c)
    (hB : B ∈ startObjects ns branch vol image cfg)
    (hn : B.key = serviceKey ns branch → c B.key = none → n = 0) :
    Underway ns branch vol image cfg c₀ (B :: done) n (create c B).2 := by
  cases hk : c B.key with
  | some o =>
      rw [create_taken hk]
      refine ⟨h.between, ?_⟩
      intro B' hB'
      rcases List.mem_cons.mp hB' with rfl | hB'
      · simp [hk]
      · exact h.done B' hB'
  | none =>
      have hport : B.withNodePort n = B := by
        by_cases he : B.key = serviceKey ns branch
        · rw [hn he hk, eq_serviceObject hB he]
          rfl
        · exact withNodePort_of_ne hB he
      rw [create_fresh hk]
      have hstarted : started ns branch vol image cfg c₀ n B.key = some B := by
        rw [started_of_mem hB, hport]
      refine ⟨.update (fun k _ => h.between k) hstarted, ?_⟩
      intro B' hB'
      by_cases he : B'.key = B.key
      · simp [he]
      · rcases List.mem_cons.mp hB' with rfl | hB'
        · exact absurd rfl he
        · simpa [he] using h.done B' hB'

theorem Underway.created (h : Underway ns branch vol image cfg c₀ done m c)
    (hB : B ∈ startObjects ns branch vol image cfg) :
    ∃ n, (n = m ∨ n = 0) ∧
      Underway ns branch vol image cfg c₀ (B :: done) n (K8s.create c B).2 := by
  by_cases hnone : c (serviceKey ns branch) = none
  · exact ⟨0, Or.inr rfl, (h.free hnone).create hB fun _ _ => rfl⟩
  · exact ⟨m, Or.inl rfl, h.create hB fun he hk => absurd (he ▸ hk) hnone⟩

theorem getService_started :
    getService (started ns branch vol image cfg c₀ n) (serviceKey ns branch) =
      .ok (startedService branch cfg n) := by
  rw [getService, started_service]
  rfl

/-- So do the moves of the system; an assigned node port stays. -/
theorem Underway.moves (h : Underway ns branch vol image cfg c₀ done n c)
    (hfree : ∀ k ∈ branchKeys ns branch, c₀ k = none) (hmove : Moves ns branch c c') :
    ∃ n', Underway ns branch vol image cfg c₀ done n' c' ∧ (0 < n → n' = n) := by
  cases hmove with
  | @assign o s ports ho hs hports =>
      have hstarted : some o = some ((serviceObject ns branch cfg.port).withNodePort n) := by
        rw [← ho]
        refine ((h.between _).resolve_left fun hk => ?_).trans started_service
        rw [hk, hfree _ (by simp [branchKeys])] at ho
        cases ho
      cases hstarted
      cases hs
      obtain ⟨q, rfl, hq⟩ : ∃ q, ports = [q] ∧ ServicePort.Assigned ⟨cfg.port, cfg.port, n⟩ q := by
        cases hports with
        | cons hq hnil =>
            cases hnil
            exact ⟨_, rfl, hq⟩
      obtain ⟨port, target, n'⟩ := q
      obtain ⟨rfl, rfl, hnode⟩ := hq
      refine ⟨n', ⟨.update (fun k hk => ?_) started_service, fun B hB => ?_⟩, hnode⟩
      · rw [started_of_ne hk]
        exact h.between k
      · by_cases he : B.key = serviceKey ns branch
        · simp [he]
        · rw [Function.update_of_ne he]
          exact h.done B hB
  | @reap k o hk ho hdel =>
      exfalso
      rcases h.between k with hk' | hk'
      · rw [hk', hfree k hk] at ho
        cases ho
      · simp [started_live (hfree k hk) (hk' ▸ ho)] at hdel

/-- When every object is there the cluster is as `Start` leaves it. -/
theorem Underway.complete (h : Underway ns branch vol image cfg c₀ done n c)
    (hfree : ∀ k ∈ branchKeys ns branch, c₀ k = none)
    (hall : ∀ B ∈ startObjects ns branch vol image cfg, B ∈ done) :
    c = started ns branch vol image cfg c₀ n := by
  funext k
  by_cases hmem : k ∈ (startObjects ns branch vol image cfg).map (·.key)
  · obtain ⟨B, hB, rfl⟩ := List.mem_map.mp hmem
    refine (h.between B.key).resolve_left fun hk => h.done B (hall B hB) ?_
    rw [hk, hfree _ (startObjects_keys hB)]
  · rcases h.between k with hk | hk
    · rw [hk, started_of_not_mem hmem]
    · exact hk

/-! ## The attempts -/

/-- The calls of a Start. -/
def Wanted (ns branch : String) (vol : VolumeInfo) (image : String) (cfg : DbConfig) :
    Call → Prop
  | .create o => o ∈ startObjects ns branch vol image cfg
  | .getService _ => True
  | .delete _ => False

variable {b : Branch}

theorem Branch.start_eq (hcfg : builtinConfigs (defaultType b.dbType) = some cfg) :
    b.start ns imageOverrides = startConfigured (direct ns imageOverrides) b.name b.vol
      (b.image imageOverrides cfg) cfg := by
  simp [Branch.start, K8s.start, Branch.image, direct, hcfg]

/-- However the attempts went, they have only led on. -/
theorem attempts_underway {p : Option (Prog Call Call.Reply _)}
    (hcfg : builtinConfigs (defaultType b.dbType) = some cfg)
    (hfree : ∀ k ∈ branchKeys ns b.name, c₀ k = none)
    (h : (attempts ns imageOverrides b c₀).Reach ⟨c, p⟩) :
    ∃ n, Underway ns b.name b.vol (b.image imageOverrides cfg) cfg c₀ [] n c := by
  let C : Contract Call Cluster :=
    ⟨fun _ => True, fun e _ => Wanted ns b.name b.vol (b.image imageOverrides cfg) cfg e⟩
  have hsound : System.Sound (attempts ns imageOverrides b c₀) C := by
    refine ⟨fun _ _ => trivial, fun _ _ _ _ => trivial, fun _ _ _ _ => trivial,
      fun _ _ _ _ _ _ _ => trivial, fun p s s' hp _ _ => System.holds_of_only ?_⟩
    cases hp
    rw [Branch.start_eq hcfg]
    have honly : (startConfigured (direct ns imageOverrides) b.name b.vol
        (b.image imageOverrides cfg) cfg).Only
          (Wanted ns b.name b.vol (b.image imageOverrides cfg) cfg) :=
      only_startConfigured (fun o ho => .perform ho) fun _ => .perform trivial
    exact honly.mono fun e he _ _ => he
  let J : Cluster → Prop := fun c =>
    ∃ n, Underway ns b.name b.vol (b.image imageOverrides cfg) cfg c₀ [] n c
  refine System.Preserved.reach (J := J) hsound ⟨fun c c' _ ⟨n, hn⟩ hmove => ?_,
    fun c c' _ hc hst => ?_, fun e c r c' _ ⟨n, hn⟩ hwanted hex => ?_⟩ (fun c hc => ?_) h
  · obtain ⟨n', hn', -⟩ := hn.moves hfree hmove
    exact ⟨n', hn'⟩
  · cases hst
    exact hc
  · cases e with
    | create o =>
        have hex : Outcome (·.reason ≠ .alreadyExists) c (create c o) r c' := hex
        obtain ⟨n', -, hn'⟩ := hn.created hwanted
        exact hex.elim (P := J) ⟨n, hn⟩ ⟨n', hn'.between, fun _ hB => nomatch hB⟩
    | getService k =>
        have hex : Outcome (fun _ => True) c (getService c k, c) r c' := hex
        exact hex.elim (P := J) ⟨n, hn⟩ ⟨n, hn⟩
    | delete k => exact absurd hwanted id
  · cases hc
    exact ⟨0, .init⟩

/-! ## A Start whose calls do not fail -/

/-- The branch is up with the node port `n`, and this is what `Start` returns. -/
def Up (ns branch : String) (vol : VolumeInfo) (image : String) (cfg : DbConfig) (c₀ : Cluster)
    (r : Except GoError BranchEndpoint) (c : Cluster) : Prop :=
  ∃ n, 0 < n ∧ r = .ok (startedEndpoint ns branch cfg n) ∧
    c = started ns branch vol image cfg c₀ n

theorem nodePort_started :
    nodePort ns branch (started ns branch vol image cfg c₀ n) = if 0 < n then some n else none := by
  rw [nodePort, getService_started]
  by_cases hn : 0 < n <;> simp [firstNodePort, startedService, hn]

variable {context : String} {next : Prog Call Call.Reply (Except GoError BranchEndpoint)}
  {Q : Except GoError BranchEndpoint → Cluster → Prop}

theorem Underway.later (h : ∃ n, Underway ns branch vol image cfg c₀ done n c)
    (hfree : ∀ k ∈ branchKeys ns branch, c₀ k = none)
    (henv : ReflTransGen (Moves ns branch) c c') :
    ∃ n, Underway ns branch vol image cfg c₀ done n c' := by
  induction henv with
  | refl => exact h
  | tail _ hmove ih =>
      obtain ⟨n, hn⟩ := ih
      obtain ⟨n', hn', -⟩ := hn.moves hfree hmove
      exact ⟨n', hn'⟩

theorem ignoreAlreadyExists_create (c : Cluster) (B : Object) :
    ignoreAlreadyExists (create c B).1 = .ok () := by
  cases hk : c B.key with
  | some o => simp [create_taken hk, ignoreAlreadyExists, errAlreadyExists]
  | none => simp [create_fresh hk, ignoreAlreadyExists]

/-- A Create that does not fail leaves the object there. -/
theorem holds_created (hB : B ∈ startObjects ns branch vol image cfg)
    (hfree : ∀ k ∈ branchKeys ns branch, c₀ k = none)
    (h : ∃ n, Underway ns branch vol image cfg c₀ done n c)
    (hnext : ∀ c', (∃ n, Underway ns branch vol image cfg c₀ (B :: done) n c') →
      (unfailing ns branch (Except GoError BranchEndpoint)).Holds anything Q next c') :
    (unfailing ns branch (Except GoError BranchEndpoint)).Holds anything Q
      (checked context (createIfAbsent (direct ns imageOverrides) B) next) c := by
  intro c₁ henv _
  refine ⟨trivial, ?_⟩
  intro r c₂ hex _
  obtain ⟨n, hn⟩ := Underway.later h hfree henv
  have hex : (r, c₂) = create c₁ B := hex
  have hc₂ : c₂ = (create c₁ B).2 := congrArg Prod.snd hex
  have hr : r = (create c₁ B).1 := congrArg Prod.fst hex
  show (unfailing ns branch (Except GoError BranchEndpoint)).Holds anything Q
    (checked context (.ret (ignoreAlreadyExists r)) next) c₂
  rw [hr, ignoreAlreadyExists_create]
  obtain ⟨n', -, hn'⟩ := hn.created hB
  exact hnext c₂ ⟨n', hc₂ ▸ hn'⟩

theorem holds_createdExtraConfig
    (hfree : ∀ k ∈ branchKeys ns branch, c₀ k = none)
    (h : ∃ n, Underway ns branch vol image cfg c₀ done n c)
    (hnext : ∀ c', (∃ n, Underway ns branch vol image cfg c₀
        ((if cfg.extraConfig ≠ "" then [cmObject ns branch cfg] else []) ++ done) n c') →
      (unfailing ns branch (Except GoError BranchEndpoint)).Holds anything Q next c') :
    (unfailing ns branch (Except GoError BranchEndpoint)).Holds anything Q
      (checked context (createExtraConfig (direct ns imageOverrides) branch cfg) next) c := by
  unfold createExtraConfig
  split
  · next hextra =>
    rw [if_pos hextra] at hnext
    have hmem : cmObject ns branch cfg ∈ startObjects ns branch vol image cfg :=
      cmObject_mem hextra
    exact holds_created hmem hfree h hnext
  · next hextra =>
    rw [if_neg hextra] at hnext
    exact hnext c h

theorem assignedNodePort_started (hn : 0 < n) :
    assignedNodePort branch (startedService branch cfg n) = .ok n := by
  simp [assignedNodePort, firstNodePort, startedService, hn]

/-- With all objects there, the node port read is that of the Service. -/
theorem holds_nodePort (hfree : ∀ k ∈ branchKeys ns branch, c₀ k = none)
    (h : ∃ n, Underway ns branch vol image cfg c₀ done n c)
    (hall : ∀ B ∈ startObjects ns branch vol image cfg, B ∈ done) :
    (unfailing ns branch (Except GoError BranchEndpoint)).Holds anything
      (fun r c' => ∃ n, 0 < n ∧ r = .ok n ∧ c' = started ns branch vol image cfg c₀ n)
      (getNodePort (direct ns imageOverrides) branch) c := by
  intro c₁ henv _
  refine ⟨trivial, ?_⟩
  intro r c₂ hex _
  obtain ⟨n, hn⟩ := Underway.later h hfree henv
  obtain ⟨hr, rfl, hport⟩ := hex
  have hc : c₂ = started ns branch vol image cfg c₀ n := hn.complete hfree hall
  rw [hc, nodePort_started, Option.isSome_ite] at hport
  have hr : r = getService c₂ (serviceKey ns branch) := hr
  rw [hr, hc, getService_started]
  exact ⟨n, hport, assignedNodePort_started hport, rfl⟩

theorem holds_start (hfree : ∀ k ∈ branchKeys ns branch, c₀ k = none)
    (h : ∃ n, Underway ns branch vol image cfg c₀ [] n c) :
    (unfailing ns branch (Except GoError BranchEndpoint)).Holds anything
      (Up ns branch vol image cfg c₀)
      (startConfigured (direct ns imageOverrides) branch vol image cfg) c := by
  refine holds_created pvObject_mem hfree h ?_
  intro c₁ h₁
  refine holds_created pvcObject_mem hfree h₁ ?_
  intro c₂ h₂
  refine holds_createdExtraConfig hfree h₂ ?_
  intro c₃ h₃
  refine holds_created podObject_mem hfree h₃ ?_
  intro c₄ h₄
  refine holds_created serviceObject_mem hfree h₄ ?_
  intro c₅ h₅
  refine System.holds_bind.mpr ((holds_nodePort hfree h₅ fun B hB => ?_).mono ?_)
  · simp only [startObjects, List.mem_append, List.mem_cons, List.not_mem_nil, or_false] at hB ⊢
    rcases hB with ((rfl | rfl) | hB) | rfl | rfl
    · exact Or.inr (Or.inr (Or.inr (Or.inr rfl)))
    · exact Or.inr (Or.inr (Or.inr (Or.inl rfl)))
    · exact Or.inr (Or.inr (Or.inl hB))
    · exact Or.inr (Or.inl rfl)
    · exact Or.inl rfl
  · rintro r c ⟨n, hn, rfl, rfl⟩
    exact ⟨n, hn, rfl, rfl⟩

/-! ## Such a Start there is -/

theorem runs_created {r : Except GoError BranchEndpoint}
    (h : (unfailing ns branch (Except GoError BranchEndpoint)).Runs next (create c B).2 r c') :
    (unfailing ns branch (Except GoError BranchEndpoint)).Runs
      (checked context (createIfAbsent (direct ns imageOverrides) B) next) c r c' := by
  have hnext : checked context (.ret (ignoreAlreadyExists (create c B).1)) next = next := by
    rw [ignoreAlreadyExists_create]
    rfl
  rw [← hnext] at h
  exact .call rfl h

theorem runs_createdExtraConfig {r : Except GoError BranchEndpoint}
    (h : (unfailing ns branch (Except GoError BranchEndpoint)).Runs next
      (if cfg.extraConfig ≠ "" then (create c (cmObject ns branch cfg)).2 else c) r c') :
    (unfailing ns branch (Except GoError BranchEndpoint)).Runs
      (checked context (createExtraConfig (direct ns imageOverrides) branch cfg) next) c r c' := by
  unfold createExtraConfig
  split
  · next hextra =>
    rw [if_pos hextra] at h
    exact runs_created h
  · next hextra =>
    rw [if_neg hextra] at h
    exact h

/-- A node port that is not assigned yet may be. -/
theorem moves_started (hm : m ≤ 0) :
    Moves ns branch (started ns branch vol image cfg c₀ m)
      (started ns branch vol image cfg c₀ n) := by
  have hservice : started ns branch vol image cfg c₀ m (serviceKey ns branch) =
      some ((serviceObject ns branch cfg.port).withNodePort m) := started_service
  have hassigned : List.Forall₂ ServicePort.Assigned [⟨cfg.port, cfg.port, m⟩]
      [⟨cfg.port, cfg.port, n⟩] :=
    .cons ⟨rfl, rfl, fun hpos => absurd hpos (Int.not_lt.mpr hm)⟩ .nil
  have hupdate : started ns branch vol image cfg c₀ n =
      Function.update (started ns branch vol image cfg c₀ m) (serviceKey ns branch)
        (some ((serviceObject ns branch cfg.port).withNodePort n)) := by
    funext k
    by_cases hk : k = serviceKey ns branch
    · rw [hk, Function.update_self, started_service]
    · rw [Function.update_of_ne hk, started_of_ne hk]
  have hmove : Moves ns branch (started ns branch vol image cfg c₀ m)
      (Function.update (started ns branch vol image cfg c₀ m) (serviceKey ns branch)
        (some { (serviceObject ns branch cfg.port).withNodePort m with
          spec := .service (startedService branch cfg n) })) := .assign hservice rfl hassigned
  rw [hupdate]
  exact hmove

/-- The endpoint is read once the node port is assigned. -/
theorem runs_endpoint (hm : m = n ∨ m ≤ 0) (hn : 0 < n) :
    (unfailing ns branch (Except GoError BranchEndpoint)).Runs
      (getEndpoint (direct ns imageOverrides) branch cfg)
      (started ns branch vol image cfg c₀ m) (.ok (startedEndpoint ns branch cfg n))
      (started ns branch vol image cfg c₀ n) := by
  have hassign : ReflTransGen (Moves ns branch) (started ns branch vol image cfg c₀ m)
      (started ns branch vol image cfg c₀ n) := by
    rcases hm with rfl | hm
    · exact .refl
    · exact .single (moves_started hm)
  have hport : (nodePort ns branch (started ns branch vol image cfg c₀ n)).isSome := by
    simp [nodePort_started, hn]
  refine System.Runs.after ?_ hassign
  refine .call ⟨rfl, rfl, hport⟩ ?_
  have hget : getService (started ns branch vol image cfg c₀ n)
      (serviceKey (direct ns imageOverrides).ns branch) = _ := getService_started
  rw [hget]
  simp only [Prog.bind, Prog.pure_eq_ret, assignedNodePort_started hn]
  exact .ret

/-- The Creates of a Start, one after the other. -/
theorem Underway.foldl {Bs : List Object} (h : Underway ns branch vol image cfg c₀ done m c)
    (hBs : ∀ B ∈ Bs, B ∈ startObjects ns branch vol image cfg) :
    ∃ n, (n = m ∨ n = 0) ∧ Underway ns branch vol image cfg c₀ (Bs.reverse ++ done) n
      (Bs.foldl (fun c B => (K8s.create c B).2) c) := by
  induction Bs generalizing done m c with
  | nil => exact ⟨m, Or.inl rfl, h⟩
  | cons B Bs ih =>
      obtain ⟨m', hm', h'⟩ := h.created (hBs B List.mem_cons_self)
      obtain ⟨n, hn, hunder⟩ := ih h' fun B hB => hBs B (List.mem_cons_of_mem _ hB)
      refine ⟨n, by omega, ?_⟩
      rw [List.reverse_cons, List.append_assoc]
      exact hunder

theorem runs_start (hfree : ∀ k ∈ branchKeys ns branch, c₀ k = none)
    (h : Underway ns branch vol image cfg c₀ [] m c) (hm : m = n ∨ m ≤ 0) (hn : 0 < n) :
    (unfailing ns branch (Except GoError BranchEndpoint)).Runs
      (startConfigured (direct ns imageOverrides) branch vol image cfg) c
      (.ok (startedEndpoint ns branch cfg n)) (started ns branch vol image cfg c₀ n) := by
  have hmem : ∀ B ∈ startObjects ns branch vol image cfg,
      B ∈ startObjects ns branch vol image cfg := fun _ => id
  obtain ⟨m', hm', hunder⟩ := h.foldl hmem
  have hcreated := hunder.complete hfree fun B hB => by simpa using hB
  have hend : (unfailing ns branch (Except GoError BranchEndpoint)).Runs
      (getEndpoint (direct ns imageOverrides) branch cfg)
      ((startObjects ns branch vol image cfg).foldl (fun c B => (create c B).2) c)
      (.ok (startedEndpoint ns branch cfg n)) (started ns branch vol image cfg c₀ n) := by
    rw [hcreated]
    exact runs_endpoint (by omega) hn
  refine runs_created <| runs_created <| runs_createdExtraConfig <| runs_created <|
    runs_created ?_
  unfold startObjects at hend
  split at hend
  · next hextra =>
    rw [if_pos hextra]
    exact hend
  · next hextra =>
    rw [if_neg hextra]
    exact hend

/-! ## Stop -/

/-- Of the branch's objects at most those not in `gone` are there, and what terminates. -/
structure Undone (ns branch : String) (c₀ : Cluster) (gone : List Key) (c : Cluster) : Prop where
  foreign : ∀ k, k ∉ branchKeys ns branch → c k = c₀ k
  gone : ∀ k ∈ gone, ∀ o, c k = some o → o.deleting = true

variable {gone : List Key} {k : Key}

theorem Underway.foreign (h : Underway ns branch vol image cfg c₀ done n c) :
    Undone ns branch c₀ [] c := by
  refine ⟨fun k hk => ?_, fun _ hk => nomatch hk⟩
  rcases h.between k with hc | hc
  · exact hc
  · rw [hc, started_of_foreign hk]

/-- One key of the branch gets an object that terminates, or none. -/
theorem Undone.update {x : Option Object} (h : Undone ns branch c₀ gone c)
    (hk : k ∈ branchKeys ns branch) (hx : ∀ o, x = some o → k ∈ gone → o.deleting = true) :
    Undone ns branch c₀ gone (Function.update c k x) := by
  refine ⟨fun k' hk' => ?_, fun k' hk' o ho => ?_⟩
  · rw [Function.update_of_ne (ne_of_mem_of_not_mem hk hk').symm]
    exact h.foreign k' hk'
  · by_cases he : k' = k
    · subst he
      exact hx o (by simpa using ho) hk'
    · exact h.gone k' hk' o (by simpa [he] using ho)

theorem Undone.moves (h : Undone ns branch c₀ gone c) (hmove : Moves ns branch c c') :
    Undone ns branch c₀ gone c' := by
  cases hmove with
  | @assign o s ports ho hs hports =>
      refine h.update (by simp [branchKeys]) ?_
      intro o' ho' hgone
      cases ho'
      exact h.gone _ hgone o ho
  | reap hk ho hdel =>
      refine h.update hk ?_
      intro o' ho'
      cases ho'

theorem Undone.later (h : Undone ns branch c₀ gone c)
    (henv : ReflTransGen (Moves ns branch) c c') : Undone ns branch c₀ gone c' := by
  induction henv with
  | refl => exact h
  | tail _ hmove ih => exact ih.moves hmove

/-- A Delete that is served. -/
theorem Undone.delete {r : Except GoError Unit} (h : Undone ns branch c₀ gone c)
    (hk : k ∈ branchKeys ns branch) (hdel : DeleteServed c k (r, c')) :
    Undone ns branch c₀ (k :: gone) c' := by
  have hcons : ∀ {c' : Cluster}, Undone ns branch c₀ gone c' →
      (∀ o, c' k = some o → o.deleting = true) → Undone ns branch c₀ (k :: gone) c' := by
    refine fun h' hgone => ⟨h'.foreign, fun k' hk' => ?_⟩
    rcases List.mem_cons.mp hk' with rfl | hk'
    · exact hgone
    · exact h'.gone k' hk'
  cases hdel with
  | notFound hnone => exact hcons h fun o ho => by simp [hnone] at ho
  | removed ho =>
      refine hcons (h.update hk fun o' ho' => ?_) fun o' ho' => ?_
      · cases ho'
      · simp at ho'
  | @marked o ho =>
      refine hcons (h.update hk fun o' ho' _ => ?_) fun o' ho' => ?_
      · cases ho'
        rfl
      · rw [Function.update_self] at ho'
        cases ho'
        rfl

theorem holds_deleteEach {ks : List Key} (hks : ∀ k ∈ ks, k ∈ branchKeys ns branch)
    (h : Undone ns branch c₀ gone c) :
    (unfailing ns branch (Except GoError Unit)).Holds anything
      (fun r c' => r = .ok () ∧ Undone ns branch c₀ (ks.reverse ++ gone) c')
      (deleteEach (direct ns imageOverrides) ks) c := by
  induction ks generalizing gone c with
  | nil => exact ⟨rfl, h⟩
  | cons k ks ih =>
      intro c₁ henv _
      refine ⟨trivial, ?_⟩
      intro r c₂ hex _
      have hgone : Undone ns branch c₀ (k :: gone) c₂ :=
        (h.later henv).delete (hks k List.mem_cons_self) hex
      rw [List.reverse_cons, List.append_assoc]
      exact ih (fun k' hk' => hks k' (List.mem_cons_of_mem _ hk')) hgone

/-- After Stop nothing of the branch is there but what terminates. -/
theorem holds_stop (h : Undone ns branch c₀ [] c) :
    (unfailing ns branch (Except GoError Unit)).Holds anything
      (fun r c' => r = .ok () ∧ Undone ns branch c₀ (branchKeys ns branch) c')
      (stop (direct ns imageOverrides) branch) c := by
  rw [stop_eq_deleteEach]
  refine (holds_deleteEach (fun _ => id) h).mono fun r c' ⟨hr, hundone⟩ => ⟨hr, hundone.foreign, ?_⟩
  exact fun k hk => hundone.gone k (by simpa using hk)

/-! ## Main result -/

theorem Underway.started : Underway ns branch vol image cfg c₀
    (startObjects ns branch vol image cfg) n (started ns branch vol image cfg c₀ n) := by
  refine ⟨fun _ => Or.inr rfl, ?_⟩
  intro B hB
  rw [started_of_mem hB]
  exact Option.some_ne_none _

theorem up_moves (hfree : ∀ k ∈ branchKeys ns branch, c₀ k = none)
    {r : Except GoError BranchEndpoint} (h : Up ns branch vol image cfg c₀ r c)
    (hmove : Moves ns branch c c') : Up ns branch vol image cfg c₀ r c' := by
  obtain ⟨n, hn, rfl, rfl⟩ := h
  obtain ⟨n', hn', hsame⟩ := Underway.started.moves hfree hmove
  rw [hsame hn] at hn'
  exact ⟨n, hn, rfl, hn'.complete hfree fun _ => id⟩

/-- A call that does not fail is one that may fail. -/
theorem Answered.attempted {e : Call} {r : e.Reply} (h : Answered ns branch e c r c') :
    Attempted e c r c' := by
  cases e with
  | create o =>
      have h : (r, c') = create c o := h
      show Outcome (·.reason ≠ .alreadyExists) c (create c o) r c'
      rw [← h]
      exact .answered
  | getService k =>
      obtain ⟨rfl, rfl, -⟩ := h
      exact .answered
  | delete k => exact ⟨(r, c'), h, .answered⟩

/-- A Start whose calls do not fail brings the branch up, ... -/
theorem Branch.up (hcfg : builtinConfigs (defaultType b.dbType) = some cfg)
    (hfree : ∀ k ∈ branchKeys ns b.name, c₀ k = none)
    (h : Underway ns b.name b.vol (b.image imageOverrides cfg) cfg c₀ [] n c)
    {r : Except GoError BranchEndpoint}
    (hr : (unfailing ns b.name _).Runs (b.start ns imageOverrides) c r c') :
    Up ns b.name b.vol (b.image imageOverrides cfg) cfg c₀ r c' := by
  rw [Branch.start_eq hcfg] at hr
  exact (holds_start hfree ⟨n, h⟩).result (fun _ => trivial) (fun _ _ _ => up_moves hfree) hr

/-- ... with any node port, unless one was assigned before. -/
theorem Branch.runs_start (hcfg : builtinConfigs (defaultType b.dbType) = some cfg)
    (hfree : ∀ k ∈ branchKeys ns b.name, c₀ k = none)
    (h : Underway ns b.name b.vol (b.image imageOverrides cfg) cfg c₀ [] m c)
    (hm : m = n ∨ m ≤ 0) (hn : 0 < n) :
    (unfailing ns b.name _).Runs (b.start ns imageOverrides) c
      (.ok (startedEndpoint ns b.name cfg n))
      (started ns b.name b.vol (b.image imageOverrides cfg) cfg c₀ n) := by
  rw [Branch.start_eq hcfg]
  exact K8s.runs_start hfree h hm hn

/-- Take a branch of a supported type and a cluster with none of its objects.  However often
Start was tried, with calls failing or the attempt cut short, a Start whose calls do not fail
can follow; it ends as such a Start from the initial cluster may end, and as each one that is
given the same node port does.  A Stop whose Deletes are served, after any of this, leaves
nothing of it but what is still terminating; when that is gone the initial cluster is back. -/
theorem start_converges (hcfg : builtinConfigs (defaultType b.dbType) = some cfg)
    (hfree : ∀ k ∈ branchKeys ns b.name, c₀ k = none)
    (h : (attempts ns imageOverrides b c₀).Reach ⟨c, none⟩) :
    (∃ r c', (unfailing ns b.name _).Runs (b.start ns imageOverrides) c r c') ∧
      (∀ r c', (unfailing ns b.name _).Runs (b.start ns imageOverrides) c r c' →
        (attempts ns imageOverrides b c₀).Reach ⟨c', none⟩ ∧
        (unfailing ns b.name _).Runs (b.start ns imageOverrides) c₀ r c' ∧
        ∀ r₁ c₁, (unfailing ns b.name _).Runs (b.start ns imageOverrides) c₀ r₁ c₁ →
          nodePort ns b.name c₁ = nodePort ns b.name c' → r₁ = r ∧ c₁ = c') ∧
      ∀ r c', (unfailing ns b.name _).Runs (stop (direct ns imageOverrides) b.name) c r c' →
        r = .ok () ∧
        (∀ k, c' k = c₀ k ∨ k ∈ branchKeys ns b.name ∧ ∃ o, c' k = some o ∧ o.deleting = true) ∧
        ((∀ k ∈ branchKeys ns b.name, ∀ o, c' k = some o → o.deleting = false) → c' = c₀) := by
  obtain ⟨m, hunder⟩ := attempts_underway hcfg hfree h
  have hinit : Underway ns b.name b.vol (b.image imageOverrides cfg) cfg c₀ [] 0 c₀ := .init
  refine ⟨?_, fun r c' hr => ⟨?_, ?_, fun r₁ c₁ hr₁ hport => ?_⟩, fun r c' hr => ?_⟩
  · by_cases hm : 0 < m
    · exact ⟨_, _, Branch.runs_start hcfg hfree hunder (Or.inl rfl) hm⟩
    · exact ⟨_, _, Branch.runs_start hcfg hfree hunder (Or.inr (Int.not_lt.mp hm)) Int.one_pos⟩
  · exact h.run rfl rfl (hr.mono (fun _ _ _ _ hex => hex.attempted) fun _ _ => id)
  · obtain ⟨n, hn, rfl, rfl⟩ := Branch.up hcfg hfree hunder hr
    exact Branch.runs_start hcfg hfree hinit (Or.inr (Int.le_refl 0)) hn
  · obtain ⟨n, hn, rfl, rfl⟩ := Branch.up hcfg hfree hunder hr
    obtain ⟨n₁, hn₁, rfl, rfl⟩ := Branch.up hcfg hfree hinit hr₁
    rw [nodePort_started, nodePort_started, if_pos hn, if_pos hn₁, Option.some.injEq] at hport
    rw [hport]
    exact ⟨rfl, rfl⟩
  · obtain ⟨hok, hundone⟩ := (holds_stop hunder.foreign).result (fun _ => trivial)
      (fun _ _ _ hpost hmove => ⟨hpost.1, hpost.2.moves hmove⟩) hr
    refine ⟨hok, fun k => ?_, fun hlive => funext fun k => ?_⟩
    · by_cases hk : k ∈ branchKeys ns b.name
      · cases hck : c' k with
        | none => exact Or.inl (hfree k hk).symm
        | some o => exact Or.inr ⟨hk, o, rfl, hundone.gone k hk o hck⟩
      · exact Or.inl (hundone.foreign k hk)
    · by_cases hk : k ∈ branchKeys ns b.name
      · cases hck : c' k with
        | none => exact (hfree k hk).symm
        | some o =>
            have := hundone.gone k hk o hck
            simp [hlive k hk o hck] at this
      · exact hundone.foreign k hk

def demoBranch : Branch := ⟨"demo", demoVolume, "mysql", ""⟩

/-- The cluster after an attempt that created a PersistentVolume. -/
def demoFailed : Cluster :=
  Function.update (fun _ => none) (pvKey "demo") (some (pvObject "demo" demoVolume))

/-- An attempt whose first Create is served but answered with an error, a Start that goes
through, and a Stop. -/
theorem start_converges_demo :
    (∃ r c', (unfailing "default" "demo" _).Runs (demoBranch.start "default" [])
        demoFailed r c') ∧
      (∀ r c', (unfailing "default" "demo" _).Runs (demoBranch.start "default" [])
          demoFailed r c' →
        (attempts "default" [] demoBranch fun _ => none).Reach ⟨c', none⟩ ∧
        (unfailing "default" "demo" _).Runs (demoBranch.start "default" []) (fun _ => none) r c' ∧
        ∀ r₁ c₁, (unfailing "default" "demo" _).Runs (demoBranch.start "default" [])
            (fun _ => none) r₁ c₁ →
          nodePort "default" "demo" c₁ = nodePort "default" "demo" c' → r₁ = r ∧ c₁ = c') ∧
      ∀ r c', (unfailing "default" "demo" _).Runs (stop (direct "default" []) "demo")
          demoFailed r c' →
        r = .ok () ∧
        (∀ k, c' k = none ∨
          k ∈ branchKeys "default" "demo" ∧ ∃ o, c' k = some o ∧ o.deleting = true) ∧
        ((∀ k ∈ branchKeys "default" "demo", ∀ o, c' k = some o → o.deleting = false) →
          c' = fun _ => none) := by
  have hcfg : builtinConfigs (defaultType demoBranch.dbType) = some mysqlConfig := rfl
  refine start_converges hcfg (fun _ _ => rfl) ?_
  refine .step (.step (.step (.init rfl) (.start rfl rfl))
    (.call (.error (errorf "timeout")) ?_)) .stop
  exact .lost (by decide)

end BranchDB.K8s
