/-
# `BranchDB.K8sDatabase.Start` — what the success of Start means

`Start` takes an object that already exists for the one it would have created.  So an
endpoint it returns means, for each of its objects: if the name was free, the object is
there with the content Start built; if the name was taken, what was there is left as it
is, whatever its content (`start_provides`).  Only when everything that was there had
the content Start builds does success mean the database asked for.

Start runs among the system's own moves: terminating objects disappear, node ports are
assigned, claims are bound.  The objects of the branch belong to the provider; all others
may change in any way.
-/
import BranchDB.Concur.System
import BranchDB.K8sDatabase.Provider
import Mathlib.Data.List.Nodup

namespace BranchDB.K8s

open Concur Relation

/-- The provider as a program over the calls of the cluster. -/
def direct (ns : String) (imageOverrides : List (String × String)) :
    Provider (Prog Call Call.Reply) where
  client := Prog.perform
  ns := ns
  imageOverrides := imageOverrides

/-- A branch to be started. -/
structure Branch where
  name : String
  vol : VolumeInfo
  dbType : String
  dbVersion : String
deriving DecidableEq, Repr

/-- Its Start. -/
def Branch.start (ns : String) (imageOverrides : List (String × String)) (b : Branch) :
    Prog Call Call.Reply (Except GoError BranchEndpoint) :=
  K8s.start (direct ns imageOverrides) b.name b.vol b.dbType b.dbVersion

/-- The image of the branch's database. -/
def Branch.image (imageOverrides : List (String × String)) (b : Branch) (cfg : DbConfig) : String :=
  resolveImage imageOverrides cfg (defaultType b.dbType) b.dbVersion

/-- Programs that own the objects of one branch. -/
def branchSystem (ns branch : String) :
    System Call Call.Reply Cluster (Except GoError BranchEndpoint) where
  init _ := True
  exec := Exec
  env := Ambient (· ∉ branchKeys ns branch)
  start c c' := c' = c
  main _ := True

/-- The objects `Start` creates. -/
def startObjects (ns branch : String) (vol : VolumeInfo) (image : String) (cfg : DbConfig) :
    List Object :=
  [pvObject branch vol, pvcObject ns branch] ++
    (if cfg.extraConfig ≠ "" then [cmObject ns branch cfg] else []) ++
    [podObject ns branch image cfg, serviceObject ns branch cfg.port]

variable {ns branch : String} {imageOverrides : List (String × String)} {vol : VolumeInfo}
  {image : String} {cfg : DbConfig} {B : Object}

theorem startObjects_keys (hB : B ∈ startObjects ns branch vol image cfg) :
    B.key ∈ branchKeys ns branch := by
  unfold startObjects at hB
  split at hB <;> simp only [List.cons_append, List.nil_append, List.mem_cons, List.not_mem_nil,
    or_false] at hB <;> rcases hB with rfl | rfl | rfl | rfl | rfl <;> simp [branchKeys, pvObject,
    pvcObject, cmObject, podObject, serviceObject]

theorem startObjects_nodup : ((startObjects ns branch vol image cfg).map (·.key)).Nodup := by
  unfold startObjects
  split <;> simp [pvKey, pvcKey, cmKey, podKey, serviceKey]

theorem startObjects_live (hB : B ∈ startObjects ns branch vol image cfg) :
    B.deleting = false := by
  unfold startObjects at hB
  split at hB <;> simp only [List.cons_append, List.nil_append, List.mem_cons, List.not_mem_nil,
    or_false] at hB <;> rcases hB with rfl | rfl | rfl | rfl | rfl <;> rfl

theorem pvObject_mem : pvObject branch vol ∈ startObjects ns branch vol image cfg := by
  simp [startObjects]

theorem pvcObject_mem : pvcObject ns branch ∈ startObjects ns branch vol image cfg := by
  simp [startObjects]

theorem cmObject_mem (hextra : cfg.extraConfig ≠ "") :
    cmObject ns branch cfg ∈ startObjects ns branch vol image cfg := by
  simp [startObjects, hextra]

theorem podObject_mem :
    podObject ns branch image cfg ∈ startObjects ns branch vol image cfg := by
  simp [startObjects]

theorem serviceObject_mem : serviceObject ns branch cfg.port ∈
    startObjects ns branch vol image cfg := by
  simp [startObjects]

/-- `Start` creates its objects and reads the Service, whatever these calls are made of. -/
theorem only_startConfigured {E : Type} {R : E → Type} {P : E → Prop} {p : Provider (Prog E R)}
    (hcreate : ∀ o ∈ startObjects p.ns branch vol image cfg, (p.client (.create o)).Only P)
    (hget : ∀ k, (p.client (.getService k)).Only P) :
    (startConfigured p branch vol image cfg).Only P := by
  have hmake : ∀ o ∈ startObjects p.ns branch vol image cfg, (createIfAbsent p o).Only P :=
    fun o ho => .bind (hcreate o ho) fun _ => .ret
  have hconfig : (createExtraConfig p branch cfg).Only P := by
    unfold createExtraConfig
    split
    · next hextra => exact hmake _ (cmObject_mem hextra)
    · exact .ret
  have hendpoint : (getEndpoint p branch cfg).Only P := by
    refine .bind (.bind (hget _) fun r => ?_) fun r => ?_
    · rcases r with err | svc <;> exact .ret
    · rcases r with err | port <;> exact .ret
  exact only_checked (hmake _ pvObject_mem) <| only_checked (hmake _ pvcObject_mem) <|
    only_checked hconfig <| only_checked (hmake _ podObject_mem) <|
    only_checked (hmake _ serviceObject_mem) hendpoint

theorem only_start {E : Type} {R : E → Type} {P : E → Prop} {p : Provider (Prog E R)}
    {dbType dbVersion : String}
    (hcreate : ∀ image cfg, ∀ o ∈ startObjects p.ns branch vol image cfg,
      (p.client (.create o)).Only P)
    (hget : ∀ k, (p.client (.getService k)).Only P) :
    (start p branch vol dbType dbVersion).Only P := by
  unfold start
  cases hcfg : builtinConfigs (defaultType dbType) with
  | none =>
      simp only [hcfg]
      exact .ret
  | some cfg =>
      simp only [hcfg]
      exact only_startConfigured (hcreate _ cfg) hget

/-! ## One object -/

/-- What may be found where `Start` wants the object `B`, if `x` was there before: what was
there, as the system left it, or `B`, created because nothing was there. -/
inductive Left (B : Object) (x y : Option Object) : Prop
  | taken {o : Object} : x = some o → Survives x y → Left B x y
  | created : Survives x none → Survives (some B) y → Left B x y

theorem Left.survives {B : Object} {x y z : Option Object} (h : Left B x y) (hs : Survives y z) :
    Left B x z := by
  cases h with
  | taken hx h => exact .taken hx (h.trans hs)
  | created hx h => exact .created hx (h.trans hs)

/-- The objects in `done` have been seen to, those in `pending` not yet. -/
structure Held (before : Cluster) (done pending : List Object) (c : Cluster) : Prop where
  done : ∀ B ∈ done, Left B (before B.key) (c B.key)
  pending : ∀ B ∈ pending, Survives (before B.key) (c B.key)

variable {before : Cluster} {done pending : List Object} {c : Cluster}

theorem Held.later {c' : Cluster} (h : Held before done pending c)
    (hkeys : ∀ B ∈ done ++ pending, B.key ∈ branchKeys ns branch)
    (henv : ReflTransGen (branchSystem ns branch).env c c') : Held before done pending c' := by
  induction henv with
  | refl => exact h
  | @tail c₁ c₂ _ he ih =>
      have hsurv : ∀ B ∈ done ++ pending, Survives (c₁ B.key) (c₂ B.key) :=
        fun B hB => Ambient.survives he fun hn => hn (hkeys B hB)
      constructor
      · intro B hB
        exact (ih.done B hB).survives (hsurv B (List.mem_append_left _ hB))
      · intro B hB
        exact (ih.pending B hB).trans (hsurv B (List.mem_append_right _ hB))

/-- The object that was pending has been created. -/
theorem Held.create {B : Object} (h : Held before done (B :: pending) c)
    (hdistinct : ∀ B' ∈ done ++ pending, B'.key ≠ B.key) (hfree : c B.key = none) :
    Held before (B :: done) pending (Function.update c B.key (some B)) := by
  have hother : ∀ B' ∈ done ++ pending, Function.update c B.key (some B) B'.key = c B'.key := by
    intro B' hB'
    simp [hdistinct B' hB']
  constructor
  · intro B' hB'
    rcases List.mem_cons.mp hB' with rfl | hB'
    · rw [Function.update_self]
      exact .created (hfree ▸ h.pending B' List.mem_cons_self) (.refl _)
    · rw [hother B' (List.mem_append_left _ hB')]
      exact h.done B' hB'
  · intro B' hB'
    rw [hother B' (List.mem_append_right _ hB')]
    exact h.pending B' (List.mem_cons_of_mem _ hB')

/-- The object that was pending is taken for one that is there. -/
theorem Held.take {B o : Object} (h : Held before done (B :: pending) c)
    (htaken : c B.key = some o) : Held before (B :: done) pending c := by
  constructor
  · intro B' hB'
    rcases List.mem_cons.mp hB' with rfl | hB'
    · have hsurv := h.pending B' List.mem_cons_self
      cases hbefore : before B'.key with
      | none =>
          rw [hbefore] at hsurv
          simp [hsurv.of_none] at htaken
      | some o' => exact .taken rfl (hbefore ▸ hsurv)
    · exact h.done B' hB'
  · exact fun B' hB' => h.pending B' (List.mem_cons_of_mem _ hB')

/-- No call needs anything. -/
def anything : Contract Call Cluster := ⟨fun _ => True, fun _ _ => True⟩

/-- What holds of the cluster when a program returns without an error. -/
def OnSuccess {α : Type} (Q : α → Cluster → Prop) (r : Except GoError α) (c : Cluster) : Prop :=
  ∀ a, r = .ok a → Q a c

variable {α : Type} {Q : α → Cluster → Prop} {context : String}
  {next : Prog Call Call.Reply (Except GoError α)}

/-- Create, taking an object that already exists: after success the object is seen to. -/
theorem holds_create (imageOverrides : List (String × String))
    (h : Held before done (B :: pending) c)
    (hall : done.reverse ++ B :: pending = startObjects ns branch vol image cfg)
    (hnext : ∀ c', Held before (B :: done) pending c' →
      (B :: done).reverse ++ pending = startObjects ns branch vol image cfg →
      (branchSystem ns branch).Holds anything (OnSuccess Q) next c') :
    (branchSystem ns branch).Holds anything (OnSuccess Q)
      (checked context (createIfAbsent (direct ns imageOverrides) B) next) c := by
  have hkeys : ∀ B' ∈ done ++ B :: pending, B'.key ∈ branchKeys ns branch := by
    intro B' hB'
    have hmem : B' ∈ startObjects ns branch vol image cfg := by
      rw [← hall]
      simpa using hB'
    exact startObjects_keys hmem
  have hdistinct : ∀ B' ∈ done ++ pending, B'.key ≠ B.key := by
    have hnodup : ((startObjects ns branch vol image cfg).map (·.key)).Nodup :=
      startObjects_nodup
    rw [← hall, List.map_append, List.map_cons, List.nodup_middle, List.nodup_cons] at hnodup
    intro B' hB' he
    refine hnodup.1 ?_
    rw [← he, ← List.map_append]
    exact List.mem_map_of_mem (by simpa using hB')
  have hall' : (B :: done).reverse ++ pending = startObjects ns branch vol image cfg := by
    rw [← hall, List.reverse_cons, List.append_assoc, List.singleton_append]
  intro c₁ henv _
  refine ⟨trivial, ?_⟩
  intro r c₂ hex _
  have h₁ := h.later hkeys henv
  show (branchSystem ns branch).Holds anything (OnSuccess Q)
    (checked context (.ret (ignoreAlreadyExists r)) next) c₂
  have herr : ∀ err : GoError, err.Transport → (branchSystem ns branch).Holds anything
      (OnSuccess Q) (checked context (.ret (ignoreAlreadyExists (.error err))) next) c₂ := by
    intro err he
    rw [ignoreAlreadyExists, if_neg (by simp [show err.reason = .other from he])]
    exact fun _ ha => nomatch ha
  have hex : Outcome GoError.Transport c₁ (create c₁ B) r c₂ := hex
  cases hB : c₁ B.key with
  | none =>
      rw [create_fresh hB] at hex
      cases hex with
      | answered => exact hnext _ (h₁.create hdistinct hB) hall'
      | dropped he | lost he => exact herr _ he
  | some o =>
      rw [create_taken hB] at hex
      cases hex with
      | answered => exact hnext _ (h₁.take hB) hall'
      | dropped he | lost he => exact herr _ he

/-- The same for the ConfigMap, which not every type needs. -/
theorem holds_createExtraConfig (imageOverrides : List (String × String))
    (h : Held before done
      ((if cfg.extraConfig ≠ "" then [cmObject ns branch cfg] else []) ++ pending) c)
    (hall : done.reverse ++ ((if cfg.extraConfig ≠ "" then [cmObject ns branch cfg] else []) ++
      pending) = startObjects ns branch vol image cfg)
    (hnext : ∀ done' c', Held before done' pending c' →
      done'.reverse ++ pending = startObjects ns branch vol image cfg →
      (branchSystem ns branch).Holds anything (OnSuccess Q) next c') :
    (branchSystem ns branch).Holds anything (OnSuccess Q)
      (checked context (createExtraConfig (direct ns imageOverrides) branch cfg) next) c := by
  unfold createExtraConfig
  by_cases hextra : cfg.extraConfig ≠ ""
  · rw [if_pos hextra] at h hall ⊢
    exact holds_create imageOverrides h hall (hnext _)
  · rw [if_neg hextra] at h hall ⊢
    exact hnext done c h hall

/-! ## The node port -/

/-- The port belongs to the Service stored there, unless that was there before and terminating. -/
def PortOf (x y : Option Object) (port : Int) : Prop :=
  (∃ o s q, y = some o ∧ o.spec = .service s ∧ q ∈ s.ports ∧ q.nodePort = port ∧ 0 < port) ∨
    ∃ o, x = some o ∧ o.deleting = true

theorem PortOf.survives {B : Object} {x y z : Option Object} {port : Int} (h : PortOf x y port)
    (hB : B.deleting = false) (hleft : Left B x y) (hs : Survives y z) : PortOf x z port := by
  rcases h with ⟨o, s, q, rfl, hspec, hq, rfl, hpos⟩ | hdel
  · cases hs with
    | @same _ o' hsame =>
        have hspec' := hsame.spec
        rw [hspec] at hspec'
        obtain ⟨ports, hspec', hports⟩ := hspec'
        obtain ⟨q', hq', -, hnode⟩ := ServicePort.mem_assigned hports hq hpos
        exact Or.inl ⟨o', _, q', rfl, hspec', hq', hnode, hpos⟩
    | reaped hdel =>
        cases hleft with
        | taken hx hsurv =>
            subst hx
            cases hsurv with
            | same hsame => exact Or.inr ⟨_, rfl, hsame.deleting ▸ hdel⟩
        | created _ hsurv =>
            cases hsurv with
            | same hsame => simp [hsame.deleting, hB] at hdel
  · exact Or.inr hdel

theorem assignedNodePort_ok {svc : ServiceSpec} {port : Int}
    (h : assignedNodePort branch svc = .ok port) :
    ∃ q ∈ svc.ports, q.nodePort = port ∧ 0 < port := by
  unfold assignedNodePort firstNodePort at h
  cases hfind : svc.ports.find? (·.nodePort > 0) with
  | none => simp [hfind] at h
  | some q =>
      simp only [hfind, Option.map_some, Except.ok.injEq] at h
      subst h
      exact ⟨q, List.mem_of_find?_eq_some hfind, rfl, by simpa using List.find?_some hfind⟩

/-- What getNodePort returns is a node port of the Service. -/
theorem holds_getNodePort {c : Cluster} :
    (branchSystem ns branch).Holds anything
      (fun r c' => ReflTransGen (branchSystem ns branch).env c c' ∧ ∀ port, r = .ok port →
        ∀ x, PortOf x (c' (serviceKey ns branch)) port)
      (getNodePort (direct ns imageOverrides) branch) c := by
  intro c₁ henv _
  refine ⟨trivial, ?_⟩
  intro r c₂ hex _
  have hex : Outcome GoError.Transport c₁ (getService c₁ (serviceKey ns branch), c₁) r c₂ := hex
  have hc₂ : c₂ = c₁ := Outcome.elim hex (P := (· = c₁)) rfl rfl
  subst hc₂
  cases r with
  | error err => exact ⟨henv, fun _ hr => nomatch hr⟩
  | ok svc =>
      have hget : getService c₂ (serviceKey ns branch) = .ok svc :=
        congrArg Prod.fst (Outcome.of_ok hex)
      obtain ⟨o, ho, hspec⟩ := getService_ok hget
      refine ⟨henv, ?_⟩
      intro port hr x
      obtain ⟨q, hq, hnode, hpos⟩ := assignedNodePort_ok hr
      exact Or.inl ⟨o, svc, q, ho, hspec, hq, hnode, hpos⟩

/-! ## All objects -/

/-- What an endpoint returned by `Start` means for a configuration. -/
structure Finished (ns branch : String) (vol : VolumeInfo) (image : String) (cfg : DbConfig)
    (before : Cluster) (ep : BranchEndpoint) (c : Cluster) : Prop where
  host : ep.host = branch ++ "." ++ ns ++ ".svc.cluster.local"
  port : ep.port = cfg.port
  objects : ∀ B ∈ startObjects ns branch vol image cfg, Left B (before B.key) (c B.key)
  nodePort : PortOf (before (serviceKey ns branch)) (c (serviceKey ns branch)) ep.externalPort

theorem Finished.later {ep : BranchEndpoint} {c' : Cluster}
    (h : Finished ns branch vol image cfg before ep c) (he : (branchSystem ns branch).env c c') :
    Finished ns branch vol image cfg before ep c' where
  host := h.host
  port := h.port
  objects B hB :=
    (h.objects B hB).survives (Ambient.survives he fun hn => hn (startObjects_keys hB))
  nodePort := by
    have hB : serviceObject ns branch cfg.port ∈ startObjects ns branch vol image cfg :=
      serviceObject_mem
    exact h.nodePort.survives (startObjects_live hB) (h.objects _ hB)
      (Ambient.survives he fun hn => hn (startObjects_keys hB))

/-- When every object has been seen to. -/
theorem holds_getEndpoint (h : Held before done [] c)
    (hall : done.reverse ++ [] = startObjects ns branch vol image cfg) :
    (branchSystem ns branch).Holds anything
      (OnSuccess (Finished ns branch vol image cfg before))
      (getEndpoint (direct ns imageOverrides) branch cfg) c := by
  have hdone : ∀ B, B ∈ startObjects ns branch vol image cfg ↔ B ∈ done := by
    intro B
    rw [← hall]
    simp
  refine System.holds_bind.mpr (holds_getNodePort.mono fun r c' ⟨henv, hport⟩ => ?_)
  cases r with
  | error err => exact fun _ hep => nomatch hep
  | ok port =>
      intro ep hep
      cases hep
      have hheld := h.later
        (fun B hB => startObjects_keys ((hdone B).mpr (by simpa using hB))) henv
      exact ⟨rfl, rfl, fun B hB => hheld.done B ((hdone B).mp hB), hport port rfl _⟩

theorem holds_startConfigured :
    (branchSystem ns branch).Holds anything
      (OnSuccess (Finished ns branch vol image cfg before))
      (startConfigured (direct ns imageOverrides) branch vol image cfg) before := by
  have hheld : Held before [] (startObjects ns branch vol image cfg) before :=
    ⟨fun _ hB => (nomatch hB), fun B _ => .refl (before B.key)⟩
  refine holds_create imageOverrides hheld rfl ?_
  intro c₁ h₁ hall₁
  refine holds_create imageOverrides h₁ hall₁ ?_
  intro c₂ h₂ hall₂
  refine holds_createExtraConfig imageOverrides h₂ hall₂ ?_
  intro done₃ c₃ h₃ hall₃
  refine holds_create imageOverrides h₃ hall₃ ?_
  intro c₄ h₄ hall₄
  refine holds_create imageOverrides h₄ hall₄ ?_
  intro c₅ h₅ hall₅
  exact holds_getEndpoint h₅ hall₅

/-! ## Main results -/

/-- What an endpoint says of the object `B` that `Start` wanted: it is there if nothing was,
and what was there stays as it was. -/
structure Provided (B : Object) (before after : Option Object) : Prop where
  created : before = none → ∃ o, after = some o ∧ B.Same o
  accepted : ∀ o, before = some o → o.deleting = false → ∃ o', after = some o' ∧ o.Same o'

theorem Left.provided {B : Object} {x y : Option Object} (h : Left B x y)
    (hB : B.deleting = false) : Provided B x y where
  created := by
    rintro rfl
    cases h with
    | taken hx _ => cases hx
    | created _ hs =>
        cases hs with
        | same hsame => exact ⟨_, rfl, hsame⟩
        | reaped hdel => simp [hB] at hdel
  accepted := by
    rintro o rfl hdel
    cases h with
    | taken _ hs =>
        cases hs with
        | same hsame => exact ⟨_, rfl, hsame⟩
        | reaped hdel' => simp [hdel] at hdel'
    | created hx _ =>
        cases hx with
        | reaped hdel' => simp [hdel] at hdel'

/-- If nothing but objects with the content `Start` builds was there, all are there. -/
theorem Finished.complete {ep : BranchEndpoint} {after : Cluster}
    (h : Finished ns branch vol image cfg before ep after)
    (hbefore : ∀ B ∈ startObjects ns branch vol image cfg, ∀ o, before B.key = some o → B.Same o)
    (hB : B ∈ startObjects ns branch vol image cfg) :
    ∃ o, after B.key = some o ∧ B.Same o := by
  have hlive := startObjects_live hB
  have hprov := (h.objects B hB).provided hlive
  cases hx : before B.key with
  | none => exact hprov.created hx
  | some o =>
      have hsame := hbefore B hB o hx
      obtain ⟨o', ho', hsame'⟩ := hprov.accepted o hx (hsame.deleting.trans hlive)
      exact ⟨o', ho', hsame.trans hsame'⟩

/-- ... and the ports returned are those of the Service, which selects the Pod. -/
theorem Finished.exposed {ep : BranchEndpoint} {after : Cluster}
    (h : Finished ns branch vol image cfg before ep after)
    (hbefore : ∀ B ∈ startObjects ns branch vol image cfg, ∀ o, before B.key = some o → B.Same o) :
    ∃ o s q, after (serviceKey ns branch) = some o ∧ o.spec = .service s ∧
      s.selector = (podObject ns branch image cfg).labels ∧ q ∈ s.ports ∧
      q.port = ep.port ∧ q.nodePort = ep.externalPort := by
  obtain ⟨o, ho, hsame⟩ := h.complete hbefore serviceObject_mem
  obtain ⟨ports, hspec, hports⟩ := hsame.spec
  rw [serviceObject_key] at ho
  -- the Service has the one port it was built with
  obtain ⟨q, rfl, hq⟩ : ∃ q, ports = [q] ∧ q.port = cfg.port := by
    cases hports with
    | cons hq hnil =>
        cases hnil
        exact ⟨_, rfl, hq.1⟩
  refine ⟨o, _, q, ho, hspec, rfl, List.mem_singleton_self q, hq.trans h.port.symm, ?_⟩
  rcases h.nodePort with ⟨o', s', q', ho', hspec', hq', hnode, -⟩ | ⟨o', ho', hdel⟩
  · cases ho.symm.trans ho'
    cases hspec.symm.trans hspec'
    rw [List.mem_singleton.mp hq'] at hnode
    exact hnode
  · have := (hbefore _ serviceObject_mem o' ho').deleting
    simp [hdel, serviceObject] at this

/-- If `Start` returns an endpoint then the type is one it supports; of its objects, those
whose names were free are there with the content it built, and those that were there (and
not terminating) stay as they were; the external port is that of the Service stored there.
If all that were there had the content it builds, then all are there with it, and the ports
are those of a Service that selects the Pod. -/
theorem start_provides {vol : VolumeInfo} {dbType dbVersion : String} {after : Cluster}
    {ep : BranchEndpoint}
    (h : (branchSystem ns branch).Runs
      (start (direct ns imageOverrides) branch vol dbType dbVersion) before (.ok ep) after) :
    ∃ cfg image, builtinConfigs (defaultType dbType) = some cfg ∧
      image = resolveImage imageOverrides cfg (defaultType dbType) dbVersion ∧
      ep.host = branch ++ "." ++ ns ++ ".svc.cluster.local" ∧ ep.port = cfg.port ∧
      (∀ B ∈ startObjects ns branch vol image cfg, Provided B (before B.key) (after B.key)) ∧
      PortOf (before (serviceKey ns branch)) (after (serviceKey ns branch)) ep.externalPort ∧
      ((∀ B ∈ startObjects ns branch vol image cfg, ∀ o, before B.key = some o → B.Same o) →
        (∀ B ∈ startObjects ns branch vol image cfg, ∃ o, after B.key = some o ∧ B.Same o) ∧
        ∃ o s q, after (serviceKey ns branch) = some o ∧ o.spec = .service s ∧
          s.selector = (podObject ns branch image cfg).labels ∧ q ∈ s.ports ∧
          q.port = ep.port ∧ q.nodePort = ep.externalPort) := by
  have hstart : (branchSystem ns branch).Holds anything (OnSuccess fun ep after =>
      ∃ cfg, builtinConfigs (defaultType dbType) = some cfg ∧ Finished ns branch vol
        (resolveImage imageOverrides cfg (defaultType dbType) dbVersion) cfg before ep after)
      (start (direct ns imageOverrides) branch vol dbType dbVersion) before := by
    unfold start
    cases hcfg : builtinConfigs (defaultType dbType) with
    | none =>
        simp only [hcfg]
        exact fun _ hep => nomatch hep
    | some cfg =>
        simp only [hcfg]
        exact holds_startConfigured.mono fun r c hr ep hep => ⟨cfg, rfl, hr ep hep⟩
  obtain ⟨cfg, hcfg, hfin⟩ := hstart.result (fun _ => trivial)
    (fun r c c' hr he ep hep => (hr ep hep).imp fun _ hfin => ⟨hfin.1, hfin.2.later he⟩) h ep rfl
  refine ⟨cfg, _, hcfg, rfl, hfin.host, hfin.port, fun B hB => ?_, hfin.nodePort, fun hbefore => ?_⟩
  · exact (hfin.objects B hB).provided (startObjects_live hB)
  · exact ⟨fun B hB => hfin.complete hbefore hB, hfin.exposed hbefore⟩

/-! ## The branch `demo` -/

def demoVolume : VolumeInfo := ⟨"demo", "nfs", "/tank/clones/demo"⟩

/-- A cluster in which an earlier branch of the same name left its Service and its
PersistentVolume, on the NFS export `path`. -/
def leftovers (path : String) : Cluster :=
  Function.update (Function.update (fun _ => none)
    (pvKey "demo") (some (pvObject "demo" { demoVolume with nfsPath := path })))
    (serviceKey "default" "demo") (some { serviceObject "default" "demo" 6379 with
      spec := .service
        { type := .nodePort
          selector := [("branchdb-branch", "demo")]
          ports := [⟨6379, 6379, 30001⟩] } })

abbrev demoStart : Prog Call Call.Reply (Except GoError BranchEndpoint) :=
  start (direct "default" []) "demo" demoVolume "redis" ""

def demoEndpoint : BranchEndpoint := ⟨"demo.default.svc.cluster.local", 6379, 30001⟩

theorem runs_demoStart (path : String) :
    (branchSystem "default" "demo").Runs demoStart (leftovers path) (.ok demoEndpoint)
      (demoStart.run serve (leftovers path)).2 := by
  have hok : (demoStart.run serve (leftovers path)).1 = .ok demoEndpoint := rfl
  rw [← hok]
  exact .of_server serve_exec demoStart (leftovers path)

theorem start_provides_demo :
    ∃ cfg image, builtinConfigs (defaultType "redis") = some cfg ∧
      image = resolveImage [] cfg (defaultType "redis") "" ∧
      demoEndpoint.host = "demo" ++ "." ++ "default" ++ ".svc.cluster.local" ∧
      demoEndpoint.port = cfg.port ∧
      (∀ B ∈ startObjects "default" "demo" demoVolume image cfg, Provided B
        (leftovers "/tank/clones/demo" B.key)
        ((demoStart.run serve (leftovers "/tank/clones/demo")).2 B.key)) ∧
      PortOf (leftovers "/tank/clones/demo" (serviceKey "default" "demo"))
        ((demoStart.run serve (leftovers "/tank/clones/demo")).2 (serviceKey "default" "demo"))
        demoEndpoint.externalPort ∧
      ((∀ B ∈ startObjects "default" "demo" demoVolume image cfg, ∀ o,
          leftovers "/tank/clones/demo" B.key = some o → B.Same o) →
        (∀ B ∈ startObjects "default" "demo" demoVolume image cfg, ∃ o,
          (demoStart.run serve (leftovers "/tank/clones/demo")).2 B.key = some o ∧ B.Same o) ∧
        ∃ o s q, (demoStart.run serve (leftovers "/tank/clones/demo")).2
            (serviceKey "default" "demo") = some o ∧ o.spec = .service s ∧
          s.selector = (podObject "default" "demo" image cfg).labels ∧ q ∈ s.ports ∧
          q.port = demoEndpoint.port ∧ q.nodePort = demoEndpoint.externalPort) :=
  start_provides (runs_demoStart "/tank/clones/demo")

/-- Start succeeds on a PersistentVolume that points to another export. -/
theorem start_takes_leftover : ∃ (before after : Cluster) (ep : BranchEndpoint),
    (branchSystem "default" "demo").Runs demoStart before (.ok ep) after ∧
      after (pvKey "demo") =
        some (pvObject "demo" { demoVolume with nfsPath := "/tank/clones/old" }) :=
  ⟨_, _, _, runs_demoStart "/tank/clones/old", by rfl⟩

end BranchDB.K8s
