/-
# `BranchDB.K8sDatabase.Cluster` — the Kubernetes objects of a branch

The cluster maps a key (kind, namespace, name) to the object stored there; objects
that are not namespaced have the empty namespace.  An object has what the client
sent (`labels`, `spec`) and what the system adds: the deletion mark of an object
that is still terminating, and for a claim the volume the binder gave it.

Object specs have the fields the provider sets or reads, plus those the volume
binder looks at.  Quantities are numbers of bytes.

Kubernetes deletes in its own time: a Delete that is answered without an error may
remove the object at once, or only mark it (a Pod runs down its grace period; a
claim or a volume in use is held by a protection finalizer).
-/
import BranchDB.Concur.Register
import BranchDB.Domain
import Mathlib.Logic.Function.Basic

namespace BranchDB.K8s

open Concur

inductive Kind
  | persistentVolume
  | persistentVolumeClaim
  | configMap
  | pod
  | service
deriving DecidableEq, Repr

structure Key where
  kind : Kind
  ns : String
  name : String
deriving DecidableEq, Repr

inductive AccessMode
  | readWriteOnce
  | readOnlyMany
  | readWriteMany
deriving DecidableEq, Repr

/-- `corev1.PersistentVolumeSpec`; `claimRef` names the claim a volume is reserved for. -/
structure PersistentVolumeSpec where
  capacity : Nat
  accessModes : List AccessMode
  mountOptions : List String
  storageClassName : String
  nfsServer : String
  nfsPath : String
  claimRef : Option (String × String) := none
deriving DecidableEq, Repr

/-- `corev1.PersistentVolumeClaimSpec`; an empty `volumeName` asks for no particular volume. -/
structure PersistentVolumeClaimSpec where
  accessModes : List AccessMode
  storageClassName : Option String
  requests : Nat
  volumeName : String := ""
  selector : Option (List (String × String)) := none
deriving DecidableEq, Repr

structure EnvVar where
  name : String
  value : String
deriving DecidableEq, Repr

structure VolumeMount where
  name : String
  mountPath : String
deriving DecidableEq, Repr

inductive VolumeSource
  | persistentVolumeClaim (claimName : String)
  | configMap (name : String)
deriving DecidableEq, Repr

structure Volume where
  name : String
  source : VolumeSource
deriving DecidableEq, Repr

structure Probe where
  command : List String
  initialDelaySeconds : Int
  periodSeconds : Int
deriving DecidableEq, Repr

structure Container where
  name : String
  image : String
  command : List String := []
  args : List String := []
  env : List EnvVar := []
  volumeMounts : List VolumeMount := []
  readinessProbe : Option Probe := none
  runAsUser : Option Int := none
deriving DecidableEq, Repr

structure PodSpec where
  initContainers : List Container := []
  containers : List Container
  volumes : List Volume
deriving DecidableEq, Repr

/-- `nodePort` is 0 until the API server assigns one. -/
structure ServicePort where
  port : Int
  targetPort : Int
  nodePort : Int := 0
deriving DecidableEq, Repr

inductive ServiceType
  | clusterIP
  | nodePort
deriving DecidableEq, Repr

structure ServiceSpec where
  type : ServiceType
  selector : List (String × String)
  ports : List ServicePort
deriving DecidableEq, Repr

inductive ObjectSpec
  | persistentVolume (spec : PersistentVolumeSpec)
  | persistentVolumeClaim (spec : PersistentVolumeClaimSpec)
  | configMap (data : List (String × String))
  | pod (spec : PodSpec)
  | service (spec : ServiceSpec)
deriving DecidableEq, Repr

structure Object where
  key : Key
  labels : List (String × String) := []
  spec : ObjectSpec
  deleting : Bool := false
  /-- The volume bound to this claim. -/
  volume : Option String := none
deriving DecidableEq, Repr

/-- What is stored under each key. -/
abbrev Cluster := Key → Option Object

/-! ## The API server -/

/-- `already exists` for a taken name. -/
def errAlreadyExists (k : Key) : GoError := ⟨.alreadyExists, k.name ++ " already exists"⟩

def errNotFound (k : Key) : GoError := ⟨.notFound, k.name ++ " not found"⟩

/-- Serving a Create. -/
def create (c : Cluster) (o : Object) : Except GoError Unit × Cluster :=
  match c o.key with
  | some _ => (.error (errAlreadyExists o.key), c)
  | none => (.ok (), Function.update c o.key (some o))

/-- Serving a Get of a Service. -/
def getService (c : Cluster) (k : Key) : Except GoError ServiceSpec :=
  match c k with
  | some { spec := .service s, .. } => .ok s
  | _ => .error (errNotFound k)

/-- Serving a Delete: the object goes at once or is marked. -/
inductive DeleteServed (c : Cluster) (k : Key) : Except GoError Unit × Cluster → Prop
  | notFound : c k = none → DeleteServed c k (.error (errNotFound k), c)
  | removed {o : Object} : c k = some o →
      DeleteServed c k (.ok (), Function.update c k none)
  | marked {o : Object} : c k = some o →
      DeleteServed c k (.ok (), Function.update c k (some { o with deleting := true }))

/-- The client calls of the provider. -/
inductive Call
  | create (o : Object)
  | getService (k : Key)
  | delete (k : Key)
deriving DecidableEq, Repr

abbrev Call.Reply : Call → Type
  | .create _ | .delete _ => Except GoError Unit
  | .getService _ => Except GoError ServiceSpec

/-- What a client call may do and answer. -/
def Exec : (e : Call) → Cluster → e.Reply → Cluster → Prop
  | .create o, c, r, c' => Outcome GoError.Transport c (create c o) r c'
  | .getService k, c, r, c' => Outcome GoError.Transport c (getService c k, c) r c'
  | .delete k, c, r, c' => ∃ served, DeleteServed c k served ∧
      Outcome GoError.Transport c served r c'

/-! ## What happens by itself -/

/-- `s'` is `s` with node ports filled in where none was assigned. -/
def ServicePort.Assigned (p p' : ServicePort) : Prop :=
  p'.port = p.port ∧ p'.targetPort = p.targetPort ∧ (p.nodePort > 0 → p'.nodePort = p.nodePort)

/-- Moves of the cluster that no client asked for, and of clients that own the keys in `foreign`. -/
inductive Ambient (foreign : Key → Prop) : Cluster → Cluster → Prop
  /-- A terminating object is gone. -/
  | reap {c : Cluster} {k : Key} {o : Object} : c k = some o → o.deleting = true →
      Ambient foreign c (Function.update c k none)
  /-- The API server assigns node ports. -/
  | assign {c : Cluster} {k : Key} {o : Object} {s : ServiceSpec} {ports : List ServicePort} :
      c k = some o → o.spec = .service s → List.Forall₂ ServicePort.Assigned s.ports ports →
      Ambient foreign c (Function.update c k (some { o with spec := .service { s with ports } }))
  /-- The binder gives a claim a volume. -/
  | bind {c : Cluster} {k : Key} {o : Object} {v : String} : c k = some o → o.volume = none →
      Ambient foreign c (Function.update c k (some { o with volume := some v }))
  /-- Somebody else's object changes. -/
  | other {c : Cluster} {k : Key} (o : Option Object) : foreign k →
      Ambient foreign c (Function.update c k o)

/-! ## What an object keeps -/

theorem ServicePort.assigned_refl (ports : List ServicePort) :
    List.Forall₂ ServicePort.Assigned ports ports := by
  induction ports with
  | nil => exact .nil
  | cons p ports ih => exact .cons ⟨rfl, rfl, fun _ => rfl⟩ ih

theorem ServicePort.Assigned.trans {p p' p'' : ServicePort} (h : p.Assigned p')
    (h' : p'.Assigned p'') : p.Assigned p'' := by
  obtain ⟨hport, htarget, hnode⟩ := h
  obtain ⟨hport', htarget', hnode'⟩ := h'
  refine ⟨hport'.trans hport, htarget'.trans htarget, ?_⟩
  intro hpos
  have := hnode hpos
  rw [hnode' (this ▸ hpos), this]

theorem ServicePort.assigned_trans {ps ps' ps'' : List ServicePort}
    (h : List.Forall₂ ServicePort.Assigned ps ps')
    (h' : List.Forall₂ ServicePort.Assigned ps' ps'') :
    List.Forall₂ ServicePort.Assigned ps ps'' := by
  induction h generalizing ps'' with
  | nil => exact h'
  | cons hp _ ih =>
      cases h' with
      | cons hp' h' => exact .cons (hp.trans hp') (ih h')

/-- A node port once assigned stays with its port. -/
theorem ServicePort.mem_assigned {ps ps' : List ServicePort}
    (h : List.Forall₂ ServicePort.Assigned ps ps') {p : ServicePort} (hp : p ∈ ps)
    (hpos : p.nodePort > 0) : ∃ p' ∈ ps', p'.port = p.port ∧ p'.nodePort = p.nodePort := by
  induction h with
  | nil => cases hp
  | @cons q q' _ _ hq _ ih =>
      rcases List.mem_cons.mp hp with rfl | hp
      · exact ⟨q', List.mem_cons_self, hq.1, hq.2.2 hpos⟩
      · obtain ⟨p', hp', hsame⟩ := ih hp
        exact ⟨p', List.mem_cons_of_mem _ hp', hsame⟩

/-- `spec'` is `spec`, with node ports filled in where none was assigned. -/
def ObjectSpec.Same : ObjectSpec → ObjectSpec → Prop
  | .service s, spec' => ∃ ports, spec' = .service { s with ports } ∧
      List.Forall₂ ServicePort.Assigned s.ports ports
  | spec, spec' => spec' = spec

theorem ObjectSpec.Same.refl (spec : ObjectSpec) : spec.Same spec := by
  cases spec with
  | service s => exact ⟨s.ports, rfl, ServicePort.assigned_refl _⟩
  | persistentVolume | persistentVolumeClaim | configMap | pod => exact rfl

theorem ObjectSpec.Same.trans {spec spec' spec'' : ObjectSpec} (h : spec.Same spec')
    (h' : spec'.Same spec'') : spec.Same spec'' := by
  cases spec with
  | service s =>
      obtain ⟨ports, rfl, hports⟩ := h
      obtain ⟨ports', rfl, hports'⟩ := h'
      exact ⟨ports', rfl, ServicePort.assigned_trans hports hports'⟩
  | persistentVolume | persistentVolumeClaim | configMap | pod =>
      cases (show spec' = _ from h)
      exact h'

/-- `o'` is `o` with what the system fills in. -/
structure Object.Same (o o' : Object) : Prop where
  key : o'.key = o.key
  labels : o'.labels = o.labels
  deleting : o'.deleting = o.deleting
  spec : o.spec.Same o'.spec
  volume : ∀ v, o.volume = some v → o'.volume = some v

theorem Object.Same.refl (o : Object) : o.Same o :=
  ⟨rfl, rfl, rfl, .refl _, fun _ => id⟩

theorem Object.Same.trans {o o' o'' : Object} (h : o.Same o') (h' : o'.Same o'') : o.Same o'' :=
  ⟨h'.key.trans h.key, h'.labels.trans h.labels, h'.deleting.trans h.deleting, h.spec.trans h'.spec,
    fun v hv => h'.volume v (h.volume v hv)⟩

/-- What becomes by itself of what is stored under a key: an object stays the same, or
goes if it is terminating. -/
inductive Survives : Option Object → Option Object → Prop
  | absent : Survives none none
  | same {o o' : Object} : o.Same o' → Survives (some o) (some o')
  | reaped {o : Object} : o.deleting = true → Survives (some o) none

theorem Survives.refl (x : Option Object) : Survives x x := by
  cases x with
  | none => exact .absent
  | some o => exact .same (.refl o)

theorem Survives.of_none {y : Option Object} (h : Survives none y) : y = none := by
  cases h
  rfl

theorem Survives.trans {x y z : Option Object} (h : Survives x y) (h' : Survives y z) :
    Survives x z := by
  cases h with
  | absent => exact h'
  | same hs =>
      cases h' with
      | same hs' => exact .same (hs.trans hs')
      | reaped hdel => exact .reaped (hs.deleting ▸ hdel)
  | reaped hdel =>
      cases h'
      exact .reaped hdel

theorem Ambient.survives {foreign : Key → Prop} {c c' : Cluster} (h : Ambient foreign c c')
    {k : Key} (hk : ¬ foreign k) : Survives (c k) (c' k) := by
  have hupdate : ∀ k' x, (k = k' → Survives (c k) x) →
      Survives (c k) (Function.update c k' x k) := by
    intro k' x hx
    by_cases he : k = k'
    · subst he
      simpa using hx rfl
    · simpa [he] using Survives.refl (c k)
  cases h with
  | reap hk' hdel =>
      refine hupdate _ _ ?_
      intro he
      rw [he, hk']
      exact .reaped hdel
  | @assign k' o s ports hk' hs hports =>
      refine hupdate _ _ ?_
      intro he
      rw [he, hk']
      exact .same ⟨rfl, rfl, rfl, hs ▸ ⟨ports, rfl, hports⟩, fun _ => id⟩
  | @bind k' o v hk' hv =>
      refine hupdate _ _ ?_
      intro he
      rw [he, hk']
      exact .same ⟨rfl, rfl, rfl, .refl _, fun v hv' => by simp [hv] at hv'⟩
  | other o hforeign => exact hupdate _ _ fun he => absurd (he ▸ hforeign) hk

/-! ## Served calls -/

theorem create_fresh {c : Cluster} {o : Object} (h : c o.key = none) :
    create c o = (.ok (), Function.update c o.key (some o)) := by
  simp [create, h]

theorem create_taken {c : Cluster} {o o' : Object} (h : c o.key = some o') :
    create c o = (.error (errAlreadyExists o.key), c) := by
  simp [create, h]

/-- What a call may do: nothing, put an object where there was none, or delete one. -/
inductive Effect (c : Cluster) : Call → Cluster → Prop
  | nothing {e : Call} : Effect c e c
  | created {o : Object} : c o.key = none →
      Effect c (.create o) (Function.update c o.key (some o))
  | removed {k : Key} {o : Object} : c k = some o → Effect c (.delete k) (Function.update c k none)
  | marked {k : Key} {o : Object} : c k = some o →
      Effect c (.delete k) (Function.update c k (some { o with deleting := true }))

theorem Exec.effect {e : Call} {c c' : Cluster} {r : e.Reply} (h : Exec e c r c') :
    Effect c e c' := by
  cases e with
  | create o =>
      have h : Outcome GoError.Transport c (create c o) r c' := h
      refine h.elim .nothing ?_
      cases hk : c o.key with
      | none =>
          rw [create_fresh hk]
          exact .created hk
      | some o' =>
          rw [create_taken hk]
          exact .nothing
  | getService k =>
      have h : Outcome GoError.Transport c (getService c k, c) r c' := h
      exact h.elim (P := Effect c (.getService k)) .nothing .nothing
  | delete k =>
      obtain ⟨served, hserved, hout⟩ := h
      refine hout.elim (P := Effect c (.delete k)) .nothing ?_
      cases hserved with
      | notFound => exact .nothing
      | removed ho => exact .removed ho
      | marked ho => exact .marked ho

/-- A server that answers every call, and deletes at once. -/
def serve : (e : Call) → Cluster → e.Reply × Cluster
  | .create o, c => create c o
  | .getService k, c => (getService c k, c)
  | .delete k, c =>
    match c k with
    | none => (.error (errNotFound k), c)
    | some _ => (.ok (), Function.update c k none)

theorem serve_exec (e : Call) (c : Cluster) : Exec e c (serve e c).1 (serve e c).2 := by
  cases e with
  | create o => exact .answered
  | getService k => exact .answered
  | delete k =>
      refine ⟨serve (.delete k) c, ?_, .answered⟩
      cases hk : c k with
      | none =>
          simp only [serve, hk]
          exact .notFound hk
      | some o =>
          simp only [serve, hk]
          exact .removed hk

/-- Such a server leaves no object it was asked to delete. -/
theorem serve_delete (k : Key) (c : Cluster) : (serve (.delete k) c).2 k = none := by
  cases hk : c k with
  | none => simp only [serve, hk]
  | some o => simp [serve, hk]

theorem getService_ok {c : Cluster} {k : Key} {s : ServiceSpec} (h : getService c k = .ok s) :
    ∃ o, c k = some o ∧ o.spec = .service s := by
  unfold getService at h
  split at h
  · next ls s' d v hk =>
    cases h
    exact ⟨_, hk, rfl⟩
  · cases h

end BranchDB.K8s
