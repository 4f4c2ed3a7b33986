/-
# `BranchDB.Operator.World` — what the reconciler runs against

The life of one CR name.  Objects of other names share with it only the numbers
the API server hands out (resource versions, UIDs) and the clock, so they appear
here as those numbers moving on.  The state holds

  * the CR now stored under the name, with every version ever stored there (a read
    through the informer cache may return any of them);
  * the clock;
  * the clones named like the branch, by dataset, and the CR each was made for;
  * the Kubernetes objects;
  * what has happened: the number of the Reconcile in flight, the UID of the CR its
    Get returned, its last clock reading, and the log, newest event first.

The API server rejects a write whose UID or resource version is not that of the
stored CR, stores a status write or a spec write without touching the other half,
bumps the resource version when (and only when) something changed, marks a deleted
CR and keeps it until its last finalizer is gone.

Users create, edit and delete CRs at any time.  They may do as they like with other
finalizers, but never remove the cleanup finalizer, and nobody can add a finalizer
to a CR that is being deleted.
-/
import BranchDB.Concur.System
import BranchDB.K8sDatabase.Provider
import BranchDB.Operator.Reconciler

namespace BranchDB.Operator

open Concur

/-! ## State -/

/-- What the log remembers.  Calls are tagged with the Reconcile that made them and
the UID of the CR it works for. -/
inductive Event
  | createClone (run : Nat) (uid : Option Nat)
  | start (run : Nat) (uid : Option Nat)
  | stopped (run : Nat) (uid : Option Nat) (ok : Bool)
  | cloneDeleted (run : Nat) (uid : Option Nat) (ok : Bool)
  | statusWritten (run : Nat) (old new : DatabaseBranch) (reading : Option Int)
  | finalizerRemoved (run : Nat) (uid : Nat)
  | deleteIssued (run : Nat) (branch : DatabaseBranch) (clock : Int)
deriving DecidableEq, Repr

structure World where
  crs : Register DatabaseBranch
  nextUID : Nat
  clock : Int
  /-- dataset ↦ the CR (if known) for which a clone of the branch's name was made there -/
  clones : String → Option (Option Nat)
  cluster : K8s.Cluster
  run : Nat := 0
  handling : Option Nat := none
  reading : Option Int := none
  log : List Event := []

/-- What does not change during a run: the CR name, the dataset the agent serves
for a database type, the namespace of the branch's objects. -/
structure Setting where
  name : String
  dataset : String → String
  ns : String

namespace World

def record (w : World) (e : Event) : World := { w with log := e :: w.log }

/-- Store `b` with the next resource version. -/
def store (w : World) (b : DatabaseBranch) : World :=
  { w with crs := w.crs.push fun n => { b with resourceVersion := n } }

/-- `b` as `store` stores it. -/
def stamped (w : World) (b : DatabaseBranch) : DatabaseBranch :=
  { b with resourceVersion := w.crs.next }

/-- Remove the stored CR. -/
def remove (w : World) : World := { w with crs := w.crs.clear }

/-- Replace the stored `cur` by `new`: a write that changes nothing is not stored, and
a CR being deleted goes with its last finalizer. -/
def replace (w : World) (cur new : DatabaseBranch) : DatabaseBranch × World :=
  if new = cur then (cur, w)
  else if new.deletionTimestamp.isSome ∧ new.finalizers = [] then (new, w.remove)
  else (w.stamped new, w.store new)

end World

/-! ## The API server -/

def errNotFound : GoError := ⟨.notFound, "databasebranch not found"⟩
def errConflict : GoError := ⟨.conflict, "the object has been modified"⟩

/-- The stored CR, if the client's copy is up to date. -/
def accept (w : World) (b : DatabaseBranch) : Except GoError DatabaseBranch :=
  match w.crs.obj with
  | none => .error errNotFound
  | some cur =>
    if cur.uid = b.uid ∧ cur.resourceVersion = b.resourceVersion then .ok cur
    else .error errConflict

/-- Serving `Status().Update`. -/
def serveStatusUpdate (w : World) (b : DatabaseBranch) : Except GoError DatabaseBranch × World :=
  match accept w b with
  | .error err => (.error err, w)
  | .ok cur =>
    let served := w.replace cur { cur with status := b.status }
    (.ok served.1, served.2.record (.statusWritten w.run cur served.1 w.reading))

/-- Serving `Update`. -/
def serveUpdate (w : World) (b : DatabaseBranch) : Except GoError DatabaseBranch × World :=
  match accept w b with
  | .error err => (.error err, w)
  | .ok cur =>
    let served := w.replace cur { cur with spec := b.spec, finalizers := b.finalizers }
    if cur.containsFinalizer ∧ finalizerName ∉ b.finalizers then
      (.ok served.1, served.2.record (.finalizerRemoved w.run cur.uid))
    else (.ok served.1, served.2)

/-- Serving a Delete by name, whoever sends it. -/
def serveDelete (w : World) : Except GoError Unit × World :=
  match w.crs.obj with
  | none => (.error errNotFound, w)
  | some cur =>
    if cur.deletionTimestamp.isSome then (.ok (), w)
    else (.ok (), (w.replace cur { cur with deletionTimestamp := some (newTime w.clock) }).2)

/-! ## Calls -/

/-- Everything the reconciler may call. -/
inductive Call
  | client (c : ClientCall)
  | now
  | volume (c : VolumeCall)
  | database (c : DatabaseCall)
  | k8s (c : K8s.Call)
deriving DecidableEq, Repr

abbrev Call.Reply : Call → Type
  | .client c => c.Reply
  | .now => Int
  | .volume c => c.Reply
  | .database c => c.Reply
  | .k8s c => c.Reply

/-- Reading the CR: any version there ever was, or an error. -/
inductive Got (w : World) : Except GoError DatabaseBranch → World → Prop
  | version {b : DatabaseBranch} : b ∈ w.crs.versions →
      Got w (.ok b) { w with handling := some b.uid }
  | failed (err : GoError) : Got w (.error err) w

/-- The agent serving CreateClone in dataset `d`: it makes the clone, or finds it there. -/
inductive CloneServed (w : World) (d : String) : Except GoError VolumeInfo × World → Prop
  | made (r : Except GoError VolumeInfo) : w.clones d = none →
      CloneServed w d (r, { w with clones := Function.update w.clones d (some w.handling) })
  | present (vol : VolumeInfo) : w.clones d ≠ none → CloneServed w d (.ok vol, w)
  | failed (err : GoError) : CloneServed w d (.error err, w)

/-- The agent serving DeleteClone in dataset `d`: afterwards there is no such clone, or it says
that it failed. -/
inductive DeleteCloneServed (w : World) (d : String) : Except GoError Unit × World → Prop
  | gone : DeleteCloneServed w d (.ok (), { w with clones := Function.update w.clones d none })
  | failed (err : GoError) : DeleteCloneServed w d (.error err, w)

variable (S : Setting)

/-- A client call as seen by the caller. -/
def ClientExec : (c : ClientCall) → World → c.Reply → World → Prop
  | .get _, w, r, w' => Got w r w'
  | .update b, w, r, w' => Concur.Outcome (fun _ => True) w (serveUpdate w b) r w'
  | .statusUpdate b, w, r, w' => Concur.Outcome (fun _ => True) w (serveStatusUpdate w b) r w'
  | .delete b, w, r, w' =>
      let w₁ := w.record (.deleteIssued w.run b w.clock)
      Concur.Outcome (fun _ => True) w₁ (serveDelete w₁) r w'

/-- A call to the volume provider as seen by the caller. -/
def VolumeExec : (c : VolumeCall) → World → c.Reply → World → Prop
  | .createClone dbType _ _, w, r, w' =>
      let w₁ := w.record (.createClone w.run w.handling)
      ∃ served, CloneServed w₁ (S.dataset dbType) served ∧
        Concur.Outcome (fun _ => True) w₁ served r w'
  | .deleteClone dbType _, w, r, w' =>
      ∃ served w₁, DeleteCloneServed w (S.dataset dbType) served ∧
        Concur.Outcome (fun _ => True) w served r w₁ ∧
        w' = w₁.record (.cloneDeleted w.run w.handling r.isOk)
  | _, w, _, w' => w' = w

/-- A call to the database provider: what it does to the cluster is its own affair. -/
def DatabaseExec : (c : DatabaseCall) → World → c.Reply → World → Prop
  | .start .., w, _, w' =>
      ∃ cluster, w' = { w with cluster }.record (.start w.run w.handling)
  | .stop _, w, r, w' =>
      ∃ cluster, w' = { w with cluster }.record (.stopped w.run w.handling r.isOk)

def Exec : (e : Call) → World → e.Reply → World → Prop
  | .client c, w, r, w' => ClientExec c w r w'
  | .now, w, r, w' => r = w.clock ∧ w' = { w with reading := some w.clock }
  | .volume c, w, r, w' => VolumeExec S c w r w'
  | .database c, w, r, w' => DatabaseExec c w r w'
  | .k8s c, w, r, w' => ∃ cluster, K8s.Exec c w.cluster r cluster ∧ w' = { w with cluster }

/-! ## The environment -/

/-- A move of users, of other controllers, or of time. -/
inductive Env (w : World) : World → Prop
  | create (spec : DatabaseBranchSpec) (finalizers : List String) : w.crs.obj = none →
      Env w { w.store { name := S.name, uid := w.nextUID, resourceVersion := 0, spec, finalizers }
        with nextUID := w.nextUID + 1 }
  | edit {cur : DatabaseBranch} (spec : DatabaseBranchSpec) (finalizers : List String) :
      w.crs.obj = some cur → (cur.Protected → finalizerName ∈ finalizers) →
      (cur.deletionTimestamp.isSome → finalizers ⊆ cur.finalizers) →
      Env w (w.replace cur { cur with spec, finalizers }).2
  | delete : Env w (serveDelete w).2
  | tick {t : Int} : w.clock ≤ t → Env w { w with clock := t }
  | elsewhere (version : Nat) {uid : Nat} : w.nextUID ≤ uid →
      Env w { w with crs := w.crs.advance version, nextUID := uid }
  | agent {clones : String → Option (Option Nat)} :
      (∀ d u, clones d = some (some u) → w.clones d = some (some u)) →
      Env w { w with clones }
  | cluster {cluster : K8s.Cluster} :
      K8s.Ambient (· ∉ K8s.branchKeys S.ns S.name) w.cluster cluster → Env w { w with cluster }

/-- Before anything happened under this name. -/
structure Initial (w : World) : Prop where
  obj : w.crs.obj = none
  versions : w.crs.versions = []
  clones : ∀ d u, w.clones d ≠ some (some u)
  log : w.log = []

/-- A Reconcile starts. -/
def Started (w w' : World) : Prop :=
  w' = { w with run := w.run + 1, handling := none, reading := none }

/-- The runs of a reconciler over the CR name of `S`. -/
def system (main : Prog Call Call.Reply Outcome) : System Call Call.Reply World Outcome where
  init := Initial
  exec := Exec S
  env := Env S
  start := Started
  main := (· = main)

/-- The reconciler over unknown providers. -/
def reconciler (externalHost : String) : DatabaseBranchReconciler (Prog Call Call.Reply) where
  client c := Prog.perform (Call.client c)
  now := Prog.perform Call.now
  volumeProvider c := Prog.perform (Call.volume c)
  databaseProvider c := Prog.perform (Call.database c)
  externalHost := externalHost

end BranchDB.Operator
