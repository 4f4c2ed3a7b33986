/-
# `BranchDB.Operator.Healthy` — when everything answers

The relations of `BranchDB.Operator.World` say what calls may do.  `serve` is one way
they can go: every request reaches its server and is answered, reads return the newest
version, the agent and the cluster do what they are asked.  It is an instance of the
relations (`serve_exec`), so a Reconcile can always run through; a run is then a list
of moves of the environment and Reconciles, computed by `reconciled`.
-/
import BranchDB.Operator.Sound

namespace BranchDB.Operator

open Concur

variable (S : Setting)

def serveGet (w : World) : Except GoError DatabaseBranch × World :=
  match w.crs.obj, w.crs.versions with
  | some _, b :: _ => (.ok b, { w with handling := some b.uid })
  | _, _ => (.error errNotFound, w)

def serveClient : (c : ClientCall) → World → c.Reply × World
  | .get _, w => serveGet w
  | .update b, w => serveUpdate w b
  | .statusUpdate b, w => serveStatusUpdate w b
  | .delete b, w => serveDelete (w.record (.deleteIssued w.run b w.clock))

def serveVolume : (c : VolumeCall) → World → c.Reply × World
  | .createClone dbType _ cloneName, w =>
    let w := w.record (.createClone w.run w.handling)
    let vol : VolumeInfo := ⟨cloneName, "nfs", "/tank/clones/" ++ cloneName⟩
    match w.clones (S.dataset dbType) with
    | none => (.ok vol,
        { w with clones := Function.update w.clones (S.dataset dbType) (some w.handling) })
    | some _ => (.ok vol, w)
  | .deleteClone dbType _, w =>
    (.ok (), { w with clones := Function.update w.clones (S.dataset dbType) none }.record
      (.cloneDeleted w.run w.handling true))
  | .takeSnapshot .., w | .deleteSnapshot .., w | .resetDataset .., w => (.ok (), w)
  | .listSnapshots _, w => (.ok [], w)
  | .listClones _, w | .gcSnapshots .., w => (.ok [], w)

def serveDatabase : (c : DatabaseCall) → World → c.Reply × World
  | .start branch _ _ _, w => (.ok ⟨branch, 3306, 30000⟩, w.record (.start w.run w.handling))
  | .stop _, w => (.ok (), w.record (.stopped w.run w.handling true))

def serve : (e : Call) → World → e.Reply × World
  | .client c, w => serveClient c w
  | .now, w => (w.clock, { w with reading := some w.clock })
  | .volume c, w => serveVolume S c w
  | .database c, w => serveDatabase c w
  | .k8s c, w => ((K8s.serve c w.cluster).1, { w with cluster := (K8s.serve c w.cluster).2 })

variable {S}

theorem serveGet_got (w : World) : Got w (serveGet w).1 (serveGet w).2 := by
  unfold serveGet
  split
  · next b bs _ hvs => exact .version (by rw [hvs]; exact List.mem_cons_self)
  · exact .failed _

theorem serveVolume_exec (c : VolumeCall) (w : World) :
    VolumeExec S c w (serveVolume S c w).1 (serveVolume S c w).2 := by
  cases c with
  | createClone dbType snapshot cloneName =>
      refine ⟨serveVolume S (.createClone dbType snapshot cloneName) w, ?_, .answered⟩
      unfold serveVolume
      cases hd : w.clones (S.dataset dbType) with
      | none =>
          simp only [World.record, hd]
          exact .made _ hd
      | some u =>
          simp only [World.record, hd]
          exact .present _ (by simp [hd])
  | deleteClone dbType cloneName => exact ⟨_, _, .gone, .answered, rfl⟩
  | takeSnapshot | deleteSnapshot | listSnapshots | listClones | gcSnapshots | resetDataset =>
      exact rfl

theorem serve_exec (e : Call) (w : World) : Exec S e w (serve S e w).1 (serve S e w).2 := by
  cases e with
  | client c =>
      cases c with
      | get name => exact serveGet_got w
      | update | statusUpdate | delete => exact .answered
  | now => exact ⟨rfl, rfl⟩
  | volume c => exact serveVolume_exec c w
  | database c => cases c <;> exact ⟨w.cluster, rfl⟩
  | k8s c => exact ⟨_, K8s.serve_exec c w.cluster, rfl⟩

/-- The state in which a Reconcile starts. -/
def World.started (w : World) : World :=
  { w with run := w.run + 1, handling := none, reading := none }

/-- The state after a Reconcile that nothing disturbs. -/
def reconciled (S : Setting) (p : Prog Call Call.Reply Outcome) (w : World) : World :=
  (p.run (serve S) w.started).2

theorem reach_reconciled {p : Prog Call Call.Reply Outcome} {w : World}
    (h : (system S p).Reach ⟨w, none⟩) : (system S p).Reach ⟨reconciled S p w, none⟩ :=
  h.run rfl rfl (.of_server serve_exec p w.started)

/-- In a restricted system too, as far as its calls are allowed. -/
theorem reach_reconciled_restrict {p : Prog Call Call.Reply Outcome} {w : World}
    {okCall : (e : Call) → World → e.Reply → World → Prop} {okEnv : World → World → Prop}
    (hok : p.Within (serve S) (fun e w => okCall e w (serve S e w).1 (serve S e w).2) w.started)
    (h : ((system S p).restrict okCall okEnv).Reach ⟨w, none⟩) :
    ((system S p).restrict okCall okEnv).Reach ⟨reconciled S p w, none⟩ :=
  h.run rfl rfl (.of_serve (fun e w hw => And.intro (serve_exec e w) hw) hok)

/-- The state after a user created a CR. -/
def created (S : Setting) (spec : DatabaseBranchSpec) (w : World) : World :=
  { w.store { name := S.name, uid := w.nextUID, resourceVersion := 0, spec, finalizers := [] } with
    nextUID := w.nextUID + 1 }

theorem reach_created {p : Prog Call Call.Reply Outcome} {w : World} {spec : DatabaseBranchSpec}
    (h : (system S p).Reach ⟨w, none⟩) (hobj : w.crs.obj = none) :
    (system S p).Reach ⟨created S spec w, none⟩ :=
  h.step (.env (.create spec [] hobj))

/-- A world in which nothing has happened. -/
def World.fresh : World where
  crs := ⟨none, [], 1⟩
  nextUID := 1
  clock := 0
  clones := fun _ => none
  cluster := fun _ => none

theorem World.initial_fresh : Initial World.fresh :=
  ⟨rfl, rfl, fun _ _ => nofun, rfl⟩

/-! ## A branch named `demo` -/

/-- A branch whose dataset is named by its database type. -/
def demo : Setting := ⟨"demo", id, "default"⟩

abbrev demoReconcile : Prog Call Call.Reply Outcome :=
  reconcile (reconciler "db.example.com") demo.name

/-- The state after a user created a branch and two Reconciles brought it to Ready. -/
def demoReady (spec : DatabaseBranchSpec) : World :=
  reconciled demo demoReconcile (reconciled demo demoReconcile (created demo spec .fresh))

theorem reach_demoReady (spec : DatabaseBranchSpec) :
    (system demo demoReconcile).Reach ⟨demoReady spec, none⟩ :=
  reach_reconciled (reach_reconciled (reach_created (.init World.initial_fresh) rfl))

end BranchDB.Operator
