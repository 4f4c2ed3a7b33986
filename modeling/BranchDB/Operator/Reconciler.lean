/-
# `BranchDB.Operator.Reconciler` — the reconcile loop

`internal/interface/operator/reconciler.go`, statement by statement, over an
arbitrary monad in which the API client, the clock and the two providers answer.

    get ─ not found ─────────────────────────────▶ done
     │ deletion timestamp
     ├─────────────▶ handleDeletion: Deleting, Stop, DeleteClone, remove finalizer
     │ Ready, expired
     ├─────────────▶ Delete
     │ no finalizer
     ├─────────────▶ add it, requeue
     │ Ready
     ├─────────────▶ requeue in 10 min
     └─────────────▶ Creating, CreateClone, Start, Ready

The client's `Update` calls write the server's answer back into the object they
were given; here they return it.
-/
import BranchDB.Api
import BranchDB.Domain

namespace BranchDB.Operator

/-- The methods of `client.Client` the reconciler uses, on DatabaseBranch objects. -/
inductive ClientCall
  | get (name : String)
  | update (b : DatabaseBranch)
  | statusUpdate (b : DatabaseBranch)
  | delete (b : DatabaseBranch)
deriving DecidableEq, Repr

abbrev ClientCall.Reply : ClientCall → Type
  | .get _ | .update _ | .statusUpdate _ => Except GoError DatabaseBranch
  | .delete _ => Except GoError Unit

structure DatabaseBranchReconciler (m : Type → Type) where
  client : (c : ClientCall) → m c.Reply
  /-- `time.Now()`. -/
  now : m Int
  volumeProvider : VolumeProvider m
  databaseProvider : BranchDatabaseProvider m
  externalHost : String

/-- `ctrl.Result`. -/
structure Result where
  requeue : Bool := false
  requeueAfter : Int := 0
deriving DecidableEq, Repr

/-- The period after which TTL expiry is rechecked. -/
def requeueInterval : Int := 10 * minute

/-- What `Reconcile` returns: a result and an error that makes it retry. -/
abbrev Outcome := Result × Option GoError

variable {m : Type → Type} [Monad m] (r : DatabaseBranchReconciler m)

/-- Record an error in the status and return it, to be retried; whether the write
succeeds does not matter. -/
def setError (branch : DatabaseBranch) (err : GoError) : m Outcome := do
  let branch := { branch with
    status := { branch.status with phase := .error, message := err.msg } }
  let _ ← r.client (.statusUpdate branch)
  return ({}, some err)

/-- Remove the finalizer of a CR whose resources are gone. -/
def releaseBranch (branch : DatabaseBranch) : m Outcome := do
  match ← r.client (.update branch.removeFinalizer) with
  | .error err => return ({}, some (err.wrap "remove finalizer"))
  | .ok _ => return ({}, none)

/-- Destroy the volume clone of a CR marked Deleting whose database is stopped. -/
def destroyClone (branch : DatabaseBranch) : m Outcome := do
  match ← r.volumeProvider (.deleteClone branch.spec.databaseType branch.name) with
  | .error err => setError r branch (err.wrap "delete clone")
  | .ok () => releaseBranch r branch

/-- Stop the database of a CR marked Deleting, and go on. -/
def stopDatabase (branch : DatabaseBranch) : m Outcome := do
  match ← r.databaseProvider (.stop branch.name) with
  | .error err => setError r branch (err.wrap "stop database")
  | .ok () => destroyClone r branch

/-- The cleanup flow of a CR with a deletion timestamp. -/
def handleDeletion (branch : DatabaseBranch) : m Outcome := do
  if !branch.containsFinalizer then
    return ({}, none)
  else
    -- Mark Deleting.
    let branch := { branch with status := { branch.status with phase := .deleting } }
    match ← r.client (.statusUpdate branch) with
    | .error err => return ({}, some (err.wrap "update status to Deleting"))
    | .ok branch => stopDatabase r branch

/-- `status.expiresAt` of a branch recorded as Ready: left alone unless a TTL is set. -/
def expiresAt (branch : DatabaseBranch) : m (Option Int) := do
  if branch.spec.ttlHours > 0 then
    return some (newTime ((← r.now) + duration branch.spec.ttlHours hour))
  else
    return branch.status.expiresAt

/-- The status of a branch whose database runs. -/
def readyStatus (dbInfo : BranchEndpoint) (externalHost : String) (expiresAt : Option Int) :
    DatabaseBranchStatus where
  phase := .ready
  clusterHost := dbInfo.host
  clusterPort := dbInfo.port
  externalHost := externalHost
  externalPort := dbInfo.externalPort
  message := ""
  expiresAt := expiresAt

/-- Step 5: mark Ready. -/
def markReady (branch : DatabaseBranch) (status : DatabaseBranchStatus) : m Outcome := do
  match ← r.client (.statusUpdate { branch with status }) with
  | .error err => return ({}, some (err.wrap "update status to Ready"))
  | .ok _ => return ({ requeueAfter := requeueInterval }, none)

/-- Step 4: record all connection info and set TTL, and go on. -/
def recordReady (branch : DatabaseBranch) (dbInfo : BranchEndpoint) : m Outcome := do
  let expires ← expiresAt r branch
  markReady r branch (readyStatus dbInfo r.externalHost expires)

/-- Step 3: start the database on the clone, and go on. -/
def startDatabase (branch : DatabaseBranch) (volumeInfo : VolumeInfo) : m Outcome := do
  match ← r.databaseProvider
      (.start branch.name volumeInfo branch.spec.databaseType branch.spec.databaseVersion) with
  | .error err => setError r branch (err.wrap "start database")
  | .ok dbInfo => recordReady r branch dbInfo

/-- Step 2: create the volume clone, and go on. -/
def createVolume (branch : DatabaseBranch) : m Outcome := do
  match ← r.volumeProvider
      (.createClone branch.spec.databaseType branch.spec.snapshotRef branch.name) with
  | .error err => setError r branch (err.wrap "create clone")
  | .ok volumeInfo => startDatabase r branch volumeInfo

/-- The creation flow of a CR with the finalizer that is not Ready yet. -/
def createBranch (branch : DatabaseBranch) : m Outcome := do
  -- Step 1: Mark Creating.
  let branch := { branch with status := { branch.status with phase := .creating } }
  match ← r.client (.statusUpdate branch) with
  | .error err => return ({}, some (err.wrap "update status to Creating"))
  | .ok branch => createVolume r branch

/-- Whether the branch is Ready and its expiry has passed; the clock is read only then. -/
def expired (branch : DatabaseBranch) : m Bool := do
  match branch.status.expiresAt with
  | some t => if branch.status.phase = .ready then return after (← r.now) t else return false
  | none => return false

/-- Delete a branch whose TTL has expired. -/
def deleteExpired (branch : DatabaseBranch) : m Outcome := do
  match ← r.client (.delete branch) with
  | .error err => return ({}, some (err.wrap "delete expired branch"))
  | .ok () => return ({}, none)

/-- Add the finalizer and leave the rest to the next Reconcile. -/
def addFinalizer (branch : DatabaseBranch) : m Outcome := do
  match ← r.client (.update branch.addFinalizer) with
  | .error err => return ({}, some (err.wrap "add finalizer"))
  | .ok _ => return ({ requeue := true }, none)

/-- The flow of a CR that is not being deleted. -/
def reconcileLive (branch : DatabaseBranch) : m Outcome := do
  if ← expired r branch then deleteExpired r branch
  else if !branch.containsFinalizer then addFinalizer r branch
  -- Skip if already Ready.
  else if branch.status.phase = .ready then return ({ requeueAfter := requeueInterval }, none)
  else createBranch r branch

def reconcile (name : String) : m Outcome := do
  match ← r.client (.get name) with
  | .error err => return ({}, ignoreNotFound err)
  | .ok branch =>
    if branch.deletionTimestamp.isSome then handleDeletion r branch
    else reconcileLive r branch

end BranchDB.Operator
