/-
# `BranchDB.Rest.Router` — the API server

`NewK8sRouter` of `internal/interface/api/k8s_branch_handler.go`, with the handlers that
`BranchDB.Rest.Handler` and `BranchDB.Rest.Branches` do not have: one branch, its Pod and its
metrics, and the snapshots.  As in `cmd/branchdb`, there is no hub behind `/ws`.

    request ─▶ route ─▶ body, db_type ─▶ calls of the Kubernetes client and the provider

Names and types that come out of a URL are not decoded
there; what is no text in them is read as `encoding/json` writes it.  The pages of the console
and of the documentation are without their content.
-/
import BranchDB.Rest.Branches
import BranchDB.Rest.Reset
import BranchDB.Rest.Role

namespace BranchDB.Rest.Router

open Branches Concur Net
open ZfsAgent (Method routePath)

/-! ## The handler -/

/-- The status of a Pod, as far as it is shown. -/
structure Pod where
  phase : String
  /-- Types and statuses. -/
  conditions : List (String × String)
  message : String
deriving DecidableEq, Repr

/-- The methods of `DatabaseBranchClient`, Get by the type it fills. -/
inductive ClientCall
  | create (cr : DatedBranch)
  | get (name : String)
  | getPod (name : String)
  | list
  | delete (b : DatabaseBranch)
deriving DecidableEq, Repr

abbrev ClientCall.Reply : ClientCall → Type
  | .create _ | .delete _ => Except GoError Unit
  | .get _ => Except GoError DatedBranch
  | .getPod _ => Except GoError Pod
  | .list => Except GoError (List DatedBranch)

/-- `K8sBranchHandler`, with what it takes the time from and waits for. -/
structure K8sBranchHandler (m : Type → Type) where
  k8sClient : (c : ClientCall) → m c.Reply
  volumeProvider : Option (VolumeProvider m)
  /-- `realMySQLQuerier`, unless another was given. -/
  mysqlQuerier : (clusterHost : String) → m (Except GoError Int)
  /-- `time.Now()`. -/
  now : m Time
  /-- Wait for `ctx.Done()` or `time.After(interval)`. -/
  select : (interval : Int) → m Arm
  externalHost : String
  portWaitTimeout : Int

structure PodInfo where
  phase : String
  ready : Bool
  message : String
deriving DecidableEq, Repr

structure BranchMetrics where
  threadsConnected : Int := 0
  available : Bool
  errorMsg : String := ""
deriving DecidableEq, Repr

structure SnapshotResponse where
  name : String
  createdAt : Time
  databaseType : String
  role : SnapshotRole
deriving DecidableEq, Repr

/-- What is written as JSON. -/
inductive Content
  | branch (resp : BranchResponse)
  | branches (resp : List BranchResponse)
  | stats (stats : K8sStats)
  | pod (info : PodInfo)
  | metrics (metrics : BranchMetrics)
  | snapshots (resp : List SnapshotResponse)
  /-- `{"status": "ok", "name": …}` -/
  | taken (name : String)
  | collected (report : GCReport)
  | reset (report : ResetReport)
  /-- `{"status": "ok"}` -/
  | health
deriving DecidableEq, Repr

inductive Answer
  | written (r : Response Content)
  | empty (status : Nat)
  | page
deriving DecidableEq, Repr

/-- What a handler wrote. -/
def Answer.of {α : Type} (content : α → Content) : Response α → Answer
  | .json status v => .written (.json status (content v))
  | .error status msg => .written (.error status msg)

/-- What the handlers read of an `http.Request`. -/
structure Request where
  method : Method
  url : Url
  body : Body := none

/-- `r.URL.Query().Get("db_type")`. -/
def Request.dbType (r : Request) : String :=
  text (get (parseQuery r.url.rawQuery) (utf8 "db_type"))

structure TakeRequest where
  dbType : String := ""
  name : String := ""
  overwrite : Bool := false
deriving DecidableEq, Repr

def takeFields : List (Field TakeRequest) :=
  [.string "db_type" fun s r => { r with dbType := s },
   .string "name" fun s r => { r with name := s },
   .bool "overwrite" fun b r => { r with overwrite := b }]

section

variable {m : Type → Type} [Monad m] (h : K8sBranchHandler m)

/-- The handler as `handleCreate`, `handleList` and `handleStats` use it. -/
def K8sBranchHandler.creating : Branches.K8sBranchHandler m where
  k8sClient
    | .create cr => h.k8sClient (.create cr)
    | .get name => h.k8sClient (.get name)
    | .list => h.k8sClient .list
  volumeProvider := h.volumeProvider
  now := do return (← h.now).nanos
  select := h.select
  externalHost := h.externalHost
  portWaitTimeout := h.portWaitTimeout

/-- The handler as `handleGC` and `handleResetDataset` use it. -/
def K8sBranchHandler.destroying : Rest.K8sBranchHandler m where
  k8sClient
    | .list => do return (← h.k8sClient .list).map fun crs => crs.map (·.toDatabaseBranch)
    | .delete b => h.k8sClient (.delete b)
  volumeProvider := h.volumeProvider

/-- `isNotFound`. -/
def isNotFound (err : GoError) : Bool := (ignoreNotFound err).isNone

/-- What becomes of a Get that failed. -/
def notGot (err : GoError) : Answer :=
  if isNotFound err then .written (.error 404 "branch not found")
  else .written (.error 500 err.msg)

def handleGet (name : String) : m Answer := do
  match ← h.k8sClient (.get name) with
  | .error err => return notGot err
  | .ok cr => return .written (.json 200 (.branch (toBranchResponse h.externalHost cr)))

def handleDelete (name : String) : m Answer := do
  match ← h.k8sClient (.get name) with
  | .error err => return notGot err
  | .ok cr =>
    match ← h.k8sClient (.delete cr.toDatabaseBranch) with
    | .error err => return .written (.error 500 err.msg)
    | .ok () => return .empty 204

def podName (name : String) : String := "branchdb-db-" ++ name

def handleGetPod (name : String) : m Answer := do
  match ← h.k8sClient (.getPod (podName name)) with
  | .error err => return .written (.error 503 err.msg)
  | .ok pod =>
    return .written (.json 200 (.pod
      ⟨pod.phase, pod.conditions.any (· = ("Ready", "True")), pod.message⟩))

/-- The metrics of a branch that has none to show. -/
def unavailable (errorMsg : String) : Answer :=
  .written (.json 200 (.metrics { available := false, errorMsg }))

/-- The type of the database of a branch. -/
def databaseType (cr : DatedBranch) : String :=
  if cr.spec.databaseType = "" then "mysql" else cr.spec.databaseType

def handleGetMetrics (name : String) : m Answer := do
  match ← h.k8sClient (.get name) with
  | .error err => return unavailable err.msg
  | .ok cr =>
    if cr.status.clusterHost = "" then return unavailable "cluster host not yet assigned"
    else if databaseType cr ≠ "mysql" then
      return unavailable ("metrics not yet supported for database type: " ++ databaseType cr)
    else
      match ← h.mysqlQuerier cr.status.clusterHost with
      | .error err => return unavailable err.msg
      | .ok threads =>
        return .written (.json 200 (.metrics { threadsConnected := threads, available := true }))

/-- A snapshot as it is listed. -/
def toSnapshotResponse (s : SnapshotInfo) : SnapshotResponse :=
  ⟨s.name, s.createdAt, s.databaseType, inferSnapshotRole (utf8 s.name)⟩

/-- The answer of a handler that needs the volume provider and has none. -/
def noProvider : Answer := .of Content.snapshots notConfigured

def handleListSnapshots (dbType : String) : m Answer :=
  match h.volumeProvider with
  | none => return noProvider
  | some vp => do
    match ← vp (.listSnapshots dbType) with
    | .error err => return .written (.error 500 err.msg)
    | .ok snaps => return .written (.json 200 (.snapshots (snaps.map toSnapshotResponse)))

/-- The name a snapshot gets where none is asked for. -/
def autoName (t : Time) : String := "auto-" ++ t.stamp

def snapshotName (body : TakeRequest) : m String := do
  if body.name = "" then
    return autoName (← h.now)
  else
    return body.name

/-- Take a snapshot of this name. -/
def takeNamed (vp : VolumeProvider m) (body : TakeRequest) (name : String) : m Answer := do
  match ← vp (.takeSnapshot body.dbType name body.overwrite) with
  | .error err => return .written (.error 500 err.msg)
  | .ok () => return .written (.json 200 (.taken name))

def handleTakeSnapshot (body : Body) : m Answer :=
  match h.volumeProvider with
  | none => return noProvider
  | some vp => do
    let body := (decode takeFields {} body).value
    takeNamed vp body (← snapshotName h body)

def handleDeleteSnapshot (dbType name : String) : m Answer :=
  match h.volumeProvider with
  | none => return noProvider
  | some vp => do
    match ← vp (.deleteSnapshot dbType name) with
    | .error err => return .written (.error 500 err.msg)
    | .ok () => return .empty 204

end

/-! ## Routes -/

inductive Route
  | list
  | create
  | get (name : Bytes)
  | delete (name : Bytes)
  | getPod (name : Bytes)
  | getMetrics (name : Bytes)
  | stats
  | listSnapshots
  | takeSnapshot
  | deleteSnapshot (name : Bytes)
  | resetDataset
  | gc
  | health
  | page
deriving DecidableEq, Repr

/-- Below `/branches`; only at the end of a path a name is not empty. -/
def routeBranches : Method → List Bytes → Option Route
  | .get, [] => some .list
  | .post, [] => some .create
  | .get, [name] => if name = [] then none else some (.get name)
  | .delete, [name] => if name = [] then none else some (.delete name)
  | .get, [name, part] =>
    if part = utf8 "pod" then some (.getPod name)
    else if part = utf8 "metrics" then some (.getMetrics name)
    else none
  | _, _ => none

/-- Below `/snapshots`; a snapshot may be called `reset`. -/
def routeSnapshots : Method → List Bytes → Option Route
  | .get, [] => some .listSnapshots
  | .post, [] => some .takeSnapshot
  | .post, [name] => if name = utf8 "reset" then some .resetDataset else none
  | .delete, [name] => if name = [] then none else some (.deleteSnapshot name)
  | _, _ => none

/-- The paths of one segment. -/
def routeRest : Method → Bytes → Option Route
  | .post, path => if path = utf8 "gc" then some .gc else none
  | .get, path =>
    if path = utf8 "stats" then some .stats
    else if path = utf8 "health" then some .health
    else if path ∈ ["openapi.yaml", "docs", "", "favicon.svg", "icons.svg"].map utf8 then some .page
    else none
  | .delete, _ | .other, _ => none

/-- `NewK8sRouter`. -/
def route (method : Method) (path : Bytes) : Option Route :=
  match path.splitOn '/'.toUInt8 with
  | [] :: resource :: rest =>
    if resource = utf8 "branches" then routeBranches method rest
    else if resource = utf8 "snapshots" then routeSnapshots method rest
    else
      match rest with
      | [] => routeRest method resource
      | _ :: _ => if resource = utf8 "assets" ∧ method = .get then some .page else none
  | _ => none

/-- The answer to a request that has no route. -/
def notRouted (path : Bytes) : Answer :=
  if [Method.get, .post, .delete].any fun method => (route method path).isSome then .empty 405
  else .empty 404

/-- The path the router matches. -/
def pathOf (u : Url) : Bytes := if routePath u = [] then utf8 "/" else routePath u

section

variable {m : Type → Type} [Monad m] (h : K8sBranchHandler m)

/-- Nothing is answered where `fuel` polls were not enough. -/
def handle (fuel : Nat) (r : Request) : Route → m (Option Answer)
  | .list => do return some (.of .branches (← handleList h.creating))
  | .create => do return (← handleCreate h.creating r.body fuel).map (.of .branch)
  | .get name => do return some (← handleGet h (text name))
  | .delete name => do return some (← handleDelete h (text name))
  | .getPod name => do return some (← handleGetPod h (text name))
  | .getMetrics name => do return some (← handleGetMetrics h (text name))
  | .stats => do return some (.of .stats (← handleStats h.creating))
  | .listSnapshots => do return some (← handleListSnapshots h r.dbType)
  | .takeSnapshot => do return some (← handleTakeSnapshot h r.body)
  | .deleteSnapshot name => do return some (← handleDeleteSnapshot h r.dbType (text name))
  | .resetDataset => do return some (.of .reset (← handleResetDataset h.destroying r.body))
  | .gc => do return some (.of .collected (← handleGC h.destroying r.body))
  | .health => return some (.written (.json 200 .health))
  | .page => return some .page

def serve (fuel : Nat) (r : Request) : m (Option Answer) :=
  match route r.method (pathOf r.url) with
  | some x => handle h fuel r x
  | none => return some (notRouted (pathOf r.url))

end

/-! ## As programs -/

inductive Call
  | client (c : ClientCall)
  | volume (c : VolumeCall)
  | query (clusterHost : String)
  | now
  | select (interval : Int)
deriving DecidableEq, Repr

abbrev Call.Reply : Call → Type
  | .client c => c.Reply
  | .volume c => c.Reply
  | .query _ => Except GoError Int
  | .now => Time
  | .select _ => Arm

/-- The handler as a program over its calls. -/
def direct (S : Setup) : K8sBranchHandler (Prog Call Call.Reply) where
  k8sClient c := .perform (Call.client c)
  volumeProvider := if S.configured then some fun c => .perform (Call.volume c) else none
  mysqlQuerier clusterHost := .perform (Call.query clusterHost)
  now := .perform Call.now
  select interval := .perform (Call.select interval)
  externalHost := S.externalHost
  portWaitTimeout := S.portWaitTimeout

end BranchDB.Rest.Router
