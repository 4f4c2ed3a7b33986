/-
# `BranchDB.ZfsAgent.Handler` — the HTTP side of the ZFS agent

`internal/interface/api/zfsagent/handler.go`, over an arbitrary monad in which the volume
providers answer.  The agent has one provider for each database type it is configured with.

    request ─▶ Bearer token ─▶ route ─▶ body ─▶ pickProvider ─▶ one call of the provider

Names and database types come out of URLs as bytes.  The router (`chi`) matches the raw path
where there is one and does not decode what it takes from it.  A provider that is not there
is a nil interface: its method panics, and the recovering middleware answers 500.
-/
import BranchDB.Domain
import BranchDB.Json
import BranchDB.Net.Url

namespace BranchDB.ZfsAgent

open Net

/-! ## Providers -/

/-- The methods of `AgentVolumeProvider`. -/
inductive AgentCall
  | takeSnapshot (name : Bytes) (overwrite : Bool)
  | deleteSnapshot (name : Bytes)
  | listSnapshots
  | gcSnapshots (keepCount : Int)
  | resetDataset
  | createClone (snapshot cloneName : Bytes)
  | deleteClone (cloneName : Bytes)
  | listClones
  | getClone (cloneName : Bytes)
deriving DecidableEq, Repr

/-- `errors.Is(err, ErrNotFound)` is the reason `notFound`. -/
abbrev AgentCall.Reply : AgentCall → Type
  | .takeSnapshot .. | .deleteSnapshot _ | .resetDataset | .deleteClone _ => Except GoError Unit
  | .listSnapshots => Except GoError (List SnapshotInfo)
  | .gcSnapshots _ => Except GoError (List String)
  | .createClone .. | .getClone _ => Except GoError VolumeInfo
  | .listClones => Except GoError (List VolumeInfo)

/-- An implementation of `AgentVolumeProvider`. -/
abbrev AgentVolumeProvider (m : Type → Type) := (c : AgentCall) → m c.Reply

/-! ## Requests and responses -/

inductive Method
  | get
  | post
  | delete
  | other
deriving DecidableEq, Repr

/-- What the handlers read of an `http.Request`. -/
structure Request where
  method : Method
  url : Url
  authorization : Bytes
  body : Body := none

structure Response where
  status : Nat
  body : Body := none

def writeJSON (status : Nat) (v : Json) : Response := ⟨status, some v⟩

def writeError (status : Nat) (msg : String) : Response :=
  writeJSON status (.object [("error", .string msg)])

/-- What the recovering middleware makes of a panic. -/
def recovered : Response := ⟨500, none⟩

/-! ## Routes -/

inductive Route
  | createSnapshot
  | listSnapshots
  | deleteSnapshot (name : Bytes)
  | createClone
  | listClones
  | getClone (name : Bytes)
  | deleteClone (name : Bytes)
  | gc
  | reset
deriving DecidableEq, Repr

/-- The path the router matches. -/
def routePath (u : Url) : Bytes := if u.rawPath ≠ [] then u.rawPath else u.path

/-- `NewRouter`; a name is one segment of the path, and not empty. -/
def route (method : Method) (path : Bytes) : Option Route :=
  match path.splitOn '/'.toUInt8 with
  | [[], resource] =>
    match method with
    | .post =>
      if resource = utf8 "snapshots" then some .createSnapshot
      else if resource = utf8 "clones" then some .createClone
      else if resource = utf8 "gc" then some .gc
      else if resource = utf8 "reset" then some .reset
      else none
    | .get =>
      if resource = utf8 "snapshots" then some .listSnapshots
      else if resource = utf8 "clones" then some .listClones
      else none
    | .delete | .other => none
  | [[], resource, name] =>
    if name = [] then none
    else match method with
    | .get => if resource = utf8 "clones" then some (.getClone name) else none
    | .delete =>
      if resource = utf8 "snapshots" then some (.deleteSnapshot name)
      else if resource = utf8 "clones" then some (.deleteClone name)
      else none
    | .post | .other => none
  | _ => none

/-- The answer to a request that has no route. -/
def notRouted (path : Bytes) : Response :=
  if [Method.get, .post, .delete].any fun method => (route method path).isSome then ⟨405, none⟩
  else ⟨404, none⟩

/-! ## The handler -/

/-- `Handler`; the map of providers is listed in the order its iteration takes. -/
structure Handler (m : Type → Type) where
  providers : List (String × AgentVolumeProvider m)
  defaultType : String
  token : String

/-- `NewHandler`: the first key of the iteration is the default type. -/
def newHandler {m : Type → Type} (providers : List (String × AgentVolumeProvider m))
    (token : String) : Handler m where
  providers := providers
  defaultType := match providers with
    | [] => ""
    | (k, _) :: _ => k
  token := token

/-- `r.URL.Query().Get("db_type")`. -/
def Request.dbType (r : Request) : Bytes := get (parseQuery r.url.rawQuery) (utf8 "db_type")

variable {m : Type → Type} [Monad m] (h : Handler m)

/-- `h.providers[dbType]`. -/
def Handler.provider (dbType : Bytes) : Option (AgentVolumeProvider m) :=
  (h.providers.find? fun p => utf8 p.1 = dbType).map (·.2)

/-- The type asked for, or the default if none is. -/
def Handler.typeOf (r : Request) : Bytes := if r.dbType = [] then utf8 h.defaultType else r.dbType

def pickProvider (r : Request) : Option (AgentVolumeProvider m) :=
  match h.provider (h.typeOf r) with
  | some p => some p
  | none => h.provider (utf8 h.defaultType)

/-- Call the provider picked for the request. -/
def invoke (r : Request) (c : AgentCall) (respond : c.Reply → Response) : m Response :=
  match pickProvider h r with
  | some p => return respond (← p c)
  | none => return recovered

/-- `authMiddleware`: the request has the agent's Bearer token. -/
def Handler.authorized (r : Request) : Bool :=
  (utf8 "Bearer ").isPrefixOf r.authorization ∧
    r.authorization.drop (utf8 "Bearer ").length = utf8 h.token

structure CreateSnapshotRequest where
  name : String := ""
  overwrite : Bool := false

def createSnapshotFields : List (Field CreateSnapshotRequest) :=
  [.string "name" fun s r => { r with name := s },
   .bool "overwrite" fun b r => { r with overwrite := b }]

def handleCreateSnapshot (r : Request) : m Response :=
  let req := decode createSnapshotFields {} r.body
  if !req.ok then return writeError 400 "invalid request body"
  else if req.value.name = "" then return writeError 400 "name is required"
  else invoke h r (.takeSnapshot (utf8 req.value.name) req.value.overwrite) fun
    | .error err => writeError 500 err.msg
    | .ok () => ⟨201, none⟩

/-- `snapshotResponse`; an empty database type is omitted. -/
def snapshotResponse (dbType : String) (s : SnapshotInfo) : Json :=
  .object ([("name", .string s.name), ("created_at", .string s.createdAt.format)] ++
    if dbType = "" then [] else [("database_type", .string dbType)])

def handleListSnapshots (r : Request) : m Response :=
  invoke h r .listSnapshots fun
    | .error err => writeError 500 err.msg
    | .ok snapshots =>
      writeJSON 200 (.array (snapshots.map (snapshotResponse (text (h.typeOf r)))))

/-- What a provider's error becomes where a missing object is told apart. -/
def writeFailure (err : GoError) : Response :=
  if err.reason = .notFound then writeError 404 err.msg else writeError 500 err.msg

def handleDeleteSnapshot (r : Request) (name : Bytes) : m Response :=
  invoke h r (.deleteSnapshot name) fun
    | .error err => writeFailure err
    | .ok () => ⟨204, none⟩

structure CreateCloneRequest where
  snapshot : String := ""
  name : String := ""

def createCloneFields : List (Field CreateCloneRequest) :=
  [.string "snapshot" fun s r => { r with snapshot := s },
   .string "name" fun s r => { r with name := s }]

def toCloneResponse (v : VolumeInfo) : Json :=
  .object [("clone_name", .string v.cloneName), ("nfs_server", .string v.nfsServer),
    ("nfs_path", .string v.nfsPath)]

def handleCreateClone (r : Request) : m Response :=
  let req := decode createCloneFields {} r.body
  if !req.ok then return writeError 400 "invalid request body"
  else if req.value.snapshot = "" then return writeError 400 "snapshot is required"
  else if req.value.name = "" then return writeError 400 "name is required"
  else invoke h r (.createClone (utf8 req.value.snapshot) (utf8 req.value.name)) fun
    | .error err => writeError 500 err.msg
    | .ok vol => writeJSON 201 (toCloneResponse vol)

def handleListClones (r : Request) : m Response :=
  invoke h r .listClones fun
    | .error err => writeError 500 err.msg
    | .ok clones => writeJSON 200 (.array (clones.map toCloneResponse))

def handleGetClone (r : Request) (name : Bytes) : m Response :=
  invoke h r (.getClone name) fun
    | .error err => writeFailure err
    | .ok vol => writeJSON 200 (toCloneResponse vol)

def handleDeleteClone (r : Request) (name : Bytes) : m Response :=
  invoke h r (.deleteClone name) fun
    | .error err => writeFailure err
    | .ok () => ⟨204, none⟩

structure GcRequest where
  keepSnapshots : Int := 0

def gcFields : List (Field GcRequest) := [.int "keep_snapshots" fun n _ => { keepSnapshots := n }]

/-- The number of snapshots to keep; a body that does not decode counts as one that gives none. -/
def keepSnapshots (r : Request) : Int :=
  let req := (decode gcFields {} r.body).value
  if req.keepSnapshots ≤ 0 then 5 else req.keepSnapshots

def handleGC (r : Request) : m Response :=
  invoke h r (.gcSnapshots (keepSnapshots r)) fun
    | .error err => writeError 500 err.msg
    | .ok deleted => writeJSON 200 (.object [("deleted", .array (deleted.map .string))])

def handleReset (r : Request) : m Response :=
  invoke h r .resetDataset fun
    | .error err => writeError 500 err.msg
    | .ok () => writeJSON 200 (.object [("status", .string "ok")])

def handle (r : Request) : Route → m Response
  | .createSnapshot => handleCreateSnapshot h r
  | .listSnapshots => handleListSnapshots h r
  | .deleteSnapshot name => handleDeleteSnapshot h r name
  | .createClone => handleCreateClone h r
  | .listClones => handleListClones h r
  | .getClone name => handleGetClone h r name
  | .deleteClone name => handleDeleteClone h r name
  | .gc => handleGC h r
  | .reset => handleReset h r

def serveHTTP (r : Request) : m Response :=
  if !h.authorized r then return writeError 401 "unauthorized"
  else match route r.method (routePath r.url) with
  | some x => handle h r x
  | none => return notRouted (routePath r.url)

end BranchDB.ZfsAgent
