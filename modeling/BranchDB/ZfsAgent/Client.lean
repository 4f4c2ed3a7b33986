/-
# `BranchDB.ZfsAgent.Client` — the volume provider that asks the agent

The calls of `internal/infrastructure/zfsagent/provider.go` that make a clone or destroy
something, and the one that lists the snapshots, over an arbitrary monad in which
`httpClient.Do` answers, and the connection of such a client to an agent.

The base URL is `http://host:port`, as `NewProvider` documents it, so the path of a request
begins after it.  Database type and name go into the URL as they are.  The errors of the
parsers of URLs and times and of the JSON decoder are the library's, and their text is left out.
-/
import BranchDB.Strings
import BranchDB.Timestamp
import BranchDB.ZfsAgent.Handler

namespace BranchDB.ZfsAgent

open Net

/-- `Provider`, the client of the agent. -/
structure Provider (m : Type → Type) where
  token : String
  httpClient : Request → m (Except GoError Response)

def errParse : GoError := errorf "parse"
def errDecode : GoError := errorf "decode"

/-- Only a type that is not empty goes into the query. -/
def dbTypeQuery (dbType : String) : String := if dbType = "" then "" else "?db_type=" ++ dbType

/-! ## Answers -/

structure ErrorBody where
  error : String := ""

/-- The error an answer brings along, if it decodes and is not empty. -/
def Response.error (resp : Response) : Option String :=
  let errBody := decode [.string "error" fun s _ => ErrorBody.mk s] {} resp.body
  if errBody.ok ∧ errBody.value.error ≠ "" then some errBody.value.error else none

def unexpectedStatus (op : String) (status : Nat) : GoError :=
  errorf ("zfsagent: " ++ op ++ ": unexpected status " ++ toString status)

def deletedSnapshot (name : String) (resp : Response) : Except GoError Unit :=
  if resp.status ≥ 300 then
    match resp.error with
    | some msg => .error (errorf msg)
    | none =>
      if resp.status = 404 then .error (errorf ("zfsagent: snapshot not found: " ++ name))
      else .error (unexpectedStatus "DeleteSnapshot" resp.status)
  else .ok ()

/-- What is read of a body; where no handler wrote one, the server may have. -/
def Response.text (resp : Response) : String :=
  match resp.body with
  | some v => v.render ++ "\n"
  | none =>
    if resp.status = 404 then "404 page not found\n"
    else if resp.status = 400 then "400 Bad Request"
    else ""

def volumeFields : List (Field VolumeInfo) :=
  [.string "clone_name" fun s v => { v with cloneName := s },
   .string "nfs_server" fun s v => { v with nfsServer := s },
   .string "nfs_path" fun s v => { v with nfsPath := s }]

def createdClone (resp : Response) : Except GoError VolumeInfo :=
  if resp.status ≥ 300 then
    .error (errorf ("zfsagent: CreateClone: unexpected status " ++ toString resp.status ++ ": " ++
      Strings.trimSpace resp.text))
  else
    let result := decode volumeFields ⟨"", "", ""⟩ resp.body
    if result.ok then .ok result.value else .error (errDecode.wrap "zfsagent: decode response")

/-- A clone that is not there counts as deleted. -/
def deletedClone (resp : Response) : Except GoError Unit :=
  if resp.status = 404 then .ok ()
  else if resp.status ≥ 300 then .error (unexpectedStatus "DeleteClone" resp.status)
  else .ok ()

/-- A snapshot as it is decoded. -/
structure RawSnapshot where
  name : String := ""
  createdAt : String := ""
  databaseType : String := ""

def rawFields : List (Field RawSnapshot) :=
  [.string "name" fun s r => { r with name := s },
   .string "created_at" fun s r => { r with createdAt := s },
   .string "database_type" fun s r => { r with databaseType := s }]

def parseSnapshots : List RawSnapshot → Except GoError (List SnapshotInfo)
  | [] => .ok []
  | r :: rest =>
    match parseRFC3339 r.createdAt with
    | none => .error (errParse.wrap ("zfsagent: parse created_at " ++ quote r.createdAt))
    | some t => (parseSnapshots rest).map
        ({ name := r.name, createdAt := t, databaseType := r.databaseType } :: ·)

def listedSnapshots (resp : Response) : Except GoError (List SnapshotInfo) :=
  if resp.status ≥ 300 then .error (unexpectedStatus "ListSnapshots" resp.status)
  else
    let raw := decodeSlice rawFields {} resp.body
    if raw.ok then parseSnapshots raw.value else .error (errDecode.wrap "zfsagent: decode response")

structure Collected where
  deleted : List String := []

def collectedSnapshots (resp : Response) : Except GoError (List String) :=
  if resp.status ≥ 300 then
    match resp.error with
    | some msg => .error (errorf msg)
    | none => .error (unexpectedStatus "GCSnapshots" resp.status)
  else
    let result := decode [.strings "deleted" fun l _ => Collected.mk l] {} resp.body
    if result.ok then .ok result.value.deleted
    else .error (errDecode.wrap "zfsagent: decode response")

def datasetReset (resp : Response) : Except GoError Unit :=
  if resp.status ≥ 300 then
    match resp.error with
    | some msg => .error (errorf msg)
    | none => .error (unexpectedStatus "ResetDataset" resp.status)
  else .ok ()

/-! ## Calls -/

section

variable {m : Type → Type} [Monad m] (p : Provider m)

/-- What becomes of a request that was sent. -/
def answered {α : Type} (read : Response → Except GoError α) :
    Except GoError Response → Except GoError α
  | .error err => .error (err.wrap "zfsagent: do request")
  | .ok resp => read resp

/-- Build a request, send it, and read the answer. -/
def send {α : Type} (method : Method) (url : String) (body : Body)
    (read : Response → Except GoError α) : m (Except GoError α) :=
  match parse (utf8 url) with
  | none => return .error (errParse.wrap "zfsagent: create request")
  | some url => do
    return answered read (← p.httpClient
      { method, url, authorization := utf8 ("Bearer " ++ p.token), body })

def deleteSnapshot (dbType name : String) : m (Except GoError Unit) :=
  send p .delete ("/snapshots/" ++ name ++ dbTypeQuery dbType) none (deletedSnapshot name)

def createClone (dbType snapshot cloneName : String) : m (Except GoError VolumeInfo) :=
  send p .post ("/clones" ++ dbTypeQuery dbType)
    (some (.object [("name", .string cloneName), ("snapshot", .string snapshot)])) createdClone

def deleteClone (dbType cloneName : String) : m (Except GoError Unit) :=
  send p .delete ("/clones/" ++ cloneName ++ dbTypeQuery dbType) none deletedClone

def listSnapshots (dbType : String) : m (Except GoError (List SnapshotInfo)) :=
  send p .get ("/snapshots" ++ dbTypeQuery dbType) none listedSnapshots

def gcSnapshots (dbType : String) (keepCount : Int) : m (Except GoError (List String)) :=
  send p .post ("/gc" ++ dbTypeQuery dbType)
    (some (.object [("keep_snapshots", .number (toString keepCount))])) collectedSnapshots

def resetDataset (dbType : String) : m (Except GoError Unit) :=
  send p .post ("/reset" ++ dbTypeQuery dbType) none datasetReset

/-! ## The connection -/

/-- A request on its way to the agent.  What the request line cannot hold is answered 400
before any handler sees it. -/
def deliver (h : Handler m) (r : Request) : m (Except GoError Response) :=
  match headerValue r.authorization with
  | none => return .error (errorf "net/http: invalid header field value for \"Authorization\"")
  | some authorization =>
    match parseRequestURI r.url.requestURI with
    | none => return .ok ⟨400, none⟩
    | some url => do return .ok (← serveHTTP h { r with url, authorization })

/-- A client of the agent `h`. -/
def clientOf (h : Handler m) (token : String) : Provider m where
  token := token
  httpClient := deliver h

end

end BranchDB.ZfsAgent
