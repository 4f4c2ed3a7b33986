/-
# `BranchDB.ZfsAgent.Remote` — the provider behind the wire

The rest of `internal/infrastructure/zfsagent/provider.go`, and the client as the
`domain.VolumeProvider` that the operator and its API are given.

    VolumeCall ─▶ request ─▶ handler ─▶ AgentCall ─▶ reply ─▶ response ─▶ answer
        │                                  ▲                                ▲
        └─────────── onAgent ──────────────┘────────────── answer ──────────┘

A call whose type and names can stand in a URL is one call of the provider that serves the type,
and `answer` says what of its reply comes back (`remote_runs`): results as they are, of an error
its text or less, never what kind it was; a clone that is not there counts as deleted.
-/
import Mathlib
import BranchDB.ZfsAgent.Keeps
import BranchDB.ZfsAgent.Snapshots

namespace BranchDB.ZfsAgent

open Concur Net

/-! ## The rest of the client -/

def takenSnapshot (resp : Response) : Except GoError Unit :=
  if resp.status ≥ 300 then
    match resp.error with
    | some msg => .error (errorf msg)
    | none => .error (unexpectedStatus "TakeSnapshot" resp.status)
  else .ok ()

/-- A clone as it is decoded. -/
structure RawClone where
  cloneName : String := ""

def listedClones (resp : Response) : Except GoError (List String) :=
  if resp.status ≥ 300 then .error (unexpectedStatus "ListClones" resp.status)
  else
    let raw := decodeSlice [.string "clone_name" fun s _ => RawClone.mk s] {} resp.body
    if raw.ok then .ok (raw.value.map (·.cloneName))
    else .error (errDecode.wrap "zfsagent: decode response")

section

variable {m : Type → Type} [Monad m] (p : Provider m)

def takeSnapshot (dbType name : String) (overwrite : Bool) : m (Except GoError Unit) :=
  send p .post ("/snapshots" ++ dbTypeQuery dbType)
    (some (.object [("name", .string name), ("overwrite", .bool overwrite)])) takenSnapshot

def listClones (dbType : String) : m (Except GoError (List String)) :=
  send p .get ("/clones" ++ dbTypeQuery dbType) none listedClones

/-- The client, as a `domain.VolumeProvider`. -/
def remote : VolumeProvider m
  | .takeSnapshot dbType name overwrite => takeSnapshot p dbType name overwrite
  | .deleteSnapshot dbType name => deleteSnapshot p dbType name
  | .createClone dbType snapshot cloneName => createClone p dbType snapshot cloneName
  | .deleteClone dbType cloneName => deleteClone p dbType cloneName
  | .listSnapshots dbType => listSnapshots p dbType
  | .listClones dbType => listClones p dbType
  | .gcSnapshots dbType keepCount => gcSnapshots p dbType keepCount
  | .resetDataset dbType => resetDataset p dbType

end

/-! ## What becomes of a call -/

/-- The type a call is for. -/
def dbTypeOf : VolumeCall → String
  | .takeSnapshot dbType _ _ | .deleteSnapshot dbType _ | .createClone dbType _ _
  | .deleteClone dbType _ | .listSnapshots dbType | .listClones dbType | .gcSnapshots dbType _
  | .resetDataset dbType => dbType

/-- What the agent's provider is asked. -/
def onAgent : VolumeCall → AgentCall
  | .takeSnapshot _ name overwrite => .takeSnapshot (utf8 name) overwrite
  | .deleteSnapshot _ name => .deleteSnapshot (utf8 name)
  | .createClone _ snapshot cloneName => .createClone (utf8 snapshot) (utf8 cloneName)
  | .deleteClone _ cloneName => .deleteClone (utf8 cloneName)
  | .listSnapshots _ => .listSnapshots
  | .listClones _ => .listClones
  | .gcSnapshots _ keepCount => .gcSnapshots (if keepCount ≤ 0 then 5 else keepCount)
  | .resetDataset _ => .resetDataset

/-- What is left of an error that the handler answered with 500: its text, if it has one. -/
def relayed (op : String) (err : GoError) : GoError :=
  if err.msg = "" then unexpectedStatus op 500 else errorf err.msg

/-- What is left of that of a deletion, where a missing snapshot is told apart. -/
def unsnapped (name : String) (err : GoError) : GoError :=
  if err.msg ≠ "" then errorf err.msg
  else if err.reason = .notFound then errorf ("zfsagent: snapshot not found: " ++ name)
  else unexpectedStatus "DeleteSnapshot" 500

/-- The type that a listing is marked with. -/
def shownType (keys : List String) (dbType : String) : String :=
  if dbType = "" then keys.headD "" else dbType

/-- What comes back of the provider's reply. -/
def answer (keys : List String) : (c : VolumeCall) → (onAgent c).Reply → c.Reply
  | .takeSnapshot .., reply => reply.mapError (relayed "TakeSnapshot")
  | .deleteSnapshot _ name, reply => reply.mapError (unsnapped name)
  | .createClone .., reply => reply.mapError fun err =>
      errorf ("zfsagent: CreateClone: unexpected status 500: " ++
        Strings.trimSpace ((Json.object [("error", .string err.msg)]).render ++ "\n"))
  | .deleteClone .., reply =>
      match reply with
      | .ok () => .ok ()
      | .error err =>
        if err.reason = .notFound then .ok () else .error (unexpectedStatus "DeleteClone" 500)
  | .listSnapshots dbType, reply =>
      match reply with
      | .ok l => parseSnapshots (l.map (raw (shownType keys dbType)))
      | .error _ => .error (unexpectedStatus "ListSnapshots" 500)
  | .listClones _, reply =>
      match reply with
      | .ok l => .ok (l.map (·.cloneName))
      | .error _ => .error (unexpectedStatus "ListClones" 500)
  | .gcSnapshots .., reply => reply.mapError (relayed "GCSnapshots")
  | .resetDataset _, reply => reply.mapError (relayed "ResetDataset")

/-- A name that can stand at the end of a path. -/
def InPath (name : String) : Prop := Segment (utf8 name) ∧ ∀ b ∈ utf8 name, pathSafe b = true

instance (name : String) : Decidable (InPath name) :=
  @instDecidableAnd _ _ inferInstance (List.decidableBAll _ (utf8 name))

/-- A type that can stand in a query. -/
def InQuery (dbType : String) : Prop := Plain (utf8 dbType) ∧ QuerySafe (utf8 dbType)

instance (dbType : String) : Decidable (InQuery dbType) := inferInstanceAs (Decidable (_ ∧ _))

/-- A call that the agent understands as it is meant: what stands in its URL can, what has to be
named is, and a count is an `int`. -/
def Tame (c : VolumeCall) : Prop :=
  InQuery (dbTypeOf c) ∧
  match c with
  | .takeSnapshot _ name _ => name ≠ ""
  | .deleteSnapshot _ name | .deleteClone _ name => InPath name
  | .createClone _ snapshot cloneName => snapshot ≠ "" ∧ cloneName ≠ ""
  | .gcSnapshots _ keepCount => -2 ^ 63 ≤ keepCount ∧ keepCount < 2 ^ 63
  | .listSnapshots _ | .listClones _ | .resetDataset _ => True

instance : DecidablePred Tame
  | .takeSnapshot .. | .createClone .. | .deleteSnapshot .. | .deleteClone .. | .gcSnapshots ..
  | .listSnapshots _ | .listClones _ | .resetDataset _ => inferInstanceAs (Decidable (_ ∧ _))

/-- A token that arrives as it is sent. -/
def Sendable (token : String) : Prop :=
  headerValue (utf8 ("Bearer " ++ token)) = some (utf8 ("Bearer " ++ token))

instance (token : String) : Decidable (Sendable token) := inferInstanceAs (Decidable (_ = _))

/-! ## The request -/

variable {keys : List String} {token dbType path key : String} {method : Method} {body : Body}

/-- The query of a type. -/
def queryOf (dbType : String) : Bytes :=
  if dbType = "" then [] else utf8 "db_type" ++ '='.toUInt8 :: utf8 dbType

theorem url_eq : utf8 (path ++ dbTypeQuery dbType) = reference (utf8 path) (queryOf dbType) := by
  rw [utf8_append, dbTypeQuery, queryOf, reference]
  by_cases ht : dbType = ""
  · simp [ht, utf8]
  · have hne : utf8 "db_type" ++ '='.toUInt8 :: utf8 dbType ≠ [] := by simp
    rw [if_neg ht, if_neg ht, if_neg hne, utf8_append]
    rfl

theorem querySafe_queryOf (h : InQuery dbType) : QuerySafe (queryOf dbType) := by
  obtain ⟨-, hcontrol, hfragment, hblank⟩ := h
  unfold queryOf
  split
  · decide
  · have hkey : QuerySafe (utf8 "db_type=") := by decide
    have hwhole : utf8 "db_type" ++ '='.toUInt8 :: utf8 dbType = utf8 "db_type=" ++ utf8 dbType :=
      rfl
    rw [hwhole]
    refine ⟨?_, ?_, ?_⟩
    · have hfirst := hkey.1
      unfold hasControl at hfirst hcontrol ⊢
      rw [List.any_append, hfirst, hcontrol]
      rfl
    · intro hmem
      rcases List.mem_append.mp hmem with hmem | hmem
      · exact hkey.2.1 hmem
      · exact hfragment hmem
    · intro hmem
      rcases List.mem_append.mp hmem with hmem | hmem
      · exact hkey.2.2 hmem
      · exact hblank hmem

/-- The request as it arrives. -/
def requestOf (token : String) (method : Method) (path dbType : String) (body : Body) : Request where
  method := method
  url := ⟨utf8 path, [], queryOf dbType, false⟩
  authorization := utf8 ("Bearer " ++ token)
  body := body

theorem arriving_eq (htoken : Sendable token) (htype : InQuery dbType)
    (hslash : ∃ rest, utf8 path = '/'.toUInt8 :: rest) (hpath : ∀ b ∈ utf8 path, pathSafe b = true) :
    arriving token method (path ++ dbTypeQuery dbType) body =
      some (requestOf token method path dbType body) := by
  have hwire := wire_reference hslash hpath (querySafe_queryOf htype)
  unfold arriving
  rw [htoken, url_eq, hwire]
  rfl

theorem dbType_requestOf (htype : InQuery dbType) :
    (requestOf token method path dbType body).dbType = utf8 dbType := by
  show get (parseQuery (queryOf dbType)) (utf8 "db_type") = utf8 dbType
  unfold queryOf
  split
  · next hempty =>
    rw [hempty]
    decide
  · exact get_parseQuery_plain (by decide) (by decide) htype.1

theorem authorized_requestOf :
    (agent [] token).authorized (requestOf token method path dbType body) = true := by
  have hbearer : utf8 ("Bearer " ++ token) = utf8 "Bearer " ++ utf8 token := utf8_append _ _
  show decide ((utf8 "Bearer ").isPrefixOf (utf8 ("Bearer " ++ token)) = true ∧
    (utf8 ("Bearer " ++ token)).drop (utf8 "Bearer ").length = utf8 token) = true
  have hstarts : (utf8 "Bearer ").isPrefixOf (utf8 ("Bearer " ++ token)) = true := by
    rw [hbearer, List.isPrefixOf_iff_prefix]
    exact List.prefix_append _ _
  exact decide_eq_true ⟨hstarts, by rw [hbearer, List.drop_left]⟩

/-- A request on a route that asks for one call is that call, and what is read of its response. -/
theorem send_eq {α : Type} {read : Response → Except GoError α} {x : Route} {c : AgentCall}
    {respond : c.Reply → Response} (htoken : Sendable token) (htype : InQuery dbType)
    (hslash : ∃ rest, utf8 path = '/'.toUInt8 :: rest) (hpath : ∀ b ∈ utf8 path, pathSafe b = true)
    (hserved : servedBy keys (utf8 dbType) = some key) (hroute : route method (utf8 path) = some x)
    (hhandle : handle (agent keys token) (requestOf token method path dbType body) x =
      invoke (agent keys token) (requestOf token method path dbType body) c respond) :
    send (clientOf (agent keys token) token) method (path ++ dbTypeQuery dbType) body read =
      .call ⟨key, c⟩ fun reply => .ret (read (respond reply)) := by
  have hrouted : route (requestOf token method path dbType body).method
      (routePath (requestOf token method path dbType body).url) = some x := hroute
  rw [send_of_arriving read (arriving_eq htoken htype hslash hpath),
    serveHTTP_of_route authorized_requestOf hrouted, hhandle, invoke_agent,
    dbType_requestOf htype, hserved]
  rfl

/-! ## The answers -/

theorem error_writeError (status : Nat) (msg : String) :
    (writeError status msg).error = if msg = "" then none else some msg := by
  by_cases hmsg : msg = ""
  · simp [Response.error, writeError, writeJSON, decode, decodeMember, Field.string, hmsg]
  · simp [Response.error, writeError, writeJSON, decode, decodeMember, Field.string, hmsg]

theorem takenSnapshot_error (err : GoError) :
    takenSnapshot (writeError 500 err.msg) = .error (relayed "TakeSnapshot" err) := by
  have hstatus : (writeError 500 err.msg).status ≥ 300 := (by decide : 500 ≥ 300)
  rw [takenSnapshot, if_pos hstatus, error_writeError, relayed]
  by_cases hmsg : err.msg = ""
  · rw [if_pos hmsg, if_pos hmsg]
    rfl
  · rw [if_neg hmsg, if_neg hmsg]

theorem collectedSnapshots_error (err : GoError) :
    collectedSnapshots (writeError 500 err.msg) = .error (relayed "GCSnapshots" err) := by
  have hstatus : (writeError 500 err.msg).status ≥ 300 := (by decide : 500 ≥ 300)
  rw [collectedSnapshots, if_pos hstatus, error_writeError, relayed]
  by_cases hmsg : err.msg = ""
  · rw [if_pos hmsg, if_pos hmsg]
    rfl
  · rw [if_neg hmsg, if_neg hmsg]

theorem datasetReset_error (err : GoError) :
    datasetReset (writeError 500 err.msg) = .error (relayed "ResetDataset" err) := by
  have hstatus : (writeError 500 err.msg).status ≥ 300 := (by decide : 500 ≥ 300)
  rw [datasetReset, if_pos hstatus, error_writeError, relayed]
  by_cases hmsg : err.msg = ""
  · rw [if_pos hmsg, if_pos hmsg]
    rfl
  · rw [if_neg hmsg, if_neg hmsg]

theorem deletedSnapshot_error_eq (name : String) (err : GoError) :
    deletedSnapshot name (writeFailure err) = .error (unsnapped name err) := by
  have hrelayed : ∀ status, status ≥ 300 → (status = 404 ↔ err.reason = .notFound) →
      status ∈ [404, 500] →
      deletedSnapshot name (writeError status err.msg) = .error (unsnapped name err) := by
    intro status hstatus hfound hmem
    have hstatus : (writeError status err.msg).status ≥ 300 := hstatus
    rw [deletedSnapshot, if_pos hstatus, error_writeError, unsnapped]
    by_cases hmsg : err.msg = ""
    · rw [if_pos hmsg, if_neg (not_not.mpr hmsg)]
      by_cases hreason : err.reason = .notFound
      · rw [if_pos hreason]
        exact if_pos (hfound.mpr hreason)
      · rw [if_neg hreason]
        have hne : status ≠ 404 := fun he => hreason (hfound.mp he)
        obtain rfl : status = 500 := by simpa [hne] using hmem
        exact if_neg hne
    · rw [if_neg hmsg, if_pos hmsg]
  unfold writeFailure
  by_cases hreason : err.reason = .notFound
  · rw [if_pos hreason]
    exact hrelayed 404 (by decide) (iff_of_true rfl hreason) (by decide)
  · rw [if_neg hreason]
    exact hrelayed 500 (by decide) (iff_of_false (by decide) hreason) (by decide)

/-- The keys of a clone are told apart. -/
theorem foldName_clone : foldName "clone_name" ≠ foldName "nfs_server" ∧
    foldName "clone_name" ≠ foldName "nfs_path" ∧
    foldName "nfs_server" ≠ foldName "nfs_path" := by decide +kernel

theorem decode_toCloneResponse (vol : VolumeInfo) :
    decode volumeFields ⟨"", "", ""⟩ (some (toCloneResponse vol)) = ⟨vol, true⟩ := by
  obtain ⟨h₁, h₂, h₃⟩ := foldName_clone
  simp [decode, decodeMember, volumeFields, Field.string, toCloneResponse, h₁, h₂, h₃]

theorem createdClone_ok (vol : VolumeInfo) :
    createdClone (writeJSON 201 (toCloneResponse vol)) = .ok vol := by
  have hstatus : ¬ (201 ≥ 300) := by decide
  rw [writeJSON, createdClone, if_neg hstatus, decode_toCloneResponse]
  rfl

theorem listedClones_ok (l : List VolumeInfo) :
    listedClones (writeJSON 200 (.array (l.map toCloneResponse))) =
      .ok (l.map (·.cloneName)) := by
  obtain ⟨h₁, h₂, -⟩ := foldName_clone
  have hone : ∀ vol : VolumeInfo, decode [.string "clone_name" fun s _ => RawClone.mk s] {}
      (some (toCloneResponse vol)) = ⟨⟨vol.cloneName⟩, true⟩ := by
    intro vol
    simp [decode, decodeMember, Field.string, toCloneResponse, h₁, h₂]
  have hstatus : ¬ (200 ≥ 300) := by decide
  rw [writeJSON, listedClones, if_neg hstatus]
  simp [decodeSlice, hone, Function.comp_def]

theorem collectedSnapshots_ok (deleted : List String) :
    collectedSnapshots (writeJSON 200 (.object [("deleted", .array (deleted.map .string))])) =
      .ok deleted := by
  have helements : (deleted.map Json.string).mapM Field.strings.element = some deleted := by
    induction deleted with
    | nil => rfl
    | cons s rest ih => simp [ih, Field.strings.element]
  have hstatus : ¬ (200 ≥ 300) := by decide
  rw [writeJSON, collectedSnapshots, if_neg hstatus]
  simp [decode, decodeMember, Field.strings, helements]

theorem listedSnapshots_ok (dbType : String) (l : List SnapshotInfo) :
    listedSnapshots (writeJSON 200 (.array (l.map (snapshotResponse dbType)))) =
      parseSnapshots (l.map (raw dbType)) := by
  have hstatus : ¬ (200 ≥ 300) := by decide
  rw [writeJSON, listedSnapshots, if_neg hstatus, decodeSlice_snapshots]
  rfl

/-! ## The bodies -/

theorem keepSnapshots_requestOf {keepCount : Int} (h : -2 ^ 63 ≤ keepCount ∧ keepCount < 2 ^ 63) :
    keepSnapshots (requestOf token method path dbType
      (some (.object [("keep_snapshots", .number (toString keepCount))]))) =
      if keepCount ≤ 0 then 5 else keepCount := by
  have hread : parseInt (toString keepCount) = some keepCount := by
    rw [parseInt, show (toString keepCount).toInt? = some keepCount from Int.toInt?_repr keepCount]
    exact Option.filter_eq_some_iff.mpr ⟨rfl, decide_eq_true h⟩
  have hdecode : ∀ literal, parseInt literal = some keepCount →
      (decode gcFields {} (some (.object [("keep_snapshots", .number literal)]))).value =
        ⟨keepCount⟩ := by
    intro literal hliteral
    simp [decode, decodeMember, gcFields, Field.int, hliteral]
  have hvalue := hdecode _ hread
  unfold keepSnapshots requestOf
  dsimp only
  rw [hvalue]

theorem decode_takeSnapshot (name : String) (overwrite : Bool) : decode createSnapshotFields {}
    (some (.object [("name", .string name), ("overwrite", .bool overwrite)])) =
      ⟨⟨name, overwrite⟩, true⟩ := by
  have hkeys : foldName "name" ≠ foldName "overwrite" := by decide +kernel
  simp [decode, decodeMember, createSnapshotFields, Field.string, Field.bool, hkeys]

theorem decode_createClone (snapshot name : String) : decode createCloneFields {}
    (some (.object [("name", .string name), ("snapshot", .string snapshot)])) =
      ⟨⟨snapshot, name⟩, true⟩ := by
  have hkeys : foldName "snapshot" ≠ foldName "name" := by decide +kernel
  simp [decode, decodeMember, createCloneFields, Field.string, hkeys]

/-! ## The calls -/

/-- The response to a snapshot that was to be taken. -/
def taken : Except GoError Unit → Response
  | .error err => writeError 500 err.msg
  | .ok () => ⟨201, none⟩

def cloned : Except GoError VolumeInfo → Response
  | .error err => writeError 500 err.msg
  | .ok vol => writeJSON 201 (toCloneResponse vol)

def collected : Except GoError (List String) → Response
  | .error err => writeError 500 err.msg
  | .ok deleted => writeJSON 200 (.object [("deleted", .array (deleted.map .string))])

section

variable {r : Request} {h : Handler (Prog Invocation Invocation.Reply)}

theorem handleCreateSnapshot_eq {name : String} {overwrite : Bool}
    (hdecode : decode createSnapshotFields {} r.body = ⟨⟨name, overwrite⟩, true⟩)
    (hname : name ≠ "") :
    handleCreateSnapshot h r = invoke h r (.takeSnapshot (utf8 name) overwrite) taken := by
  unfold handleCreateSnapshot
  generalize decode createSnapshotFields {} r.body = decoded at hdecode
  subst hdecode
  dsimp only
  rw [if_neg (by decide), if_neg hname]
  refine congrArg (invoke h r _) (funext fun reply => ?_)
  cases reply with
  | error err => rfl
  | ok => rfl

theorem handleCreateClone_eq {snapshot name : String}
    (hdecode : decode createCloneFields {} r.body = ⟨⟨snapshot, name⟩, true⟩)
    (hsnapshot : snapshot ≠ "") (hname : name ≠ "") :
    handleCreateClone h r = invoke h r (.createClone (utf8 snapshot) (utf8 name)) cloned := by
  unfold handleCreateClone
  generalize decode createCloneFields {} r.body = decoded at hdecode
  subst hdecode
  dsimp only
  rw [if_neg (by decide), if_neg hsnapshot, if_neg hname]
  refine congrArg (invoke h r _) (funext fun reply => ?_)
  cases reply with
  | error err => rfl
  | ok => rfl

theorem handleGC_eq {keepCount : Int} (hkeep : keepSnapshots r = keepCount) :
    handleGC h r = invoke h r (.gcSnapshots keepCount) collected := by
  unfold handleGC
  rw [hkeep]
  refine congrArg (invoke h r _) (funext fun reply => ?_)
  cases reply with
  | error err => rfl
  | ok => rfl

end

theorem createdClone_error (err : GoError) : createdClone (writeError 500 err.msg) =
    .error (errorf ("zfsagent: CreateClone: unexpected status 500: " ++
      Strings.trimSpace ((Json.object [("error", .string err.msg)]).render ++ "\n"))) := by
  have hstatus : (writeError 500 err.msg).status ≥ 300 := (by decide : 500 ≥ 300)
  have htext : "zfsagent: CreateClone: unexpected status " ++ toString 500 ++ ": " =
      "zfsagent: CreateClone: unexpected status 500: " := by decide
  rw [createdClone, if_pos hstatus, ← htext]
  rfl

theorem deletedClone_error (err : GoError) : deletedClone (writeFailure err) =
    if err.reason = .notFound then .ok () else .error (unexpectedStatus "DeleteClone" 500) := by
  unfold writeFailure
  by_cases hreason : err.reason = .notFound
  · rw [if_pos hreason, if_pos hreason]
    rfl
  · rw [if_neg hreason, if_neg hreason]
    rfl

/-- The type a listing is marked with is the one that was asked for, or the default. -/
theorem text_typeOf (htype : InQuery dbType) :
    text ((agent keys token).typeOf (requestOf token method path dbType body)) =
      shownType keys dbType := by
  have hdefault : (agent keys token).defaultType = keys.headD "" := by
    cases keys with
    | nil => rfl
    | cons k ks => rfl
  unfold Handler.typeOf shownType
  rw [dbType_requestOf htype, hdefault]
  by_cases ht : dbType = ""
  · rw [if_pos ht, if_pos (utf8_eq_nil.mpr ht), text_utf8]
  · rw [if_neg ht, if_neg fun h => ht (utf8_eq_nil.mp h), text_utf8]

/-- The requests that name nothing below a resource. -/
def unnamed : List (Method × String × Route) :=
  [(.post, "/snapshots", .createSnapshot), (.post, "/clones", .createClone),
    (.get, "/snapshots", .listSnapshots), (.get, "/clones", .listClones), (.post, "/gc", .gc),
    (.post, "/reset", .reset)]

theorem path_unnamed : ∀ e ∈ unnamed,
    ((utf8 e.2.1).head? = some '/'.toUInt8 ∧ (utf8 e.2.1).all pathSafe = true) ∧
      route e.1 (utf8 e.2.1) = some e.2.2 := by decide +kernel

/-- The path of something named below a resource. -/
theorem path_named {name : String} (resource : Bytes) (pre : String)
    (hresource : resource ∈ [utf8 "snapshots", utf8 "clones"]) (hpre : utf8 pre = below resource [])
    (hname : InPath name) :
    ((utf8 (pre ++ name)).head? = some '/'.toUInt8 ∧ (utf8 (pre ++ name)).all pathSafe = true) ∧
    route .delete (utf8 (pre ++ name)) =
      if resource = utf8 "snapshots" then some (.deleteSnapshot (utf8 name))
      else if resource = utf8 "clones" then some (.deleteClone (utf8 name))
      else none := by
  have hboth : ∀ resource ∈ [utf8 "snapshots", utf8 "clones"],
      '/'.toUInt8 ∉ resource ∧ (below resource []).all pathSafe = true := by decide
  obtain ⟨hslash, hsafe⟩ := hboth resource hresource
  have hpath : utf8 (pre ++ name) = below resource (utf8 name) := by
    rw [utf8_append, hpre]
    simp [below]
  refine ⟨⟨?_, ?_⟩, ?_⟩
  · rw [hpath]
    rfl
  · rw [utf8_append, List.all_append, hpre, hsafe, Bool.true_and]
    exact List.all_eq_true.mpr hname.2
  · rw [hpath]
    exact route_segment hslash hname.1

section

variable {name snapshot : String} (htoken : Sendable token) (htype : InQuery dbType)
  (hserved : servedBy keys (utf8 dbType) = some key)

include htoken htype hserved

/-- The two sides of a call agree if they do on every reply. -/
theorem send_agrees {α : Type} {read : Response → Except GoError α} {x : Route} {c : AgentCall}
    (respond : c.Reply → Response) {result : c.Reply → Except GoError α}
    (hpath : (utf8 path).head? = some '/'.toUInt8 ∧ (utf8 path).all pathSafe = true)
    (hroute : route method (utf8 path) = some x)
    (hhandle : handle (agent keys token) (requestOf token method path dbType body) x =
      invoke (agent keys token) (requestOf token method path dbType body) c respond)
    (hread : ∀ reply, read (respond reply) = result reply) :
    send (clientOf (agent keys token) token) method (path ++ dbTypeQuery dbType) body read =
      .call ⟨key, c⟩ fun reply => .ret (result reply) := by
  have hslash : ∃ rest, utf8 path = '/'.toUInt8 :: rest :=
    ⟨_, List.eq_cons_of_mem_head? (Option.mem_def.mpr hpath.1)⟩
  rw [send_eq htoken htype hslash (List.all_eq_true.mp hpath.2) hserved hroute hhandle]
  exact congrArg (Prog.call _) (funext fun reply => congrArg Prog.ret (hread reply))

theorem takeSnapshot_eq {overwrite : Bool} (hname : name ≠ "") :
    takeSnapshot (clientOf (agent keys token) token) dbType name overwrite =
      .call ⟨key, .takeSnapshot (utf8 name) overwrite⟩ fun reply =>
        .ret (answer keys (.takeSnapshot dbType name overwrite) reply) := by
  obtain ⟨hsafe, hroute⟩ := path_unnamed (.post, "/snapshots", .createSnapshot) (by simp [unnamed])
  refine send_agrees htoken htype hserved taken hsafe hroute ?_ fun reply => ?_
  · show handleCreateSnapshot (agent keys token) _ = _
    exact handleCreateSnapshot_eq (decode_takeSnapshot name overwrite) hname
  · cases reply with
    | error err => exact takenSnapshot_error err
    | ok => rfl

theorem deleteSnapshot_remote (hname : InPath name) :
    deleteSnapshot (clientOf (agent keys token) token) dbType name =
      .call ⟨key, .deleteSnapshot (utf8 name)⟩ fun reply =>
        .ret (answer keys (.deleteSnapshot dbType name) reply) := by
  obtain ⟨hsafe, hroute⟩ := path_named (utf8 "snapshots") "/snapshots/" (by decide) (by decide) hname
  rw [if_pos rfl] at hroute
  refine send_agrees htoken htype hserved deleted hsafe hroute (handle_deleteSnapshot _) ?_
  intro reply
  cases reply with
  | error err => exact deletedSnapshot_error_eq name err
  | ok => rfl

theorem deleteClone_remote (hname : InPath name) :
    deleteClone (clientOf (agent keys token) token) dbType name =
      .call ⟨key, .deleteClone (utf8 name)⟩ fun reply =>
        .ret (answer keys (.deleteClone dbType name) reply) := by
  obtain ⟨hsafe, hroute⟩ := path_named (utf8 "clones") "/clones/" (by decide) (by decide) hname
  rw [if_neg (by decide), if_pos rfl] at hroute
  refine send_agrees htoken htype hserved deleted hsafe hroute (handle_deleteClone _) ?_
  intro reply
  cases reply with
  | error err => exact deletedClone_error err
  | ok => rfl

theorem createClone_eq (hsnapshot : snapshot ≠ "") (hname : name ≠ "") :
    createClone (clientOf (agent keys token) token) dbType snapshot name =
      .call ⟨key, .createClone (utf8 snapshot) (utf8 name)⟩ fun reply =>
        .ret (answer keys (.createClone dbType snapshot name) reply) := by
  obtain ⟨hsafe, hroute⟩ := path_unnamed (.post, "/clones", .createClone) (by simp [unnamed])
  refine send_agrees htoken htype hserved cloned hsafe hroute ?_ fun reply => ?_
  · show handleCreateClone (agent keys token) _ = _
    exact handleCreateClone_eq (decode_createClone snapshot name) hsnapshot hname
  · cases reply with
    | error err => exact createdClone_error err
    | ok vol => exact createdClone_ok vol

theorem listSnapshots_eq :
    listSnapshots (clientOf (agent keys token) token) dbType =
      .call ⟨key, .listSnapshots⟩ fun reply => .ret (answer keys (.listSnapshots dbType) reply) := by
  obtain ⟨hsafe, hroute⟩ := path_unnamed (.get, "/snapshots", .listSnapshots) (by simp [unnamed])
  refine send_agrees htoken htype hserved _ hsafe hroute rfl ?_
  intro reply
  cases reply with
  | error err => rfl
  | ok l =>
      refine (listedSnapshots_ok _ l).trans ?_
      rw [text_typeOf htype]
      rfl

theorem listClones_eq :
    listClones (clientOf (agent keys token) token) dbType =
      .call ⟨key, .listClones⟩ fun reply => .ret (answer keys (.listClones dbType) reply) := by
  obtain ⟨hsafe, hroute⟩ := path_unnamed (.get, "/clones", .listClones) (by simp [unnamed])
  refine send_agrees htoken htype hserved _ hsafe hroute rfl ?_
  intro reply
  cases reply with
  | error err => rfl
  | ok l => exact listedClones_ok l

theorem gcSnapshots_eq {keepCount : Int} (hkeep : -2 ^ 63 ≤ keepCount ∧ keepCount < 2 ^ 63) :
    gcSnapshots (clientOf (agent keys token) token) dbType keepCount =
      .call ⟨key, .gcSnapshots (if keepCount ≤ 0 then 5 else keepCount)⟩ fun reply =>
        .ret (answer keys (.gcSnapshots dbType keepCount) reply) := by
  obtain ⟨hsafe, hroute⟩ := path_unnamed (.post, "/gc", .gc) (by simp [unnamed])
  refine send_agrees htoken htype hserved collected hsafe hroute ?_ fun reply => ?_
  · exact handleGC_eq (keepSnapshots_requestOf hkeep)
  · cases reply with
    | error err => exact collectedSnapshots_error err
    | ok l => exact collectedSnapshots_ok l

theorem resetDataset_eq :
    resetDataset (clientOf (agent keys token) token) dbType =
      .call ⟨key, .resetDataset⟩ fun reply => .ret (answer keys (.resetDataset dbType) reply) := by
  obtain ⟨hsafe, hroute⟩ := path_unnamed (.post, "/reset", .reset) (by simp [unnamed])
  refine send_agrees htoken htype hserved _ hsafe hroute rfl ?_
  intro reply
  cases reply with
  | error err => exact datasetReset_error err
  | ok => rfl

end

/-- A call of the client that can be understood, as a program. -/
theorem remote_eq {c : VolumeCall} (htoken : Sendable token) (hc : Tame c)
    (hserved : servedBy keys (utf8 (dbTypeOf c)) = some key) :
    remote (clientOf (agent keys token) token) c =
      .call ⟨key, onAgent c⟩ fun reply => .ret (answer keys c reply) := by
  obtain ⟨htype, hc⟩ := hc
  cases c with
  | takeSnapshot dbType name overwrite => exact takeSnapshot_eq htoken htype hserved hc
  | deleteSnapshot dbType name => exact deleteSnapshot_remote htoken htype hserved hc
  | createClone dbType snapshot cloneName => exact createClone_eq htoken htype hserved hc.1 hc.2
  | deleteClone dbType cloneName => exact deleteClone_remote htoken htype hserved hc
  | listSnapshots dbType => exact listSnapshots_eq htoken htype hserved
  | listClones dbType => exact listClones_eq htoken htype hserved
  | gcSnapshots dbType keepCount => exact gcSnapshots_eq htoken htype hserved hc
  | resetDataset dbType => exact resetDataset_eq htoken htype hserved

/-! ## Main result -/

/-- The runs of a call of the client that can be understood are the runs of the one call of the
provider that serves its type; of the reply comes back what `answer` says. -/
theorem remote_runs {c : VolumeCall} {ds : String → AgentProvider} {m m' : Machine} {r : c.Reply}
    {tr : List (Event Invocation Invocation.Reply Machine)} (htoken : Sendable token) (hc : Tame c)
    (hserved : servedBy keys (utf8 (dbTypeOf c)) = some key) :
    (remote (clientOf (agent keys token) token) c).Ends (hosted ds) m tr r m' ↔
      ∃ reply, hosted ds ⟨key, onAgent c⟩ m reply m' ∧ r = answer keys c reply ∧
        tr = [⟨⟨key, onAgent c⟩, m, reply, m'⟩] := by
  rw [remote_eq htoken hc hserved, Prog.ends_call]
  constructor
  · rintro ⟨reply, m₁, rest, hhosted, hrest, rfl⟩
    obtain ⟨rfl, rfl, rfl⟩ := Prog.ends_ret.mp hrest
    exact ⟨reply, hhosted, rfl, rfl⟩
  · rintro ⟨reply, hhosted, rfl, rfl⟩
    exact ⟨reply, m', [], hhosted, .ret, rfl⟩

/-- A snapshot of the databases of PostgreSQL is deleted. -/
theorem remote_runs_demo : ∃ reply m',
    (remote (clientOf (agent ["mysql", "postgres"] "secret") "secret")
        (.deleteSnapshot "postgres" "v1")).Ends (hosted fun key => ⟨"tank/" ++ key⟩)
      Machine.demoTaken
      [⟨⟨"postgres", .deleteSnapshot (utf8 "v1")⟩, Machine.demoTaken, reply, m'⟩]
      (answer ["mysql", "postgres"] (.deleteSnapshot "postgres" "v1") reply) m' := by
  have htame : Tame (.deleteSnapshot "postgres" "v1") := ⟨by decide, by decide⟩
  obtain ⟨reply, m', hhosted⟩ : ∃ reply m', hosted (fun key => ⟨"tank/" ++ key⟩)
      ⟨"postgres", .deleteSnapshot (utf8 "v1")⟩ Machine.demoTaken reply m' :=
    ⟨_, _, Machine.serve_ends Machine.quiet _ _⟩
  have hserved : servedBy ["mysql", "postgres"] (utf8 (dbTypeOf (.deleteSnapshot "postgres" "v1"))) =
      some "postgres" := by decide
  exact ⟨reply, m', (remote_runs (by decide) htame hserved).mpr ⟨reply, hhosted, rfl, rfl⟩⟩

end BranchDB.ZfsAgent
