/-
# `BranchDB.Rest.Handler` — the handlers that destroy

`handleGC` and `handleResetDataset` of `internal/interface/api/k8s_branch_handler.go`, over
an arbitrary monad in which the Kubernetes client and the volume provider answer.

DatabaseBranch is cluster-scoped, so the namespace the client passes to List selects
nothing.  A list that could not be read is left as it was, empty.
-/
import BranchDB.Api
import BranchDB.Domain
import BranchDB.Json

namespace BranchDB.Rest

/-- The methods of `DatabaseBranchClient` these handlers use. -/
inductive ClientCall
  | list
  | delete (b : DatabaseBranch)
deriving DecidableEq, Repr

abbrev ClientCall.Reply : ClientCall → Type
  | .list => Except GoError (List DatabaseBranch)
  | .delete _ => Except GoError Unit

/-- `K8sBranchHandler`; without a volume provider snapshots are unavailable. -/
structure K8sBranchHandler (m : Type → Type) where
  k8sClient : (c : ClientCall) → m c.Reply
  volumeProvider : Option (VolumeProvider m)

/-- `writeJSON` and `writeError`. -/
inductive Response (α : Type)
  | json (status : Nat) (v : α)
  | error (status : Nat) (msg : String)
deriving DecidableEq, Repr

/-- The answer of a handler that needs the volume provider and has none. -/
def notConfigured {α : Type} : Response α := .error 501 "VolumeProvider not configured"

structure GCRequest where
  dbType : String := ""
  keepSnapshots : Int := 0
deriving DecidableEq, Repr

def gcFields : List (Field GCRequest) :=
  [.string "db_type" fun s r => { r with dbType := s },
   .int "keep_snapshots" fun n r => { r with keepSnapshots := n }]

structure GCReport where
  deletedOrphanClones : List String
  deletedSnapshots : List String
deriving DecidableEq, Repr

structure ResetRequest where
  dbType : String := ""
deriving DecidableEq, Repr

def resetFields : List (Field ResetRequest) :=
  [.string "db_type" fun s _ => { dbType := s }]

structure ResetReport where
  deletedBranches : Nat
  message : String
deriving DecidableEq, Repr

variable {m : Type → Type} [Monad m] (h : K8sBranchHandler m)

/-- The items of a list whose error is ignored. -/
def items (list : Except GoError (List DatabaseBranch)) : List DatabaseBranch :=
  match list with
  | .ok crs => crs
  | .error _ => []

/-- Delete the clones without a CR; returns those for which that succeeded. -/
def deleteOrphans (vp : VolumeProvider m) (dbType : String) (crNames : List String) :
    List String → m (List String)
  | [] => return []
  | name :: rest => do
    -- a CR exists, not an orphan
    if name ∈ crNames then
      deleteOrphans vp dbType crNames rest
    else
      match ← vp (.deleteClone dbType name) with
      | .ok () => return name :: (← deleteOrphans vp dbType crNames rest)
      | .error _ => deleteOrphans vp dbType crNames rest

/-- The snapshot half of a GC. -/
def gcArchives (vp : VolumeProvider m) (req : GCRequest) (deletedClones : List String) :
    m (Response GCReport) := do
  let keepSnapshots := if req.keepSnapshots ≤ 0 then 5 else req.keepSnapshots
  match ← vp (.gcSnapshots req.dbType keepSnapshots) with
  | .error err => return .error 500 err.msg
  | .ok deletedSnaps => return .json 200 ⟨deletedClones, deletedSnaps⟩

/-- A GC once the clones are known: those no CR is named after are orphans. -/
def gcClones (vp : VolumeProvider m) (req : GCRequest) (zfsClones : List String) :
    m (Response GCReport) := do
  let crList := items (← h.k8sClient .list)
  let deletedClones ← deleteOrphans vp req.dbType (crList.map (·.name)) zfsClones
  gcArchives vp req deletedClones

def handleGC (body : Body) : m (Response GCReport) :=
  match h.volumeProvider with
  | none => return notConfigured
  | some vp => do
    let req := (decode gcFields {} body).value
    match ← vp (.listClones req.dbType) with
    | .error err => return .error 500 err.msg
    | .ok zfsClones => gcClones h vp req zfsClones

/-- Delete the CRs of a database type, or all when none is given; returns for how many that
succeeded. -/
def deleteBranches (dbType : String) : List DatabaseBranch → m Nat
  | [] => return 0
  | cr :: rest => do
    if dbType ≠ "" ∧ cr.spec.databaseType ≠ dbType then
      deleteBranches dbType rest
    else
      match ← h.k8sClient (.delete cr) with
      | .ok () => return (← deleteBranches dbType rest) + 1
      | .error _ => deleteBranches dbType rest

/-- A reset once the CRs are known. -/
def resetBranches (vp : VolumeProvider m) (dbType : String) (crs : List DatabaseBranch) :
    m (Response ResetReport) := do
  let deletedBranches ← deleteBranches h dbType crs
  match ← vp (.resetDataset dbType) with
  | .error err => return .error 500 err.msg
  | .ok () =>
    return .json 200
      ⟨deletedBranches, "ready for new data — take a fresh snapshot to start"⟩

def handleResetDataset (body : Body) : m (Response ResetReport) :=
  match h.volumeProvider with
  | none => return notConfigured
  | some vp => do
    let req := (decode resetFields {} body).value
    match ← h.k8sClient .list with
    | .error err => return .error 500 err.msg
    | .ok crs => resetBranches h vp req.dbType crs

end BranchDB.Rest
