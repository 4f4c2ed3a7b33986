/-
# `BranchDB.Domain` — the interfaces between the components

`internal/domain`.  A Go interface is modelled by the signature of its calls: one
constructor per method, with the method's arguments, and the type of its answer.
An implementation in a monad `m` is then a function that answers every call in
`m`, and a program over an unknown implementation just issues the call.
-/
import BranchDB.Go

namespace BranchDB

/-- Where a clone is exported. -/
structure VolumeInfo where
  cloneName : String
  nfsServer : String
  nfsPath : String
deriving DecidableEq, Repr

/-- How to reach a branch database; `externalPort` is the NodePort, 0 if unassigned. -/
structure BranchEndpoint where
  host : String
  port : Int
  externalPort : Int
deriving DecidableEq, Repr

structure SnapshotInfo where
  name : String
  createdAt : Time
  databaseType : String
deriving DecidableEq, Repr

/-- The methods of `domain.VolumeProvider`. -/
inductive VolumeCall
  | takeSnapshot (dbType name : String) (overwrite : Bool)
  | deleteSnapshot (dbType name : String)
  | createClone (dbType snapshot cloneName : String)
  | deleteClone (dbType cloneName : String)
  | listSnapshots (dbType : String)
  | listClones (dbType : String)
  | gcSnapshots (dbType : String) (keepCount : Int)
  | resetDataset (dbType : String)
deriving DecidableEq, Repr

abbrev VolumeCall.Reply : VolumeCall → Type
  | .takeSnapshot .. | .deleteSnapshot .. | .deleteClone .. | .resetDataset _ => Except GoError Unit
  | .createClone .. => Except GoError VolumeInfo
  | .listSnapshots _ => Except GoError (List SnapshotInfo)
  | .listClones _ | .gcSnapshots .. => Except GoError (List String)

/-- An implementation of `domain.VolumeProvider`. -/
abbrev VolumeProvider (m : Type → Type) := (c : VolumeCall) → m c.Reply

/-- The methods of `domain.BranchDatabaseProvider`. -/
inductive DatabaseCall
  | start (branch : String) (vol : VolumeInfo) (dbType dbVersion : String)
  | stop (branch : String)
deriving DecidableEq, Repr

abbrev DatabaseCall.Reply : DatabaseCall → Type
  | .start .. => Except GoError BranchEndpoint
  | .stop _ => Except GoError Unit

/-- An implementation of `domain.BranchDatabaseProvider`. -/
abbrev BranchDatabaseProvider (m : Type → Type) := (c : DatabaseCall) → m c.Reply

end BranchDB
