/-
# `BranchDB.Api` — the DatabaseBranch custom resource

`api/v1alpha1`.  Spec and status carry the fields some function reads or writes;
`spec.initSQL` is read by none and is left out.  Resource versions and UIDs are
numbers: the code only ever compares them for equality.
-/
import BranchDB.Go

namespace BranchDB

/-- `BranchPhase`; `unset` is the empty string of a CR nobody has written a status for. -/
inductive BranchPhase
  | unset
  | pending
  | creating
  | ready
  | error
  | deleting
deriving DecidableEq, Repr

/-- The finalizer that guarantees cleanup when a branch is deleted. -/
def finalizerName : String := "branchdb.io/cleanup"

structure DatabaseBranchSpec where
  snapshotRef : String
  ttlHours : Int := 0
  databaseType : String := ""
  databaseVersion : String := ""
deriving DecidableEq, Repr

structure DatabaseBranchStatus where
  phase : BranchPhase := .unset
  clusterHost : String := ""
  clusterPort : Int := 0
  externalHost : String := ""
  externalPort : Int := 0
  message : String := ""
  expiresAt : Option Int := none
deriving DecidableEq, Repr

/-- What users and clients connect with: hosts, ports and the expiry. -/
def DatabaseBranchStatus.endpoint (st : DatabaseBranchStatus) :
    String × Int × String × Int × Option Int :=
  (st.clusterHost, st.clusterPort, st.externalHost, st.externalPort, st.expiresAt)

structure DatabaseBranch where
  name : String
  uid : Nat
  resourceVersion : Nat
  deletionTimestamp : Option Int := none
  finalizers : List String := []
  spec : DatabaseBranchSpec
  status : DatabaseBranchStatus := {}
deriving DecidableEq, Repr

namespace DatabaseBranch

/-- `controllerutil.ContainsFinalizer(branch, v1alpha1.FinalizerName)`. -/
def containsFinalizer (b : DatabaseBranch) : Bool := b.finalizers.contains finalizerName

/-- `controllerutil.AddFinalizer`. -/
def addFinalizer (b : DatabaseBranch) : DatabaseBranch :=
  if b.containsFinalizer then b else { b with finalizers := b.finalizers ++ [finalizerName] }

/-- `controllerutil.RemoveFinalizer`. -/
def removeFinalizer (b : DatabaseBranch) : DatabaseBranch :=
  { b with finalizers := b.finalizers.filter (· ≠ finalizerName) }

/-- The CR is kept alive by the cleanup finalizer. -/
def Protected (b : DatabaseBranch) : Prop := finalizerName ∈ b.finalizers

theorem containsFinalizer_iff {b : DatabaseBranch} : b.containsFinalizer = true ↔ b.Protected := by
  simp [containsFinalizer, Protected]

instance (b : DatabaseBranch) : Decidable b.Protected :=
  decidable_of_iff _ containsFinalizer_iff

theorem protected_addFinalizer {b : DatabaseBranch} : b.addFinalizer.Protected := by
  unfold addFinalizer
  split
  · next h => exact containsFinalizer_iff.mp h
  · simp [Protected]

theorem not_protected_removeFinalizer {b : DatabaseBranch} : ¬ b.removeFinalizer.Protected := by
  simp [removeFinalizer, Protected]

end DatabaseBranch

end BranchDB
