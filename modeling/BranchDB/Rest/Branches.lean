/-
# `BranchDB.Rest.Branches` — the handlers that create, list and count

`handleCreate`, `handleList` and `handleStats` of
`internal/interface/api/k8s_branch_handler.go`, over an arbitrary monad in which the Kubernetes
client, the volume provider, the clock and the context of the request answer.

The list and the statistics are made from the same CRs, each in its own way.  A CR nobody has
written a status for is listed as `creating`, and is counted only in the total; so the two agree
as long as there is none (`stats_iff`).
-/
import BranchDB.Concur.Prog
import BranchDB.Rest.Handler

namespace BranchDB

/-- The texts of the phases. -/
def BranchPhase.text : BranchPhase → String
  | .unset => ""
  | .pending => "Pending"
  | .creating => "Creating"
  | .ready => "Ready"
  | .error => "Error"
  | .deleting => "Deleting"

namespace Rest.Branches

/-- A CR with its `metadata.creationTimestamp`, which only these handlers read. -/
structure DatedBranch extends DatabaseBranch where
  creationTimestamp : Option Int := none
deriving DecidableEq, Repr

/-- `var cr v1alpha1.DatabaseBranch`. -/
def zeroBranch : DatedBranch where
  name := ""
  uid := 0
  resourceVersion := 0
  spec := { snapshotRef := "" }

/-- The methods of `DatabaseBranchClient` these handlers use. -/
inductive ClientCall
  | create (cr : DatedBranch)
  | get (name : String)
  | list
deriving DecidableEq, Repr

abbrev ClientCall.Reply : ClientCall → Type
  | .create _ => Except GoError Unit
  | .get _ => Except GoError DatedBranch
  | .list => Except GoError (List DatedBranch)

/-- The arms of the `select` between two polls. -/
inductive Arm
  | done
  | elapsed
deriving DecidableEq, Repr

/-- `K8sBranchHandler`, with what it takes the time from and waits for. -/
structure K8sBranchHandler (m : Type → Type) where
  k8sClient : (c : ClientCall) → m c.Reply
  volumeProvider : Option (VolumeProvider m)
  /-- `time.Now()`. -/
  now : m Int
  /-- Wait for `ctx.Done()` or `time.After(interval)`. -/
  select : (interval : Int) → m Arm
  externalHost : String
  portWaitTimeout : Int

structure BranchResponse where
  name : String
  status : String
  host : String := ""
  port : Int := 0
  dsn : String := ""
  createdAt : Option Int
  expiresAt : Option Int := none
  message : String
  clusterHost : String
  clusterPort : Int
  snapshotRef : String
  ttlHours : Int
deriving DecidableEq, Repr

def toBranchResponse (externalHost : String) (cr : DatedBranch) : BranchResponse :=
  let resp : BranchResponse := {
    name := cr.name
    status := cr.status.phase.text
    createdAt := cr.creationTimestamp
    message := cr.status.message
    clusterHost := cr.status.clusterHost
    clusterPort := cr.status.clusterPort
    snapshotRef := cr.spec.snapshotRef
    ttlHours := cr.spec.ttlHours }
  let resp := if resp.status = "" then { resp with status := "creating" } else resp
  let resp := { resp with expiresAt := cr.status.expiresAt }
  if cr.status.externalPort > 0 then
    { resp with
      port := cr.status.externalPort
      host := externalHost
      dsn := "root@tcp(" ++ externalHost ++ ":" ++ toString cr.status.externalPort ++ ")/" }
  else resp

structure K8sStats where
  total : Nat
  ready : Nat := 0
  creating : Nat := 0
  error : Nat := 0
  pending : Nat := 0
  deleting : Nat := 0
deriving DecidableEq, Repr

/-- The switch over the phase of a CR. -/
def K8sStats.count (stats : K8sStats) : BranchPhase → K8sStats
  | .ready => { stats with ready := stats.ready + 1 }
  | .creating => { stats with creating := stats.creating + 1 }
  | .error => { stats with error := stats.error + 1 }
  | .pending => { stats with pending := stats.pending + 1 }
  | .deleting => { stats with deleting := stats.deleting + 1 }
  | .unset => stats

structure CreateRequest where
  name : String := ""
  snapshotRef : String := ""
  ttlHours : Int := 0
  databaseType : String := ""
  databaseVersion : String := ""
deriving DecidableEq, Repr

def createFields : List (Field CreateRequest) :=
  [.string "name" fun s r => { r with name := s },
   .string "snapshot_ref" fun s r => { r with snapshotRef := s },
   .int "ttl_hours" fun n r => { r with ttlHours := n },
   .string "database_type" fun s r => { r with databaseType := s },
   .string "database_version" fun s r => { r with databaseVersion := s }]

variable {m : Type → Type} [Monad m] (h : K8sBranchHandler m)

def handleList : m (Response (List BranchResponse)) := do
  match ← h.k8sClient .list with
  | .error err => return .error 500 err.msg
  | .ok crs => return .json 200 (crs.map (toBranchResponse h.externalHost))

def handleStats : m (Response K8sStats) := do
  match ← h.k8sClient .list with
  | .error err => return .error 500 err.msg
  | .ok crs =>
    return .json 200 (crs.foldl (fun stats cr => stats.count cr.status.phase)
      { total := crs.length })

/-! ## Creating -/

/-- A CR whose Get failed is left as it was. -/
def received : Except GoError DatedBranch → DatedBranch
  | .ok cr => cr
  | .error _ => zeroBranch

/-- The CR after a poll, if it has a port. -/
def withPort : Except GoError DatedBranch → Option DatedBranch
  | .ok cr => if cr.status.externalPort > 0 then some cr else none
  | .error _ => none

/-- Poll until there is a port or the deadline has passed, for at most `fuel` checks. -/
def pollUntil (name : String) (deadline interval : Int) : Nat → m (Option DatedBranch)
  | 0 => return none
  | fuel + 1 => do
    if (← h.now) < deadline then
      match withPort (← h.k8sClient (.get name)) with
      | some cr => return some cr
      | none =>
        match ← h.select interval with
        -- `break` leaves the select, not the loop.
        | .done => pollUntil name deadline interval fuel
        | .elapsed => pollUntil name deadline interval fuel
    else
      return some (received (← h.k8sClient (.get name)))

def pollForPort (name : String) (timeout interval : Int) (fuel : Nat) :
    m (Option DatedBranch) := do
  pollUntil h name ((← h.now) + timeout) interval fuel

/-- Why a request for a branch of a snapshot is turned down, if it is. -/
def checkSnapshot (req : CreateRequest) : m (Option (Response BranchResponse)) := do
  match h.volumeProvider with
  | none => return none
  | some vp =>
    if req.snapshotRef = "" then
      return some (.error 400 "snapshot_ref is required")
    else
      match ← vp (.listSnapshots req.databaseType) with
      -- The check is skipped.
      | .error _ => return none
      | .ok snaps =>
        if ∃ s ∈ snaps, s.name = req.snapshotRef then
          return none
        else
          return some (.error 400 ("snapshot " ++ quote req.snapshotRef ++
            " not found for database type " ++ quote req.databaseType))

/-- The CR of a request. -/
def requested (req : CreateRequest) : DatedBranch where
  name := req.name
  uid := 0
  resourceVersion := 0
  spec :=
    { snapshotRef := req.snapshotRef
      ttlHours := req.ttlHours
      databaseType := req.databaseType
      databaseVersion := req.databaseVersion }

/-- `100 * time.Millisecond`. -/
def pollInterval : Int := 100000000

/-- The response made of the CR that was polled. -/
def accepted (externalHost : String) (created : DatedBranch) : BranchResponse :=
  { toBranchResponse externalHost created with status := "creating" }

/-- Create the CR, and wait for its port. -/
def createBranch (req : CreateRequest) (fuel : Nat) : m (Option (Response BranchResponse)) := do
  match ← h.k8sClient (.create (requested req)) with
  | .error err => return some (.error 500 err.msg)
  | .ok () =>
    let created ← pollForPort h req.name h.portWaitTimeout pollInterval fuel
    return created.map fun cr => .json 202 (accepted h.externalHost cr)

def handleCreate (body : Body) (fuel : Nat) : m (Option (Response BranchResponse)) := do
  let decoded := decode createFields {} body
  let req := decoded.value
  if !decoded.ok then
    return some (.error 400 "invalid request body")
  else if req.name = "" then
    return some (.error 400 "name is required")
  else
    match ← checkSnapshot h req with
    | some refusal => return some refusal
    | none => createBranch h req fuel

/-! ## As programs -/

open Concur

inductive Call
  | client (c : ClientCall)
  | volume (c : VolumeCall)
  | now
  | select (interval : Int)
deriving DecidableEq, Repr

abbrev Call.Reply : Call → Type
  | .client c => c.Reply
  | .volume c => c.Reply
  | .now => Int
  | .select _ => Arm

/-- What a handler is configured with. -/
structure Setup where
  configured : Bool
  externalHost : String
  portWaitTimeout : Int

/-- The handlers as programs over their calls. -/
def direct (S : Setup) : K8sBranchHandler (Prog Call Call.Reply) where
  k8sClient c := .perform (Call.client c)
  volumeProvider := if S.configured then some fun c => .perform (Call.volume c) else none
  now := .perform Call.now
  select interval := .perform (Call.select interval)
  externalHost := S.externalHost
  portWaitTimeout := S.portWaitTimeout

/-! ## Counting -/

/-- Up to the case of their letters. -/
def SameLetters (s t : String) : Prop := s.toList.map Char.toLower = t.toList.map Char.toLower

instance (s t : String) : Decidable (SameLetters s t) :=
  inferInstanceAs (Decidable (_ = _))

/-- The counter of a phase. -/
def K8sStats.counter (stats : K8sStats) : BranchPhase → Nat
  | .ready => stats.ready
  | .creating => stats.creating
  | .error => stats.error
  | .pending => stats.pending
  | .deleting => stats.deleting
  | .unset => 0

/-- The entries of a list in a phase. -/
def listedAs (phase : BranchPhase) (resp : List BranchResponse) : Nat :=
  resp.countP (SameLetters ·.status phase.text)

/-- Everything is counted, and each counter counts the entries in its phase. -/
structure Agree (stats : K8sStats) (resp : List BranchResponse) : Prop where
  total : stats.total =
    stats.ready + stats.creating + stats.error + stats.pending + stats.deleting
  counters : ∀ phase, phase ≠ .unset → stats.counter phase = listedAs phase resp

/-- The phase a CR is listed in. -/
def shown : BranchPhase → BranchPhase
  | .unset => .creating
  | phase => phase

variable {phase : BranchPhase} {crs : List DatedBranch} {stats : K8sStats} {host : String}

theorem shown_eq (h : phase ≠ .unset) : shown phase = phase := by
  cases phase with
  | unset => exact absurd rfl h
  | pending => rfl
  | creating => rfl
  | ready => rfl
  | error => rfl
  | deleting => rfl

theorem status_toBranchResponse (cr : DatedBranch) : (toBranchResponse host cr).status =
    if cr.status.phase = .unset then "creating" else cr.status.phase.text := by
  have htext : cr.status.phase.text = "" ↔ cr.status.phase = .unset := by
    cases cr.status.phase <;> decide
  unfold toBranchResponse
  simp only [htext]
  split <;> split <;> rfl

/-- The names of the phases are told apart without their capitals. -/
theorem sameLetters_status {cr : DatedBranch} (h : phase ≠ .unset) :
    SameLetters (toBranchResponse host cr).status phase.text ↔ shown cr.status.phase = phase := by
  rw [status_toBranchResponse]
  revert h
  cases phase <;> cases cr.status.phase <;> decide

/-- What was counted so far. -/
def K8sStats.counted (stats : K8sStats) : Nat :=
  stats.ready + stats.creating + stats.error + stats.pending + stats.deleting

theorem counted_count : (stats.count phase).counted =
    stats.counted + if phase = .unset then 0 else 1 := by
  cases phase <;> simp [K8sStats.count, K8sStats.counted] <;> omega

theorem counter_count {p : BranchPhase} (h : p ≠ .unset) : (stats.count phase).counter p =
    stats.counter p + if phase = p then 1 else 0 := by
  revert h
  cases p <;> cases phase <;> simp [K8sStats.count, K8sStats.counter]

theorem total_count : (stats.count phase).total = stats.total := by
  cases phase <;> rfl

/-- The loop over the CRs. -/
def countAll (stats : K8sStats) (crs : List DatedBranch) : K8sStats :=
  crs.foldl (fun stats cr => stats.count cr.status.phase) stats

theorem total_countAll : (countAll stats crs).total = stats.total := by
  induction crs generalizing stats with
  | nil => rfl
  | cons cr rest ih => exact ih.trans total_count

theorem counted_countAll : (countAll stats crs).counted =
    stats.counted + crs.countP (·.status.phase ≠ .unset) := by
  induction crs generalizing stats with
  | nil => rfl
  | cons cr rest ih =>
      have hrest := @ih (stats.count cr.status.phase)
      rw [counted_count] at hrest
      rw [countAll, List.foldl_cons, ← countAll, hrest, List.countP_cons]
      by_cases hunset : cr.status.phase = .unset
      · simp [hunset]
      · simp [hunset, Nat.add_assoc, Nat.add_comm 1]

theorem counter_countAll (h : phase ≠ .unset) : (countAll stats crs).counter phase =
    stats.counter phase + crs.countP (·.status.phase = phase) := by
  induction crs generalizing stats with
  | nil => rfl
  | cons cr rest ih =>
      have hrest := @ih (stats.count cr.status.phase)
      rw [counter_count h] at hrest
      rw [countAll, List.foldl_cons, ← countAll, hrest, List.countP_cons]
      by_cases hphase : cr.status.phase = phase
      · simp [hphase, Nat.add_assoc, Nat.add_comm 1]
      · simp [hphase]

theorem listedAs_map (h : phase ≠ .unset) : listedAs phase (crs.map (toBranchResponse host)) =
    crs.countP (shown ·.status.phase = phase) := by
  rw [listedAs, List.countP_map]
  refine List.countP_congr ?_
  intro cr _
  simp [sameLetters_status h]

/-- The statistics of the CRs. -/
def statsOf (crs : List DatedBranch) : K8sStats := countAll { total := crs.length } crs

theorem total_statsOf : (statsOf crs).total = crs.length := total_countAll

theorem counted_statsOf : (statsOf crs).counted = crs.countP (·.status.phase ≠ .unset) :=
  counted_countAll.trans (Nat.zero_add _)

theorem counter_statsOf (h : phase ≠ .unset) :
    (statsOf crs).counter phase = crs.countP (·.status.phase = phase) := by
  rw [statsOf, counter_countAll h, Nat.add_eq_right]
  cases phase <;> rfl

theorem agree_statsOf : Agree (statsOf crs) (crs.map (toBranchResponse host)) ↔
    ∀ cr ∈ crs, cr.status.phase ≠ .unset := by
  have hall : crs.countP (·.status.phase ≠ .unset) = crs.length ↔
      ∀ cr ∈ crs, cr.status.phase ≠ .unset := by
    simp [List.countP_eq_length]
  constructor
  · intro h
    have htotal : (statsOf crs).total = (statsOf crs).counted := h.total
    rw [total_statsOf, counted_statsOf] at htotal
    exact hall.mp htotal.symm
  · intro h
    constructor
    · show (statsOf crs).total = (statsOf crs).counted
      rw [total_statsOf, counted_statsOf, hall.mpr h]
    · intro phase hphase
      rw [counter_statsOf hphase, listedAs_map hphase]
      exact List.countP_congr fun cr hcr => by rw [shown_eq (h cr hcr)]

/-! ## When the statistics agree with the list -/

variable {answer : (e : Call) → e.Reply} {S : Setup}

/-- Of the same CRs. -/
theorem stats_iff (hlist : answer (.client .list) = .ok crs) :
    (∃ stats resp, (handleStats (direct S)).eval answer = .json 200 stats ∧
      (handleList (direct S)).eval answer = .json 200 resp ∧ Agree stats resp) ↔
      ∀ cr ∈ crs, cr.status.phase ≠ .unset := by
  have hstats : (handleStats (direct S)).eval answer =
      .json 200 (statsOf crs) := by
    show Prog.eval answer (match answer (.client .list) with | .error _ => _ | .ok crs => _) = _
    rw [hlist]
    rfl
  have hresp : (handleList (direct S)).eval answer =
      .json 200 (crs.map (toBranchResponse S.externalHost)) := by
    show Prog.eval answer (match answer (.client .list) with | .error _ => _ | .ok crs => _) = _
    rw [hlist]
    rfl
  rw [hstats, hresp, ← @agree_statsOf crs S.externalHost]
  constructor
  · rintro ⟨_, _, h₁, h₂, h⟩
    cases h₁
    cases h₂
    exact h
  · exact fun h => ⟨_, _, rfl, rfl, h⟩

/-- A CR whose branch is Ready. -/
def readyBranch : DatedBranch where
  name := "ready"
  uid := 1
  resourceVersion := 2
  spec := { snapshotRef := "base" }
  status := { phase := .ready }

/-- A CR that was just created. -/
def freshBranch : DatedBranch where
  name := "fresh"
  uid := 2
  resourceVersion := 3
  spec := { snapshotRef := "base" }

/-- The API server when there are these CRs. -/
def listing (crs : List DatedBranch) : (e : Call) → e.Reply
  | .client .list => .ok crs
  | .client (.get _) => .error ⟨.notFound, "not found"⟩
  | .client (.create _) => .ok ()
  | .volume (.takeSnapshot ..) | .volume (.deleteSnapshot ..) | .volume (.deleteClone ..)
  | .volume (.resetDataset _) => .ok ()
  | .volume (.createClone ..) => .error (errorf "no dataset")
  | .volume (.listSnapshots _) | .volume (.listClones _) | .volume (.gcSnapshots ..) => .ok []
  | .now => 0
  | .select _ => .elapsed

def demoSetup : Setup := ⟨false, "branchdb.example.com", 5 * second⟩

/-- Two that are Ready, and one in each other phase that the operator sets. -/
def demoBranches : List DatedBranch :=
  [BranchPhase.ready, .creating, .error, .ready, .pending, .deleting].mapIdx fun i phase =>
    { readyBranch with name := s!"branch-{i}", uid := i, status := { phase } }

theorem stats_ready : ∃ stats resp,
    (handleStats (direct demoSetup)).eval (listing demoBranches) = .json 200 stats ∧
    (handleList (direct demoSetup)).eval (listing demoBranches) = .json 200 resp ∧
    Agree stats resp :=
  (stats_iff rfl).mpr (by decide)

/-- Listed as creating, and counted as nothing. -/
theorem stats_fresh : ¬ ∃ stats resp,
    (handleStats (direct demoSetup)).eval (listing [freshBranch]) = .json 200 stats ∧
    (handleList (direct demoSetup)).eval (listing [freshBranch]) = .json 200 resp ∧
    Agree stats resp := by
  rintro ⟨stats, resp, hstats, -, hagree⟩
  cases hstats
  exact absurd hagree.total (by decide)

end Rest.Branches

end BranchDB
