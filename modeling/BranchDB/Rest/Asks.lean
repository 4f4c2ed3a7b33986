/-
# `BranchDB.Rest.Asks` — what a request asks for

The method and path of a request settle what is asked of Kubernetes and of the volume provider
(`meets_serve`):

    GET                          nothing but to read
    POST   /branches             one CR, as the body has it
    DELETE /branches/{name}      the CR of that name
    POST   /snapshots            one snapshot
    DELETE /snapshots/{name}     that snapshot
    POST   /snapshots/reset      the CRs of a type, and its dataset
    POST   /gc                   clones and archives of a type

No request edits a CR, and none makes a clone.
-/
import BranchDB.Rest.Router

namespace BranchDB.Rest.Router

open Branches Concur Net
open ZfsAgent (Method)

/-! ## What a request asks for -/

/-- Get is answered with the branch that it asks for. -/
def Honest : (e : Call) → e.Reply → Prop
  | .client (.get name), r => ∀ cr, r = .ok cr → cr.name = name
  | .client (.create _), _ | .client (.getPod _), _ | .client .list, _ | .client (.delete _), _
  | .volume _, _ | .query _, _ | .now, _ | .select _, _ => True

/-- The branch a request is to create. -/
def creation (body : Body) : CreateRequest := (decode createFields {} body).value

/-- The snapshot a request is to take. -/
def taking (body : Body) : TakeRequest := (decode takeFields {} body).value

/-- What a GC is asked to collect. -/
def collecting (body : Body) : GCRequest := (decode gcFields {} body).value

/-- The calls that a route may lead to. -/
def Route.Asks (r : Request) : Route → Call → Prop
  | .list, .client .list | .stats, .client .list | .gc, .client .list
  | .resetDataset, .client .list => True
  | .create, .client (.create cr) => cr = requested (creation r.body)
  | .create, .client (.get name) => name = (creation r.body).name
  | .create, .volume (.listSnapshots dbType) => dbType = (creation r.body).databaseType
  | .create, .now | .create, .select _ => True
  | .get name, .client (.get n) | .getMetrics name, .client (.get n)
  | .delete name, .client (.get n) => n = text name
  | .delete name, .client (.delete b) => b.name = text name
  | .getPod name, .client (.getPod n) => n = podName (text name)
  | .getMetrics _, .query _ => True
  | .listSnapshots, .volume (.listSnapshots dbType) => dbType = r.dbType
  | .takeSnapshot, .volume (.takeSnapshot dbType name overwrite) =>
    dbType = (taking r.body).dbType ∧ overwrite = (taking r.body).overwrite ∧
      (name = (taking r.body).name ∨ (taking r.body).name = "" ∧ ∃ t, name = autoName t)
  | .takeSnapshot, .now => True
  | .deleteSnapshot name, .volume (.deleteSnapshot dbType n) => dbType = r.dbType ∧ n = text name
  | .resetDataset, .client (.delete b) => Chosen (givenType r.body) b
  | .resetDataset, .volume (.resetDataset dbType) => dbType = givenType r.body
  | .gc, .volume (.listClones dbType) | .gc, .volume (.deleteClone dbType _) =>
    dbType = (collecting r.body).dbType
  | .gc, .volume (.gcSnapshots dbType keepCount) =>
    dbType = (collecting r.body).dbType ∧ 0 < keepCount
  | _, _ => False

/-- The calls of a poll. -/
def Polls (name : String) : Call → Prop
  | .client (.get n) => n = name
  | .now | .select _ => True
  | .client (.create _) | .client (.getPod _) | .client .list | .client (.delete _)
  | .volume _ | .query _ => False

section

variable {S : Setup} {r : Request} {fuel : Nat} {name : Bytes}

abbrev volumes : VolumeProvider (Prog Call Call.Reply) := fun c => .perform (Call.volume c)

theorem meets_handleList :
    (handleList (direct S).creating).Meets Honest (Route.Asks r .list) := by
  refine .call trivial ?_
  intro reply _
  cases reply with
  | error err => exact .ret
  | ok crs => exact .ret

theorem meets_handleStats :
    (handleStats (direct S).creating).Meets Honest (Route.Asks r .stats) := by
  refine .call trivial ?_
  intro reply _
  cases reply with
  | error err => exact .ret
  | ok crs => exact .ret

theorem meets_pollUntil {name : String} {deadline interval : Int} :
    (pollUntil (direct S).creating name deadline interval fuel).Meets Honest (Polls name) := by
  induction fuel with
  | zero => exact .ret
  | succ fuel ih =>
      refine .call trivial ?_
      intro t _
      show Prog.Meets Honest (Polls name) (if t.nanos < deadline then _ else _)
      split
      · refine .call rfl ?_
        intro reply _
        rw [Prog.bind]
        cases withPort reply with
        | some cr => exact .ret
        | none =>
            refine .call trivial ?_
            intro arm _
            cases arm with
            | done => exact ih
            | elapsed => exact ih
      · refine .call rfl ?_
        intro reply _
        exact .ret

theorem meets_pollForPort {name : String} {timeout interval : Int} :
    (pollForPort (direct S).creating name timeout interval fuel).Meets Honest (Polls name) := by
  refine .call trivial ?_
  intro t _
  exact meets_pollUntil

theorem Polls.asks {e : Call} (h : Polls (creation r.body).name e) : Route.Asks r .create e := by
  cases e with
  | client c =>
      cases c with
      | get name => exact h
      | create | getPod | list | delete => exact h.elim
  | volume | query => exact h.elim
  | now | select => exact trivial

theorem meets_createBranch :
    (createBranch (direct S).creating (creation r.body) fuel).Meets Honest
      (Route.Asks r .create) := by
  refine .call rfl ?_
  intro reply _
  rcases reply with err | ⟨⟩
  · exact .ret
  · have hpoll : (pollForPort (direct S).creating (creation r.body).name S.portWaitTimeout
        pollInterval fuel).Meets Honest (Polls (creation r.body).name) := meets_pollForPort
    have hasks : (pollForPort (direct S).creating (creation r.body).name S.portWaitTimeout
        pollInterval fuel).Meets Honest (Route.Asks r .create) := hpoll.mono fun _ he => he.asks
    exact hasks.bind fun _ => .ret

theorem meets_checkSnapshot :
    (checkSnapshot (direct S).creating (creation r.body)).Meets Honest
      (Route.Asks r .create) := by
  rcases S with ⟨_ | _, host, timeout⟩
  · exact .ret
  · show Prog.Meets Honest (Route.Asks r .create)
      (if (creation r.body).snapshotRef = "" then _ else _)
    split
    · exact .ret
    · refine .call rfl ?_
      intro reply _
      cases reply with
      | error err => exact .ret
      | ok snaps =>
          show Prog.Meets Honest (Route.Asks r .create) (if _ then _ else _)
          split
          · exact .ret
          · exact .ret

theorem meets_handleCreate :
    (handleCreate (direct S).creating r.body fuel).Meets Honest (Route.Asks r .create) := by
  show Prog.Meets Honest (Route.Asks r .create)
    (if _ then _ else if (creation r.body).name = "" then _ else _)
  split
  · exact .ret
  · split
    · exact .ret
    · refine meets_checkSnapshot.bind fun refusal => ?_
      cases refusal with
      | some refusal => exact .ret
      | none => exact meets_createBranch

theorem meets_handleGet :
    (handleGet (direct S) (text name)).Meets Honest (Route.Asks r (.get name)) := by
  refine .call rfl ?_
  intro reply _
  cases reply with
  | error err => exact .ret
  | ok cr => exact .ret

theorem meets_handleDelete :
    (handleDelete (direct S) (text name)).Meets Honest (Route.Asks r (.delete name)) := by
  refine .call rfl ?_
  intro reply hreply
  cases reply with
  | error err => exact .ret
  | ok cr =>
      refine .call (hreply cr rfl) ?_
      intro reply _
      rcases reply with err | ⟨⟩
      · exact .ret
      · exact .ret

theorem meets_handleGetPod :
    (handleGetPod (direct S) (text name)).Meets Honest (Route.Asks r (.getPod name)) := by
  refine .call rfl ?_
  intro reply _
  cases reply with
  | error err => exact .ret
  | ok pod => exact .ret

theorem meets_handleGetMetrics :
    (handleGetMetrics (direct S) (text name)).Meets Honest (Route.Asks r (.getMetrics name)) := by
  refine .call rfl ?_
  intro reply _
  cases reply with
  | error err => exact .ret
  | ok cr =>
      show Prog.Meets Honest (Route.Asks r (.getMetrics name))
        (if cr.status.clusterHost = "" then _ else if _ then _ else _)
      split
      · exact .ret
      · split
        · exact .ret
        · refine .call trivial ?_
          intro reply _
          cases reply with
          | error err => exact .ret
          | ok threads => exact .ret

theorem meets_handleListSnapshots :
    (handleListSnapshots (direct S) r.dbType).Meets Honest (Route.Asks r .listSnapshots) := by
  rcases S with ⟨_ | _, host, timeout⟩
  · exact .ret
  · refine .call rfl ?_
    intro reply _
    cases reply with
    | error err => exact .ret
    | ok snaps => exact .ret

theorem meets_handleTakeSnapshot :
    (handleTakeSnapshot (direct S) r.body).Meets Honest (Route.Asks r .takeSnapshot) := by
  rcases S with ⟨_ | _, host, timeout⟩
  · exact .ret
  · have htake : ∀ n, (n = (taking r.body).name ∨
        (taking r.body).name = "" ∧ ∃ t, n = autoName t) →
        (takeNamed volumes (taking r.body) n).Meets Honest (Route.Asks r .takeSnapshot) := by
      intro n hn
      refine .call ⟨rfl, rfl, hn⟩ ?_
      intro reply _
      rcases reply with err | ⟨⟩
      · exact .ret
      · exact .ret
    show Prog.Meets Honest (Route.Asks r .takeSnapshot)
      ((if (taking r.body).name = "" then _ else _) >>= takeNamed volumes (taking r.body))
    split
    · next hname =>
      refine .call trivial ?_
      intro t _
      exact htake (autoName t) (Or.inr ⟨hname, t, rfl⟩)
    · exact htake _ (Or.inl rfl)

theorem meets_handleDeleteSnapshot :
    (handleDeleteSnapshot (direct S) r.dbType (text name)).Meets Honest
      (Route.Asks r (.deleteSnapshot name)) := by
  rcases S with ⟨_ | _, host, timeout⟩
  · exact .ret
  · refine .call ⟨rfl, rfl⟩ ?_
    intro reply _
    rcases reply with err | ⟨⟩
    · exact .ret
    · exact .ret

theorem meets_deleteBranches {crs : List DatabaseBranch} :
    (deleteBranches (direct S).destroying (givenType r.body) crs).Meets Honest
      (Route.Asks r .resetDataset) := by
  induction crs with
  | nil => exact .ret
  | cons cr rest ih =>
      rw [deleteBranches]
      split
      · exact ih
      · next hskip =>
        have hchosen : Chosen (givenType r.body) cr := by
          by_cases hgiven : givenType r.body = ""
          · exact Or.inl hgiven
          · exact Or.inr (not_not.mp fun hdiff => hskip ⟨hgiven, hdiff⟩)
        refine .call hchosen ?_
        intro reply _
        rcases reply with err | ⟨⟩
        · exact ih
        · exact ih.bind fun _ => .ret

theorem meets_handleResetDataset :
    (handleResetDataset (direct S).destroying r.body).Meets Honest
      (Route.Asks r .resetDataset) := by
  rcases S with ⟨_ | _, host, timeout⟩
  · exact .ret
  · refine .call trivial ?_
    intro reply _
    cases reply with
    | error err => exact .ret
    | ok crs =>
        refine meets_deleteBranches.bind fun _ => ?_
        refine .call rfl ?_
        intro reply _
        rcases reply with err | ⟨⟩
        · exact .ret
        · exact .ret

theorem meets_deleteOrphans {crNames clones : List String} :
    (deleteOrphans volumes (collecting r.body).dbType crNames clones).Meets Honest
      (Route.Asks r .gc) := by
  induction clones with
  | nil => exact .ret
  | cons name rest ih =>
      rw [deleteOrphans]
      split
      · exact ih
      · refine .call rfl ?_
        intro reply _
        rcases reply with err | ⟨⟩
        · exact ih
        · exact ih.bind fun _ => .ret

theorem meets_gcArchives {deletedClones : List String} :
    (gcArchives volumes (collecting r.body) deletedClones).Meets Honest (Route.Asks r .gc) := by
  have hpos : 0 < if (collecting r.body).keepSnapshots ≤ 0 then 5
      else (collecting r.body).keepSnapshots := by
    split
    · decide
    · omega
  refine .call ⟨rfl, hpos⟩ ?_
  intro reply _
  cases reply with
  | error err => exact .ret
  | ok deletedSnaps => exact .ret

theorem meets_handleGC :
    (handleGC (direct S).destroying r.body).Meets Honest (Route.Asks r .gc) := by
  rcases S with ⟨_ | _, host, timeout⟩
  · exact .ret
  · refine .call rfl ?_
    intro reply _
    cases reply with
    | error err => exact .ret
    | ok zfsClones =>
        refine .call trivial ?_
        intro reply _
        cases reply with
        | error err => exact meets_deleteOrphans.bind fun _ => meets_gcArchives
        | ok crs => exact meets_deleteOrphans.bind fun _ => meets_gcArchives

/-- Every call of a handler is one that its route may lead to. -/
theorem meets_handle (x : Route) :
    (handle (direct S) fuel r x).Meets Honest (x.Asks r) := by
  cases x with
  | list => exact meets_handleList.bind fun _ => .ret
  | create => exact meets_handleCreate.bind fun _ => .ret
  | get name => exact meets_handleGet.bind fun _ => .ret
  | delete name => exact meets_handleDelete.bind fun _ => .ret
  | getPod name => exact meets_handleGetPod.bind fun _ => .ret
  | getMetrics name => exact meets_handleGetMetrics.bind fun _ => .ret
  | stats => exact meets_handleStats.bind fun _ => .ret
  | listSnapshots => exact meets_handleListSnapshots.bind fun _ => .ret
  | takeSnapshot => exact meets_handleTakeSnapshot.bind fun _ => .ret
  | deleteSnapshot name => exact meets_handleDeleteSnapshot.bind fun _ => .ret
  | resetDataset => exact meets_handleResetDataset.bind fun _ => .ret
  | gc => exact meets_handleGC.bind fun _ => .ret
  | health => exact .ret
  | page => exact .ret

end

/-! ## By method and path -/

/-- The calls that a request may lead to. -/
def Request.Asks (r : Request) (e : Call) : Prop :=
  ∃ x, route r.method (pathOf r.url) = some x ∧ x.Asks r e

theorem meets_serve (S : Setup) (fuel : Nat) (r : Request) :
    (serve (direct S) fuel r).Meets Honest r.Asks := by
  unfold serve
  split
  · next x hroute => exact (meets_handle x).mono fun e he => ⟨x, hroute, he⟩
  · exact .ret

/-- The calls that only read. -/
def Reads : Call → Prop
  | .client (.get _) | .client (.getPod _) | .client .list | .volume (.listSnapshots _)
  | .volume (.listClones _) | .query _ | .now | .select _ => True
  | .client (.create _) | .client (.delete _) | .volume (.takeSnapshot ..)
  | .volume (.deleteSnapshot ..) | .volume (.createClone ..) | .volume (.deleteClone ..)
  | .volume (.gcSnapshots ..) | .volume (.resetDataset _) => False

/-- The routes of GET. -/
inductive Route.Safe : Route → Prop
  | list : Safe .list
  | get (name : Bytes) : Safe (.get name)
  | getPod (name : Bytes) : Safe (.getPod name)
  | getMetrics (name : Bytes) : Safe (.getMetrics name)
  | stats : Safe .stats
  | listSnapshots : Safe .listSnapshots
  | health : Safe .health
  | page : Safe .page

theorem safe_routeBranches {rest : List Bytes} {x : Route} (h : routeBranches .get rest = some x) :
    x.Safe := by
  match rest with
  | [] =>
      cases h
      exact .list
  | [name] =>
      have h : (if name = [] then none else some (Route.get name)) = some x := h
      split at h
      · cases h
      · cases h
        exact .get name
  | [name, part] =>
      have h : (if part = utf8 "pod" then some (Route.getPod name)
        else if part = utf8 "metrics" then some (Route.getMetrics name) else none) = some x := h
      split at h
      · cases h
        exact .getPod name
      · split at h
        · cases h
          exact .getMetrics name
        · cases h
  | _ :: _ :: _ :: _ => cases h

theorem safe_routeSnapshots {rest : List Bytes} {x : Route}
    (h : routeSnapshots .get rest = some x) : x.Safe := by
  match rest with
  | [] =>
      cases h
      exact .listSnapshots
  | _ :: _ => cases h

theorem safe_routeRest {path : Bytes} {x : Route} (h : routeRest .get path = some x) :
    x.Safe := by
  have h : (if path = utf8 "stats" then some Route.stats
    else if path = utf8 "health" then some Route.health
    else if path ∈ ["openapi.yaml", "docs", "", "favicon.svg", "icons.svg"].map utf8 then
      some Route.page
    else none) = some x := h
  split at h
  · cases h
    exact .stats
  · split at h
    · cases h
      exact .health
    · split at h
      · cases h
        exact .page
      · cases h

/-- GET has no other routes. -/
theorem safe_route {path : Bytes} {x : Route} (h : route .get path = some x) : x.Safe := by
  unfold route at h
  split at h
  · split at h
    · exact safe_routeBranches h
    · split at h
      · exact safe_routeSnapshots h
      · split at h
        · exact safe_routeRest h
        · split at h
          · cases h
            exact .page
          · cases h
  · cases h

theorem Route.Safe.reads {r : Request} {x : Route} {e : Call} (h : x.Safe) (he : x.Asks r e) :
    Reads e := by
  cases h with
  | _ =>
    cases e with
    | client c => cases c <;> first | exact trivial | exact he.elim
    | volume c => cases c <;> first | exact trivial | exact he.elim
    | query | now | select => exact trivial

/-- A GET only reads. -/
theorem Request.Asks.reads {r : Request} {e : Call} (h : r.Asks e) (hget : r.method = .get) :
    Reads e := by
  obtain ⟨x, hroute, he⟩ := h
  rw [hget] at hroute
  exact (safe_route hroute).reads he

/-- No request makes a clone. -/
theorem Request.Asks.not_createClone {r : Request} {dbType snapshot cloneName : String} :
    ¬ r.Asks (.volume (.createClone dbType snapshot cloneName)) := by
  rintro ⟨x, -, he⟩
  cases x <;> exact he

end BranchDB.Rest.Router
