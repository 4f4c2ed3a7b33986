/-
# `BranchDB.Rest.Stack` — the API server over an agent and its host

    request ─▶ handler ─▶ client ─▶ agent ─▶ provider ─▶ zfs

Any number of requests are in flight, interleaved call by call, and others move the host as they
like.  A call of the volume provider has the host to itself while it runs; it may get lost.  What
Kubernetes and MySQL answer, and what time it is, is left open.

As long as all requests are GETs, the host is left to the others (`gets_change_nothing`).
-/
import BranchDB.Concur.Pool
import BranchDB.Rest.Asks
import BranchDB.ZfsAgent.Backend

namespace BranchDB.Rest.Router

open Branches Concur Zfs
open ZfsAgent (Backend Requested Tame answer dbTypeOf onAgent requested_serve serveHosted servedBy)

/-- What a call of the API server does to the host of its volume provider. -/
def OnHost (B : Backend) : (e : Call) → Machine → e.Reply → Machine → Prop
  | .volume c, m, r, m' => Requested B c m r m'
  | .client c, m, r, m' => Honest (.client c) r ∧ m' = m
  | .query _, m, _, m' | .now, m, _, m' | .select _, m, _, m' => m' = m

/-- Requests that are served at the same time. -/
def stack (B : Backend) (others : Machine → Machine → Prop) : Pool Call Call.Reply Machine where
  exec := OnHost B
  env := others

theorem OnHost.honest {B : Backend} {e : Call} {m m' : Machine} {r : e.Reply}
    (h : OnHost B e m r m') : Honest e r := by
  cases e with
  | client c => exact h.1
  | volume | query | now | select => exact trivial

/-- A call that reads leaves the host. -/
theorem Reads.same {B : Backend} {e : Call} {m m' : Machine} {r : e.Reply} (he : Reads e)
    (h : OnHost B e m r m') : m' = m := by
  cases e with
  | client c => exact h.2
  | query | now | select => exact h
  | volume c =>
      refine Requested.same h ?_
      cases c with
      | listSnapshots dbType | listClones dbType =>
          intro a hserves
          cases a <;> first | rfl | exact hserves.elim
      | takeSnapshot | deleteSnapshot | createClone | deleteClone | gcSnapshots | resetDataset =>
          exact he.elim

section

variable {ι : Type} [DecidableEq ι] {B : Backend} {others : Machine → Machine → Prop} {S : Setup}
  {fuel : ι → Nat} {reqs : ι → Request} {m : Machine}
  {c : Pool.Config Call Call.Reply Machine (Option Answer) ι}

/-- Requests that are served from their start. -/
def arriving (S : Setup) (fuel : ι → Nat) (reqs : ι → Request) (m : Machine) :
    Pool.Config Call Call.Reply Machine (Option Answer) ι :=
  ⟨m, fun i => serve (direct S) (fuel i) (reqs i)⟩

/-- What others preserve, and the calls that the requests may lead to, is preserved. -/
theorem preserved_of_asks {J : Machine → Prop} (h : (stack B others).Run (arriving S fuel reqs m) c)
    (hJ : J m) (hothers : ∀ m m', J m → others m m' → J m')
    (hcall : ∀ i e m r m', (reqs i).Asks e → J m → OnHost B e m r m' → J m') : J c.state :=
  Pool.Run.preserved_of_meets (P := fun i => (reqs i).Asks) (J := J)
    (fun _ _ _ _ hexec => OnHost.honest hexec) hothers hcall h
    (fun i => meets_serve S (fuel i) (reqs i)) hJ

/-! ## Main result -/

/-- However many GETs are served, whatever they ask for and whatever comes of it: what becomes of
the host is what the others make of it. -/
theorem gets_change_nothing (h : (stack B others).Run (arriving S fuel reqs m) c)
    (hget : ∀ i, (reqs i).method = .get) : Relation.ReflTransGen others m c.state := by
  refine preserved_of_asks (J := Relation.ReflTransGen others m) h .refl ?_ ?_
  · exact fun m₁ m₂ hm₁ hstep => hm₁.tail hstep
  · intro i e m₁ r m₂ hasks hm₁ hexec
    exact (hasks.reads (hget i)).same hexec ▸ hm₁

end

/-! ## A stack on which nothing goes wrong -/

def demoBackend : Backend := ⟨["mysql", "postgres"], fun key => ⟨"tank/" ++ key⟩, "secret", "secret"⟩

def demoSetup : Setup := ⟨true, "db.example.com", 0⟩

/-- Kubernetes has no branches, and is not asked for one. -/
def serveOnHost : (e : Call) → Machine → e.Reply × Machine
  | .volume c, m =>
    let served := serveHosted demoBackend.ds ⟨"mysql", onAgent c⟩ m
    (answer demoBackend.keys c served.1, served.2)
  | .client (.get _), m | .client (.getPod _), m => (.error (errorf "connection refused"), m)
  | .client .list, m => (.ok [], m)
  | .client (.create _), m | .client (.delete _), m => (.ok (), m)
  | .query _, m => (.ok 1, m)
  | .now, m => (⟨1780239845 * second, 0⟩, m)
  | .select _, m => (.elapsed, m)

/-- Calls that are understood, and meant for MySQL. -/
def ForMySQL : Call → Prop
  | .volume c => Tame c ∧ servedBy demoBackend.keys (Net.utf8 (dbTypeOf c)) = some "mysql"
  | .client _ | .query _ | .now | .select _ => True

instance : DecidablePred ForMySQL
  | .volume _ => inferInstanceAs (Decidable (_ ∧ _))
  | .client _ | .query _ | .now | .select _ => isTrue trivial

theorem serveOnHost_exec (e : Call) (m : Machine) (h : ForMySQL e) :
    OnHost demoBackend e m (serveOnHost e m).1 (serveOnHost e m).2 := by
  cases e with
  | client c =>
      cases c with
      | get name =>
          refine ⟨?_, rfl⟩
          intro cr hcr
          have hcr : Except.error (errorf "connection refused") = Except.ok cr := hcr
          cases hcr
      | create | getPod | list | delete => exact ⟨trivial, rfl⟩
  | query | now | select => exact rfl
  | volume c =>
      obtain ⟨htype, -⟩ := h.1
      exact requested_serve h.1 ⟨rfl, by decide, htype, h.2⟩ m

/-- `GET` of a path. -/
def demoGet (path query : String) : Request where
  method := .get
  url := ⟨Net.utf8 path, [], Net.utf8 query, false⟩

/-- The branches and the snapshots, at the same time. -/
def demoGets (snapshots : Bool) : Request :=
  if snapshots then demoGet "/snapshots" "db_type=mysql" else demoGet "/branches" ""

theorem gets_change_nothing_demo : ∃ c : Pool.Config Call Call.Reply Machine (Option Answer) Bool,
    (∀ i, (c.threads i).isDone = true) ∧
      Relation.ReflTransGen (fun _ _ => False) Machine.demoTaken c.state := by
  have hserve : ∀ e m, ForMySQL e →
      (stack demoBackend fun _ _ => False).exec e m (serveOnHost e m).1 (serveOnHost e m).2 :=
    serveOnHost_exec
  have hrun : (stack demoBackend fun _ _ => False).Run
      (arriving demoSetup (fun _ => 0) demoGets Machine.demoTaken) _ :=
    (Pool.Run.advance hserve true 1 (by decide +kernel)).trans
      (Pool.Run.advance hserve false 1 (by decide +kernel))
  exact ⟨_, by decide +kernel, gets_change_nothing hrun (by decide)⟩

end BranchDB.Rest.Router
