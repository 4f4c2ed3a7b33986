/-
# `BranchDB.Operator.Served` — the operator and the API server

Users do not talk to Kubernetes; they send requests to the API server, which does it for them.
Any number of requests are being served at a time, each call by call, while the operator is at
work on the same CR:

    requests ─▶ serve ─▶ create, delete ─▶ CR ◀─ reconcile
                   └───▶ clones ◀──────────────────┘

The API server has no powers over the CR that users have not (`moves_of_asks`), so whatever
the operator comes to among its requests, it comes to without them (`served_reach`).
-/
import BranchDB.Concur.Clients
import BranchDB.Operator.Healthy
import BranchDB.Rest.Asks

namespace BranchDB.Operator

open Concur Relation Rest.Router
open Rest.Branches (DatedBranch Setup)

/-! ## What the calls of the API server do -/

def errAlreadyExists : GoError := ⟨.alreadyExists, "databasebranch already exists"⟩

/-- The spec of a CR as Create stores it: the CRD fills in a database type that is omitted. -/
def defaulted (spec : DatabaseBranchSpec) : DatabaseBranchSpec :=
  { spec with databaseType := if spec.databaseType = "" then "mysql" else spec.databaseType }

/-- A CR as Create stores it, but for its resource version. -/
def newBranch (name : String) (uid : Nat) (cr : DatedBranch) : DatabaseBranch :=
  { name, uid, resourceVersion := 0, spec := defaulted cr.spec, finalizers := cr.finalizers }

/-- Serving a Create of the CR of `S`. -/
def serveCreate (S : Setting) (cr : DatedBranch) (w : World) : Except GoError Unit × World :=
  match w.crs.obj with
  | some _ => (.error errAlreadyExists, w)
  | none => (.ok (), { w.store (newBranch S.name w.nextUID cr) with nextUID := w.nextUID + 1 })

/-- Clones made for a CR do not appear, whatever becomes of them. -/
def Fewer (w w' : World) : Prop :=
  ∃ clones : String → Option (Option Nat),
    (∀ d u, clones d = some (some u) → w.clones d = some (some u)) ∧ w' = { w with clones }

/-- The client of the API server reads from Kubernetes itself, not from a cache. -/
def KubeExec (S : Setting) :
    (c : Rest.Router.ClientCall) → World → c.Reply → World → Prop
  | .create cr, w, r, w' =>
    if cr.name = S.name then Concur.Outcome (fun _ => True) w (serveCreate S cr w) r w' else w' = w
  | .get name, w, r, w' =>
    w' = w ∧ ∀ cr, r = .ok cr → cr.name = name ∧
      (name = S.name → w.crs.obj = some cr.toDatabaseBranch)
  | .getPod _, w, _, w' => w' = w
  | .list, w, r, w' =>
    w' = w ∧ ∀ crs, r = .ok crs →
      (crs.filter (·.name = S.name)).map (·.toDatabaseBranch) = w.crs.obj.toList
  | .delete b, w, r, w' =>
    if b.name = S.name then Concur.Outcome (fun _ => True) w (serveDelete w) r w' else w' = w

/-- What a call of the API server may do to the CR of `S` and to its clones. -/
def ServerExec (S : Setting) : (e : Rest.Router.Call) → World → e.Reply → World → Prop
  | .client c, w, r, w' => KubeExec S c w r w'
  | .volume (.createClone ..), w, _, w' => ∃ clones, w' = { w with clones }
  | .volume (.takeSnapshot ..), w, _, w' | .volume (.deleteSnapshot ..), w, _, w'
  | .volume (.listSnapshots _), w, _, w' | .volume (.listClones _), w, _, w' => w' = w
  | .volume (.deleteClone ..), w, _, w' | .volume (.gcSnapshots ..), w, _, w'
  | .volume (.resetDataset _), w, _, w' => Fewer w w'
  | .query _, w, _, w' | .select _, w, _, w' => w' = w
  | .now, w, r, w' => r.nanos = w.clock ∧ w' = w

variable {S : Setting} {externalHost : String} {w w' : World}

theorem honest_of_serverExec {e : Rest.Router.Call} {r : e.Reply} (h : ServerExec S e w r w') :
    Honest e r := by
  cases e with
  | client c =>
      cases c with
      | get name =>
          intro cr hr
          exact (h.2 cr hr).1
      | create | getPod | list | delete => exact trivial
  | volume | query | now | select => exact trivial

theorem Fewer.moves (h : Fewer w w') : ReflTransGen (Env S) w w' := by
  obtain ⟨clones, hclones, rfl⟩ := h
  exact .single (.agent hclones)

theorem moves_serveCreate {cr : DatedBranch} : ReflTransGen (Env S) w (serveCreate S cr w).2 := by
  unfold serveCreate
  split
  · exact .refl
  · next hobj => exact .single (.create (defaulted cr.spec) cr.finalizers hobj)

theorem KubeExec.moves {c : Rest.Router.ClientCall} {r : c.Reply} (h : KubeExec S c w r w') :
    ReflTransGen (Env S) w w' := by
  cases c with
  | create cr =>
      have h : if cr.name = S.name then
        Concur.Outcome (fun _ => True) w (serveCreate S cr w) r w' else w' = w := h
      split at h
      · exact h.elim (P := ReflTransGen (Env S) w) .refl moves_serveCreate
      · exact h ▸ .refl
  | delete b =>
      have h : if b.name = S.name then
        Concur.Outcome (fun _ => True) w (serveDelete w) r w' else w' = w := h
      split at h
      · exact h.elim (P := ReflTransGen (Env S) w) .refl (.single .delete)
      · exact h ▸ .refl
  | get name => exact h.1 ▸ .refl
  | list => exact h.1 ▸ .refl
  | getPod name => exact (show w' = w from h) ▸ .refl

/-- What a request asks for, users can do themselves. -/
theorem moves_of_asks {req : Request} {e : Rest.Router.Call} {r : e.Reply}
    (hasks : req.Asks e) (h : ServerExec S e w r w') : ReflTransGen (Env S) w w' := by
  cases e with
  | client c => exact KubeExec.moves h
  | volume c =>
      cases c with
      | createClone => exact absurd hasks Rest.Router.Request.Asks.not_createClone
      | deleteClone | gcSnapshots | resetDataset => exact Fewer.moves h
      | takeSnapshot | deleteSnapshot | listSnapshots | listClones =>
          exact (show w' = w from h) ▸ .refl
  | query | select => exact (show w' = w from h) ▸ .refl
  | now => exact h.2 ▸ .refl

/-! ## One way for them to go -/

/-- A provider that there is none of. -/
def refused : (c : VolumeCall) → c.Reply
  | .takeSnapshot .. | .deleteSnapshot .. | .createClone .. | .deleteClone .. | .listSnapshots _
  | .listClones _ | .gcSnapshots .. | .resetDataset _ => .error (errorf "no provider")

/-- A write to the CR of a name, if that is ours. -/
def serveNamed (S : Setting) (name : String) (served : Except GoError Unit × World) (w : World) :
    Except GoError Unit × World :=
  if name = S.name then served else (.ok (), w)

/-- Reading the CR of a name. -/
def readStored (name : String) (w : World) : Except GoError DatedBranch :=
  match w.crs.obj with
  | some b => if b.name = name then .ok ⟨b, none⟩ else .error errNotFound
  | none => .error errNotFound

/-- One way for the calls of the API server to go. -/
def serveApi (S : Setting) : (e : Rest.Router.Call) → World → e.Reply × World
  | .client (.create cr), w => serveNamed S cr.name (serveCreate S cr w) w
  | .client (.get name), w => (readStored name w, w)
  | .client (.getPod _), w => (.error errNotFound, w)
  | .client .list, w => (.error errNotFound, w)
  | .client (.delete b), w => serveNamed S b.name (serveDelete w) w
  | .volume c, w => (refused c, w)
  | .query _, w => (.error (errorf "no database"), w)
  | .now, w => (⟨w.clock, 0⟩, w)
  | .select _, w => (.elapsed, w)

theorem serveNamed_exec (S : Setting) (name : String) (served : Except GoError Unit × World)
    (w : World) : if name = S.name then Concur.Outcome (fun _ => True) w served
      (serveNamed S name served w).1 (serveNamed S name served w).2
      else (serveNamed S name served w).2 = w := by
  unfold serveNamed
  split
  · exact .answered
  · rfl

theorem readStored_ok {name : String} {w : World} {cr : DatedBranch}
    (h : readStored name w = .ok cr) :
    cr.name = name ∧ w.crs.obj = some cr.toDatabaseBranch := by
  unfold readStored at h
  split at h
  · next b hobj =>
    split at h
    · next hname =>
      cases h
      exact ⟨hname, hobj⟩
    · cases h
  · cases h

theorem serveApi_exec (S : Setting) (e : Rest.Router.Call) (w : World) :
    ServerExec S e w (serveApi S e w).1 (serveApi S e w).2 := by
  cases e with
  | client c =>
      cases c with
      | create cr => exact serveNamed_exec S cr.name _ w
      | get name =>
          refine ⟨rfl, ?_⟩
          intro cr hcr
          obtain ⟨hname, hobj⟩ := readStored_ok hcr
          exact ⟨hname, fun _ => hobj⟩
      | getPod name => exact rfl
      | list => exact ⟨rfl, nofun⟩
      | delete b => exact serveNamed_exec S b.name _ w
  | volume c =>
      cases c with
      | createClone => exact ⟨w.clones, rfl⟩
      | deleteClone | gcSnapshots | resetDataset => exact ⟨w.clones, fun _ _ => id, rfl⟩
      | takeSnapshot | deleteSnapshot | listSnapshots | listClones => exact rfl
  | query | select => exact rfl
  | now => exact ⟨rfl, rfl⟩

/-! ## The operator among requests -/

/-- The requests, each with the polls it may come to. -/
def requests (S : Setting) (setup : Setup) :
    Clients Rest.Router.Call Rest.Router.Call.Reply World (Option Rest.Router.Answer) where
  exec := ServerExec S
  main p := ∃ fuel r, p = Rest.Router.serve (direct setup) fuel r

/-- The calls that some request may lead to. -/
def Asked (e : Rest.Router.Call) : Prop := ∃ r : Request, r.Asks e

theorem requests_refines (S : Setting) (setup : Setup) (main : Prog Call Call.Reply Outcome) :
    ((requests S setup).around (system S main)).Refines (system S main)
      (Clients.Tells Honest Asked) := by
  refine Clients.refines ?_ (fun _ _ _ _ => honest_of_serverExec) ?_
  · rintro p ⟨fuel, r, rfl⟩
    exact (meets_serve setup fuel r).mono fun e he => ⟨r, he⟩
  · rintro e w r w' ⟨req, hasks⟩ hexec
    exact moves_of_asks hasks hexec

/-- Whatever the operator comes to among any number of requests, it comes to without them. -/
theorem served_reach {setup : Setup}
    {c : Config Call Call.Reply
      (Busy Rest.Router.Call Rest.Router.Call.Reply World (Option Rest.Router.Answer)) Outcome}
    (hc : ((requests S setup).around
      (system S (reconcile (reconciler externalHost) S.name))).Reach c) :
    (system S (reconcile (reconciler externalHost) S.name)).Reach ⟨c.state.state, c.running⟩ := by
  obtain ⟨t, hreach, rfl, -⟩ := (requests_refines S setup _).reach hc
  exact hreach

/-! ## A branch named `demo`, made through the API -/

/-- An API server without an agent, that does not wait for ports. -/
def demoApi : Setup := ⟨false, "branchdb.example.com", 0⟩

def demoRequest (method : ZfsAgent.Method) (path : String) (body : Body) : Request where
  method := method
  url := ⟨Net.utf8 path, [], [], false⟩
  body := body

def demoPost : Request :=
  demoRequest .post "/branches"
    (some (.object [("name", .string "demo"), ("snapshot_ref", .string "base")]))

/-- What is answered, and what is left. -/
def demoServed (r : Request) (w : World) : Option Rest.Router.Answer × World :=
  (Rest.Router.serve (direct demoApi) 1 r).run (serveApi demo) w

/-- The POST has created the CR, and Reconcile has read it; then the POST goes on to its polls,
Reconcile to its Update, and the POST to its end. -/
def demoCreating := (Rest.Router.serve (direct demoApi) 1 demoPost).advance (serveApi demo) 1 .fresh

def demoReading := demoReconcile.advance (serve demo) 1 demoCreating.2.started

def demoPolling := demoCreating.1.advance (serveApi demo) 1 demoReading.2

def demoAdopting := demoReading.1.advance (serve demo) 1 demoPolling.2

def demoAnswering := demoPolling.1.advance (serveApi demo) 2 demoAdopting.2

theorem served_reach_demo :
    (system demo demoReconcile).Reach ⟨demoAnswering.2, some demoAdopting.1⟩ ∧
      demoAnswering.2.crs.obj.map (·.finalizers) = some [finalizerName] ∧
      demoAnswering.1.isDone = true := by
  have hinit : ((requests demo demoApi).around (system demo demoReconcile)).Reach
      ⟨⟨.fresh, []⟩, none⟩ := .init ⟨World.initial_fresh, rfl⟩
  have harrives : (requests demo demoApi).Env (system demo demoReconcile) ⟨.fresh, []⟩
      ⟨.fresh, [Rest.Router.serve (direct demoApi) 1 demoPost]⟩ := .arrives ⟨1, demoPost, rfl⟩
  have hcreating := Clients.Reach.advance_client (serveApi_exec demo) 1
    (hinit.step (.env harrives))
  have hstart : ((requests demo demoApi).around (system demo demoReconcile)).start
      ⟨demoCreating.2, [demoCreating.1]⟩ ⟨demoCreating.2.started, [demoCreating.1]⟩ := ⟨rfl, rfl⟩
  have hreading := Clients.Reach.advance serve_exec 1 (hcreating.step (.start rfl hstart))
  have hpolling := Clients.Reach.advance_client (serveApi_exec demo) 1 hreading
  have hadopting := Clients.Reach.advance serve_exec 1 hpolling
  have hanswering := Clients.Reach.advance_client (serveApi_exec demo) 2 hadopting
  exact ⟨served_reach hanswering, by decide +kernel, by decide +kernel⟩

end BranchDB.Operator
