/-
# `BranchDB.Operator.Life` — the life of a branch, as its user sees it

    POST /branches             202   the CR is there, as asked for
      Reconcile, Reconcile
    GET /branches/{name}       200   Ready
    DELETE /branches/{name}    204   marked
      Reconcile
    GET /branches/{name}             not found, and no clone

Between the calls of a request the operator may reconcile the CR, any number of times and
undisturbed; others leave it alone.  What was asked for is `Kept` until it expires, and from the
second Reconcile on it is Ready (`created_ready`).  What was deleted is `Doomed`, and gone with the
next Reconcile (`deleted_gone`).
-/
import BranchDB.Operator.Served
import BranchDB.Operator.Settle

namespace BranchDB.Operator

open Concur Relation Rest.Router
open Rest.Branches (CreateRequest DatedBranch Setup requested toBranchResponse)

variable {S : Setting} {V : Surroundings S} {externalHost : String} {setup : Setup}
  {w w' w₁ w₂ w₃ w₄ : World} {b : DatabaseBranch}

/-! ## Requests -/

/-- What happens between the calls of a request. -/
inductive Between (V : Surroundings S) (externalHost : String) (w : World) : World → Prop
  | others {w' : World} : V.moves w w' → Between V externalHost w w'
  | round {w' : World} : Round V externalHost w w' → Between V externalHost w w'

/-- The runs of single requests. -/
def single (V : Surroundings S) (externalHost : String) :
    System Rest.Router.Call Rest.Router.Call.Reply World (Option Rest.Router.Answer) where
  init _ := True
  exec := ServerExec S
  env := Between V externalHost
  start _ _ := True
  main _ := True

/-- The request is served, and answered. -/
def Answers (V : Surroundings S) (externalHost : String) (setup : Setup) (r : Request) (w : World)
    (a : Rest.Router.Answer) (w' : World) : Prop :=
  ∃ fuel, (single V externalHost).Runs (Rest.Router.serve (direct setup) fuel r) w (some a) w'

/-- No call of a request has to be justified. -/
def unjustified : Contract Rest.Router.Call World := ⟨fun _ => True, fun _ _ => True⟩

/-- What a program of the API server ends in. -/
abbrev Leads (V : Surroundings S) (externalHost : String)
    (p : Prog Rest.Router.Call Rest.Router.Call.Reply (Option Rest.Router.Answer)) (w : World)
    (post : Option Rest.Router.Answer → World → Prop) : Prop :=
  (single V externalHost).Holds unjustified post p w

/-- A property that the operator and the others preserve. -/
def Steady (V : Surroundings S) (externalHost : String) (J : World → Prop) : Prop :=
  ∀ w w', J w → Between V externalHost w w' → J w'

theorem Steady.later {J : World → Prop} (h : Steady V externalHost J) (hw : J w)
    (henv : ReflTransGen (Between V externalHost) w w') : J w' := by
  induction henv with
  | refl => exact hw
  | tail _ hstep ih => exact h _ _ ih hstep

theorem Answers.result {r : Request} {a : Rest.Router.Answer}
    {post : Option Rest.Router.Answer → World → Prop}
    (h : Answers V externalHost setup r w a w')
    (hleads : ∀ fuel, Leads V externalHost (Rest.Router.serve (direct setup) fuel r) w post)
    (hpost : ∀ a, Steady V externalHost (post a)) : post (some a) w' := by
  obtain ⟨fuel, hruns⟩ := h
  exact (hleads fuel).result (fun _ => trivial) (fun a w₁ w₂ hw henv => hpost a w₁ w₂ hw henv) hruns

theorem leads_call {e : Rest.Router.Call}
    {k : e.Reply → Prog Rest.Router.Call Rest.Router.Call.Reply (Option Rest.Router.Answer)}
    {post : Option Rest.Router.Answer → World → Prop}
    (h : ∀ w₁ r w₂, ReflTransGen (Between V externalHost) w w₁ → ServerExec S e w₁ r w₂ →
      Leads V externalHost (k r) w₂ post) : Leads V externalHost (.call e k) w post := by
  intro w₁ henv _
  refine ⟨trivial, ?_⟩
  intro r w₂ hexec _
  exact h w₁ r w₂ henv hexec

theorem Between.clock (h : Between V externalHost w w') : w.clock ≤ w'.clock := by
  cases h with
  | others hmove => exact (V.env hmove).clock
  | round hround => exact hround.clock

/-- Polling does not show. -/
theorem Polls.same {name : String} {e : Rest.Router.Call} {r : e.Reply} (h : Polls name e)
    (hexec : ServerExec S e w r w') : w' = w := by
  cases e with
  | client c =>
      cases c with
      | get name => exact hexec.1
      | create | getPod | list | delete => exact h.elim
  | volume | query => exact h.elim
  | now => exact hexec.2
  | select => exact hexec

/-- What is steady lasts through a poll. -/
theorem leads_polls {J : World → Prop} (hJ : Steady V externalHost J) {name : String} {α : Type}
    {p : Prog Rest.Router.Call Rest.Router.Call.Reply α} (hp : p.Meets Honest (Polls name))
    (hw : J w) : (single V externalHost).Holds unjustified (fun _ => J) p w := by
  induction hp generalizing w with
  | ret => exact hw
  | call he _ ih =>
      intro w₁ henv _
      refine ⟨trivial, ?_⟩
      intro r w₂ hexec _
      obtain rfl := Polls.same he hexec
      exact ih r (honest_of_serverExec hexec) (hJ.later hw henv)

/-! ## A branch that was asked for -/

/-- The spec that a request asks for, as it is stored. -/
def askedSpec (req : CreateRequest) : DatabaseBranchSpec := defaulted (requested req).spec

/-- The CR is there, is to be as `spec` has it, and does not expire until `T`. -/
structure Kept (spec : DatabaseBranchSpec) (T : Int) (w : World) (b : DatabaseBranch) : Prop where
  obj : w.crs.obj = some b
  spec : b.spec = spec
  live : b.deletionTimestamp = none
  ours : ∀ f ∈ b.finalizers, f = finalizerName
  expiresAt : b.status.phase ≠ .ready → b.status.expiresAt = none
  fresh : ∀ t ≤ T, ¬ Lapsed t b

/-- A branch that is Ready at a time from `since` on has not expired at `T`. -/
structure Lasts (spec : DatabaseBranchSpec) (since T : Int) : Prop where
  hours : spec.ttlHours ≤ maxHours
  within : 0 < spec.ttlHours → T + second ≤ since + spec.ttlHours * hour

variable {spec : DatabaseBranchSpec} {since T : Int}

theorem Kept.created (w : World) {cr : DatedBranch} (hspec : defaulted cr.spec = spec)
    (hfinalizers : cr.finalizers = []) (hobj : w.crs.obj = none) :
    ∃ b, Kept spec T (serveCreate S cr w).2 b := by
  have hserved : (serveCreate S cr w).2 =
      { w.store (newBranch S.name w.nextUID cr) with nextUID := w.nextUID + 1 } := by
    rw [serveCreate, hobj]
  rw [hserved]
  refine ⟨w.stamped (newBranch S.name w.nextUID cr), rfl, hspec, rfl, ?_, fun _ => rfl, ?_⟩
  · intro f hf
    have hf : f ∈ cr.finalizers := hf
    rw [hfinalizers] at hf
    cases hf
  · rintro t - ⟨hready, -⟩
    cases hready

/-- A Reconcile keeps it, takes it on if it was not, and else makes it Ready if it was not. -/
theorem Kept.round (h : Kept spec T w b) (hlasts : Lasts spec since T) (hsince : since ≤ w.clock)
    (hround : Round V externalHost w w') (hclock : w'.clock ≤ T) :
    ∃ b', Kept spec T w' b' ∧ b'.Protected ∧ (b.Protected → b'.status.phase = .ready) := by
  cases hround.advance h.obj with
  | released hdel | ignored hdel => simp [h.live] at hdel
  | expired _ _ hto hlapsed => exact absurd hlapsed (h.fresh _ (Int.le_trans hto hclock))
  | @adopted b' _ hnot hadopted hobj' =>
      refine ⟨b', ⟨hobj', hadopted.spec.trans h.spec, hadopted.deletionTimestamp.trans h.live, ?_,
        ?_, ?_⟩, hadopted.prot, fun hprot => absurd hprot hnot⟩
      · intro f hf
        rw [hadopted.finalizers] at hf
        rcases List.mem_append.mp hf with hf | hf
        · exact h.ours f hf
        · exact List.mem_singleton.mp hf
      · rw [hadopted.status]
        exact h.expiresAt
      · intro t ht hlapsed
        rw [Lapsed, hadopted.status] at hlapsed
        exact h.fresh t ht hlapsed
  | resting _ hprot hready _ _ _ hobj' =>
      exact ⟨b, ⟨hobj', h.spec, h.live, h.ours, h.expiresAt, h.fresh⟩, hprot, fun _ => hready⟩
  | @made b' _ hprot hphase hmade hobj' =>
      have hfresh : ∀ t ≤ T, ¬ Lapsed t b' := by
        intro t ht
        refine hmade.fresh (h.expiresAt hphase) (h.spec ▸ hlasts.hours) ?_
        rw [h.spec]
        intro hpos
        have hwithin := hlasts.within hpos
        omega
      refine ⟨b', ⟨hobj', hmade.updated.spec.trans h.spec,
        hmade.updated.deletionTimestamp.trans h.live, ?_, fun hne => absurd hmade.phase hne,
        hfresh⟩, hmade.updated.protected.mpr hprot, fun _ => hmade.phase⟩
      rw [hmade.updated.finalizers]
      exact h.ours

/-- Until `T` the branch is kept, and is `Q` if it was before. -/
def Until (spec : DatabaseBranchSpec) (since T : Int) (Q : DatabaseBranch → Prop) (w : World) :
    Prop :=
  w.clock ≤ T → since ≤ w.clock ∧ ∃ b, Kept spec T w b ∧ Q b

theorem steady_until (hlasts : Lasts spec since T) {Q : DatabaseBranch → Prop}
    (hQ : ∀ b b', Q b → b'.Protected → (b.Protected → b'.status.phase = .ready) → Q b') :
    Steady V externalHost (Until spec since T Q) := by
  intro w w' h hstep hclock
  obtain ⟨hsince, b, hkept, hb⟩ := h (Int.le_trans hstep.clock hclock)
  refine ⟨Int.le_trans hsince hstep.clock, ?_⟩
  cases hstep with
  | others hmove =>
      have hsame := V.untouched hmove
      exact ⟨b, ⟨hsame.trans hkept.obj, hkept.spec, hkept.live, hkept.ours, hkept.expiresAt,
        hkept.fresh⟩, hb⟩
  | round hround =>
      obtain ⟨b', hkept', hprot', hready⟩ := hkept.round hlasts hsince hround hclock
      exact ⟨b', hkept', hQ b b' hb hprot' hready⟩

/-- Made Ready, and by us. -/
def Up (b : DatabaseBranch) : Prop := b.Protected ∧ b.status.phase = .ready

theorem steady_kept (hlasts : Lasts spec since T) :
    Steady V externalHost (Until spec since T fun _ => True) :=
  steady_until hlasts fun _ _ _ _ _ => trivial

theorem steady_up (hlasts : Lasts spec since T) :
    Steady V externalHost (Until spec since T Up) :=
  steady_until hlasts fun _ _ hup hprot hready => ⟨hprot, hready hup.1⟩

/-- Two Reconciles make it Ready. -/
theorem Until.up (h : Until spec since T (fun _ => True) w) (hlasts : Lasts spec since T)
    (h₁ : Round V externalHost w w₁) (h₂ : Round V externalHost w₁ w₂) :
    Until spec since T Up w₂ := by
  intro hclock
  have hclock₁ := Int.le_trans h₂.clock hclock
  obtain ⟨hsince, b, hkept, -⟩ := h (Int.le_trans h₁.clock hclock₁)
  have hsince₁ := Int.le_trans hsince h₁.clock
  obtain ⟨b₁, hkept₁, hprot₁, -⟩ := hkept.round hlasts hsince h₁ hclock₁
  obtain ⟨b₂, hkept₂, hprot₂, hready₂⟩ := hkept₁.round hlasts hsince₁ h₂ hclock
  exact ⟨Int.le_trans hsince₁ h₂.clock, b₂, hkept₂, hprot₂, hready₂ hprot₁⟩

/-! ## POST -/

theorem steady_clock (since : Int) : Steady V externalHost (since ≤ ·.clock) :=
  fun _ _ h hstep => Int.le_trans h hstep.clock

/-- A Create that succeeded, and the poll after it. -/
theorem leads_createBranch {req : CreateRequest} {fuel : Nat} (hname : req.name = S.name)
    (hlasts : Lasts (askedSpec req) since T) (hsince : since ≤ w.clock) :
    (single V externalHost).Holds unjustified (fun a w' => ∀ resp,
      a = some (Rest.Response.json 202 resp) → Until (askedSpec req) since T (fun _ => True) w')
      (Rest.Branches.createBranch (direct setup).creating req fuel) w := by
  intro w₁ henv _
  refine ⟨trivial, ?_⟩
  intro reply w₂ hexec _
  have hexec : if req.name = S.name then Concur.Outcome (fun _ => True) w₁
    (serveCreate S (requested req) w₁) reply w₂ else w₂ = w₁ := hexec
  rw [if_pos hname] at hexec
  rcases reply with err | ⟨⟩
  · rintro resp hresp
    cases hresp
  · have hserved := hexec.of_ok
    have hobj : w₁.crs.obj = none := by
      cases hobj : w₁.crs.obj with
      | none => rfl
      | some cur =>
          rw [serveCreate, hobj] at hserved
          cases hserved
    obtain ⟨b, hkept⟩ := Kept.created (S := S) (T := T) w₁
      (show defaulted (requested req).spec = askedSpec req from rfl) rfl hobj
    rw [hserved] at hkept
    have hclock : w₂.clock = w₁.clock := by
      rw [serveCreate, hobj] at hserved
      cases hserved
      rfl
    have huntil : Until (askedSpec req) since T (fun _ => True) w₂ := by
      intro _
      rw [hclock]
      exact ⟨(steady_clock since).later hsince henv, b, hkept, trivial⟩
    show (single V externalHost).Holds unjustified _ (Rest.Branches.pollForPort
      (direct setup).creating req.name setup.portWaitTimeout Rest.Branches.pollInterval fuel >>=
        fun created => .ret (created.map _)) w₂
    refine System.holds_bind.mpr (System.Holds.mono ?_
      (leads_polls (steady_kept hlasts) meets_pollForPort huntil))
    intro created w' h resp _
    exact h

/-- The check of the snapshot takes its time, and answers nothing but errors. -/
theorem leads_checkSnapshot {req : CreateRequest} (hsince : since ≤ w.clock) :
    (single V externalHost).Holds unjustified (fun refusal w' => since ≤ w'.clock ∧
      ∀ resp, refusal ≠ some (Rest.Response.json 202 resp))
      (Rest.Branches.checkSnapshot (direct setup).creating req) w := by
  rcases setup with ⟨_ | _, host, timeout⟩
  · exact ⟨hsince, nofun⟩
  · show (single V externalHost).Holds unjustified _ (if req.snapshotRef = "" then _ else _) w
    split
    · exact ⟨hsince, nofun⟩
    · intro w₁ henv _
      refine ⟨trivial, ?_⟩
      intro reply w₂ hexec _
      obtain rfl : w₂ = w₁ := hexec
      have hsince₁ := (steady_clock since).later hsince henv
      cases reply with
      | error err => exact ⟨hsince₁, nofun⟩
      | ok snaps =>
          show (single V externalHost).Holds unjustified _ (if _ then _ else _) w₂
          split
          · exact ⟨hsince₁, nofun⟩
          · exact ⟨hsince₁, nofun⟩

theorem leads_handleCreate {body : Body} {fuel : Nat} (hname : (creation body).name = S.name)
    (hlasts : Lasts (askedSpec (creation body)) since T) (hsince : since ≤ w.clock) :
    (single V externalHost).Holds unjustified (fun a w' => ∀ resp,
      a = some (Rest.Response.json 202 resp) →
        Until (askedSpec (creation body)) since T (fun _ => True) w')
      (Rest.Branches.handleCreate (direct setup).creating body fuel) w := by
  show (single V externalHost).Holds unjustified _
    (if _ then _ else if (creation body).name = "" then _ else _) w
  split
  · exact nofun
  · split
    · exact nofun
    · refine System.holds_bind.mpr (System.Holds.mono ?_ (leads_checkSnapshot hsince))
      rintro refusal w₁ ⟨hsince₁, hrefusal⟩
      cases refusal with
      | some refusal =>
          intro resp hresp
          exact absurd hresp (hrefusal resp)
      | none => exact leads_createBranch hname hlasts hsince₁

/-- What a POST that was accepted leaves. -/
theorem Answers.created {r : Request} {resp : Rest.Branches.BranchResponse}
    (h : Answers V externalHost setup r w (.written (.json 202 (.branch resp))) w')
    (hroute : route r.method (pathOf r.url) = some .create)
    (hname : (creation r.body).name = S.name)
    (hlasts : Lasts (askedSpec (creation r.body)) w.clock T) :
    Until (askedSpec (creation r.body)) w.clock T (fun _ => True) w' := by
  have hleads : ∀ fuel, Leads V externalHost (Rest.Router.serve (direct setup) fuel r) w
      fun a w' => a = some (.written (.json 202 (.branch resp))) →
        Until (askedSpec (creation r.body)) w.clock T (fun _ => True) w' := by
    intro fuel
    unfold Rest.Router.serve
    rw [hroute]
    refine System.holds_bind.mpr (System.Holds.mono ?_
      (leads_handleCreate hname hlasts (Int.le_refl _)))
    intro a w' huntil ha
    refine huntil resp ?_
    rcases a with _ | ⟨status, resp'⟩ | ⟨status, msg⟩
    · cases ha
    · cases ha
      rfl
    · cases ha
  refine h.result hleads ?_ rfl
  intro a w₁ w₂ huntil hstep ha
  exact steady_kept hlasts _ _ (huntil ha) hstep

/-! ## GET -/

/-- A GET that was answered 200 shows the branch as it was stored at some time. -/
theorem Answers.got {r : Request} {name : Net.Bytes} {c : Content}
    (h : Answers V externalHost setup r w (.written (.json 200 c)) w')
    (hroute : route r.method (pathOf r.url) = some (.get name)) (hname : Net.text name = S.name) :
    ∃ w₁ cr, ReflTransGen (Between V externalHost) w w₁ ∧ w₁.clock ≤ w'.clock ∧
      cr.name = S.name ∧ w₁.crs.obj = some cr.toDatabaseBranch ∧
      c = .branch (toBranchResponse setup.externalHost cr) := by
  have hleads : ∀ fuel, Leads V externalHost (Rest.Router.serve (direct setup) fuel r) w
      fun a w' => a = some (.written (.json 200 c)) →
        ∃ w₁ cr, ReflTransGen (Between V externalHost) w w₁ ∧ w₁.clock ≤ w'.clock ∧
          cr.name = S.name ∧ w₁.crs.obj = some cr.toDatabaseBranch ∧
          c = .branch (toBranchResponse setup.externalHost cr) := by
    intro fuel
    unfold Rest.Router.serve
    rw [hroute]
    refine leads_call ?_
    intro w₁ reply w₂ henv hexec
    obtain ⟨rfl, hreply⟩ := hexec
    cases reply with
    | error err =>
        intro ha
        have ha : some (notGot err) = some (Rest.Router.Answer.written (.json 200 c)) := ha
        unfold notGot at ha
        split at ha
        · cases ha
        · cases ha
    | ok cr =>
        intro ha
        cases ha
        obtain ⟨hcr, hobj⟩ := hreply cr rfl
        exact ⟨w₂, cr, henv, Int.le_refl _, hcr.trans hname, hobj hname, rfl⟩
  refine h.result hleads ?_ rfl
  intro a w₁ w₂ hgot hstep ha
  obtain ⟨w₀, cr, henv, hclock, hrest⟩ := hgot ha
  exact ⟨w₀, cr, henv, Int.le_trans hclock hstep.clock, hrest⟩

/-! ## DELETE -/

/-- A branch of a type served from the dataset `d` that only we keep, or that is gone with its
clone. -/
inductive Ending (V : Surroundings S) (d : String) (w : World) : Prop
  | kept {b : DatabaseBranch} : w.crs.obj = some b → b.Protected →
      (∀ f ∈ b.finalizers, f = finalizerName) → S.dataset b.spec.databaseType = d → Ending V d w
  | gone : w.crs.obj = none → NoClone V d w → Ending V d w

/-- It is being deleted, or gone. -/
inductive Doomed (V : Surroundings S) (d : String) (w : World) : Prop
  | marked {b : DatabaseBranch} : w.crs.obj = some b → b.deletionTimestamp.isSome → b.Protected →
      (∀ f ∈ b.finalizers, f = finalizerName) → S.dataset b.spec.databaseType = d → Doomed V d w
  | gone : w.crs.obj = none → NoClone V d w → Doomed V d w

/-- Nobody else has a finalizer on it, so giving it up removes it. -/
theorem GivenUp.gone_of_ours (h : GivenUp b w) (hours : ∀ f ∈ b.finalizers, f = finalizerName) :
    w.crs.obj = none := by
  cases h with
  | gone hobj => exact hobj
  | kept _ _ _ _ hne =>
      refine absurd ?_ hne
      unfold DatabaseBranch.removeFinalizer
      exact List.filter_eq_nil_iff.mpr fun f hf => by simp [hours f hf]

theorem Marked.doomed {d : String} (h : Marked b w) (hprot : b.Protected)
    (hours : ∀ f ∈ b.finalizers, f = finalizerName) (hd : S.dataset b.spec.databaseType = d) :
    Doomed V d w := by
  cases h with
  | gone _ hnil =>
      rw [DatabaseBranch.Protected, hnil] at hprot
      cases hprot
  | @kept b' hobj _ hdel hfin hspec =>
      refine .marked hobj hdel ?_ ?_ (hspec ▸ hd)
      · rw [DatabaseBranch.Protected, hfin]
        exact hprot
      · rw [hfin]
        exact hours

theorem Doomed.ending {d : String} (h : Doomed V d w) : Ending V d w := by
  cases h with
  | marked hobj _ hprot hours hd => exact .kept hobj hprot hours hd
  | gone hobj hnone => exact .gone hobj hnone

/-- One Reconcile is enough. -/
theorem Doomed.round {d : String} (h : Doomed V d w) (hround : Round V externalHost w w') :
    w'.crs.obj = none ∧ NoClone V d w' := by
  cases h with
  | marked hobj hdel hprot hours hd =>
      subst hd
      cases hround.advance hobj with
      | released _ _ hgiven hnone => exact ⟨hgiven.gone_of_ours hours, hnone⟩
      | ignored _ hnot => exact absurd hprot hnot
      | expired hlive | adopted hlive | resting hlive | made hlive => simp [hlive] at hdel
  | gone hobj hnone =>
      have hw := hround.absent hobj
      exact ⟨hw.obj.trans hobj, hnone.meanwhile hw⟩

theorem steady_doomed (d : String) : Steady V externalHost (Doomed V d) := by
  intro w w' h hstep
  cases hstep with
  | others hmove =>
      have hsame := V.untouched hmove
      cases h with
      | marked hobj hdel hprot hours hd =>
          exact .marked (hsame.trans hobj) hdel hprot hours hd
      | gone hobj hnone =>
          exact .gone (hsame.trans hobj) (hnone.meanwhile (meanwhile_move hmove))
  | round hround =>
      obtain ⟨hobj, hnone⟩ := h.round hround
      exact .gone hobj hnone

theorem steady_ending (d : String) : Steady V externalHost (Ending V d) := by
  intro w w' h hstep
  cases h with
  | gone hobj hnone =>
      have hdoomed : Doomed V d w := .gone hobj hnone
      exact (steady_doomed d w w' hdoomed hstep).ending
  | @kept b hobj hprot hours hd =>
      cases hstep with
      | others hmove => exact .kept ((V.untouched hmove).trans hobj) hprot hours hd
      | round hround =>
          cases hround.advance hobj with
          | released _ _ hgiven hnone => exact .gone (hgiven.gone_of_ours hours) (hd ▸ hnone)
          | ignored _ hnot | adopted _ hnot => exact absurd hprot hnot
          | expired _ _ _ _ hmarked => exact (hmarked.doomed hprot hours hd).ending
          | resting _ _ _ _ _ _ hobj' => exact .kept hobj' hprot hours hd
          | made _ _ _ hmade hobj' =>
              refine .kept hobj' (hmade.updated.protected.mpr hprot) ?_ (hmade.updated.spec ▸ hd)
              rw [hmade.updated.finalizers]
              exact hours

/-- A Delete that succeeded. -/
theorem Ending.deleted {d : String} (h : Ending V d w) (hserved : serveDelete w = (.ok (), w')) :
    Doomed V d w' := by
  cases h with
  | gone hobj hnone =>
      rw [serveDelete, hobj] at hserved
      cases hserved
  | @kept b hobj hprot hours hd =>
      cases hdel : b.deletionTimestamp with
      | none =>
          have hmarked := (delete_stored hobj hdel).2
          rw [hserved] at hmarked
          exact hmarked.doomed hprot hours hd
      | some t =>
          have hdeleting : b.deletionTimestamp.isSome := by simp [hdel]
          rw [serveDelete, hobj] at hserved
          simp only [hdeleting, if_true] at hserved
          cases hserved
          exact .marked hobj hdeleting hprot hours hd

/-- What a DELETE that was answered 204 leaves. -/
theorem Answers.deleted {r : Request} {name : Net.Bytes} {d : String}
    (h : Answers V externalHost setup r w (.empty 204) w')
    (hroute : route r.method (pathOf r.url) = some (.delete name)) (hname : Net.text name = S.name)
    (hending : Ending V d w) : Doomed V d w' := by
  have hleads : ∀ fuel, Leads V externalHost (Rest.Router.serve (direct setup) fuel r) w
      fun a w' => a = some (.empty 204) → Doomed V d w' := by
    intro fuel
    unfold Rest.Router.serve
    rw [hroute]
    refine leads_call ?_
    intro w₁ reply w₂ henv hexec
    obtain ⟨rfl, hreply⟩ := hexec
    cases reply with
    | error err =>
        intro ha
        have ha : some (notGot err) = some (Rest.Router.Answer.empty 204) := ha
        unfold notGot at ha
        split at ha
        · cases ha
        · cases ha
    | ok cr =>
        refine leads_call ?_
        intro w₃ reply w₄ henv' hexec
        have hcr : cr.name = S.name := (hreply cr rfl).1.trans hname
        have hexec : if cr.name = S.name then
          Concur.Outcome (fun _ => True) w₃ (serveDelete w₃) reply w₄ else w₄ = w₃ := hexec
        rw [if_pos hcr] at hexec
        rcases reply with err | ⟨⟩
        · intro ha
          cases ha
        · intro _
          have hending₃ := (steady_ending d).later ((steady_ending d).later hending henv) henv'
          exact hending₃.deleted hexec.of_ok
  refine h.result hleads ?_ rfl
  intro a w₁ w₂ hdoomed hstep ha
  exact steady_doomed d _ _ (hdoomed ha) hstep

/-- What a branch was asked for as is shown as it is. -/
theorem shown_toBranchResponse (host : String) (cr : DatedBranch) :
    (toBranchResponse host cr).name = cr.name ∧
      (toBranchResponse host cr).snapshotRef = cr.spec.snapshotRef ∧
      (toBranchResponse host cr).ttlHours = cr.spec.ttlHours := by
  unfold toBranchResponse
  dsimp only
  split
  · split
    · exact ⟨rfl, rfl, rfl⟩
    · exact ⟨rfl, rfl, rfl⟩
  · split
    · exact ⟨rfl, rfl, rfl⟩
    · exact ⟨rfl, rfl, rfl⟩

/-! ## Main results -/

/-- A branch of which a DELETE was answered 204, and that was ours alone, is gone with its clone
after one Reconcile, and no GET is answered with it any more. -/
theorem deleted_gone {r₁ r₂ : Request} {name name' : Net.Bytes} {a : Rest.Router.Answer}
    (hobj : w.crs.obj = some b) (hprot : b.Protected)
    (hours : ∀ f ∈ b.finalizers, f = finalizerName)
    (hdelete : Answers V externalHost setup r₁ w (.empty 204) w₁)
    (hroute₁ : route r₁.method (pathOf r₁.url) = some (.delete name))
    (hname₁ : Net.text name = S.name)
    (h₁ : Round V externalHost w₁ w₂)
    (hget : Answers V externalHost setup r₂ w₂ a w₃)
    (hroute₂ : route r₂.method (pathOf r₂.url) = some (.get name'))
    (hname₂ : Net.text name' = S.name) :
    w₂.crs.obj = none ∧ NoClone V (S.dataset b.spec.databaseType) w₂ ∧
      ∀ c, a ≠ .written (.json 200 c) := by
  have hending : Ending V (S.dataset b.spec.databaseType) w := .kept hobj hprot hours rfl
  obtain ⟨hgone, hnone⟩ := (hdelete.deleted hroute₁ hname₁ hending).round h₁
  refine ⟨hgone, hnone, ?_⟩
  rintro c rfl
  obtain ⟨w₄, cr, henv, -, -, hcr, -⟩ := hget.got hroute₂ hname₂
  have hsteady : Steady V externalHost (·.crs.obj = none) := by
    intro w w' hobj hstep
    cases hstep with
    | others hmove => exact (V.untouched hmove).trans hobj
    | round hround => exact (hround.absent hobj).obj.trans hobj
  have hobj₄ : w₄.crs.obj = none := hsteady.later hgone henv
  rw [hobj₄] at hcr
  cases hcr

/-! ## The branch `demo` -/

theorem answers_demo {r : Request} {a : Rest.Router.Answer} (h : (demoServed r w).1 = some a) :
    Answers demoSurroundings "db.example.com" demoApi r w a (demoServed r w).2 := by
  have hruns : (single demoSurroundings "db.example.com").Runs
      (Rest.Router.serve (direct demoApi) 1 r) w
      (demoServed r w).1 (demoServed r w).2 := .of_server (serveApi_exec demo) _ w
  rw [h] at hruns
  exact ⟨1, hruns⟩

/-- What a POST leaves. -/
def demoPosted : World := (demoServed demoPost .fresh).2

/-- What two Reconciles make of it. -/
def demoUp : World := calm demo "db.example.com" (calm demo "db.example.com" demoPosted)

def demoGet : Request := demoRequest .get "/branches/demo" none

def demoDelete : Request := demoRequest .delete "/branches/demo" none

/-- What a DELETE leaves. -/
def demoDropped : World := (demoServed demoDelete demoUp).2

theorem readable_of_all (h : w.crs.obj.all (· ∈ w.crs.versions) = true) : Readable w := by
  intro b hb
  rw [hb] at h
  exact of_decide_eq_true h

/-- The branch as it is accepted. -/
def demoAccepted : Rest.Branches.BranchResponse where
  name := "demo"
  status := "creating"
  createdAt := none
  message := ""
  clusterHost := ""
  clusterPort := 0
  snapshotRef := "base"
  ttlHours := 0

/-- The branch as it is shown later. -/
def demoShown : Rest.Branches.BranchResponse :=
  { demoAccepted with
    status := "Ready"
    host := "branchdb.example.com"
    port := 30000
    dsn := "root@tcp(branchdb.example.com:30000)/"
    clusterHost := "demo"
    clusterPort := 3306 }

theorem deleted_gone_demo : demoUp.crs.obj ≠ none ∧ demoUp.clones "mysql" ≠ none ∧
    (calm demo "db.example.com" demoDropped).crs.obj = none ∧
    (calm demo "db.example.com" demoDropped).clones "mysql" = none ∧
    ∀ c, Rest.Router.Answer.written (.error 404 "branch not found") ≠ .written (.json 200 c) := by
  have hdelete : (demoServed demoDelete demoUp).1 = some (.empty 204) := by decide +kernel
  have hget : (demoServed demoGet (calm demo "db.example.com" demoDropped)).1 =
      some (.written (.error 404 "branch not found")) := by decide +kernel
  have hreadable : Readable demoDropped := readable_of_all (by decide +kernel)
  obtain ⟨b, hobj⟩ : ∃ b, demoUp.crs.obj = some b :=
    Option.isSome_iff_exists.mp (by decide +kernel)
  have hall : demoUp.crs.obj.all (fun b => b.finalizers = [finalizerName] ∧
      b.spec.databaseType = "mysql") = true := by
    decide +kernel
  rw [hobj] at hall
  obtain ⟨hfinalizers, htype⟩ : b.finalizers = [finalizerName] ∧ b.spec.databaseType = "mysql" :=
    of_decide_eq_true hall
  have hprot : b.Protected := by
    rw [DatabaseBranch.Protected, hfinalizers]
    exact List.mem_singleton_self _
  have hours : ∀ f ∈ b.finalizers, f = finalizerName := by
    rw [hfinalizers]
    exact fun f hf => List.mem_singleton.mp hf
  have hclone : demoUp.clones "mysql" ≠ none := by decide +kernel
  obtain ⟨hgone, hnone, hgot⟩ := deleted_gone hobj hprot hours (answers_demo hdelete)
    (show route demoDelete.method (pathOf demoDelete.url) = some (.delete (Net.utf8 "demo")) by
      decide +kernel) (Net.text_utf8 "demo") (round_demoCalm hreadable) (answers_demo hget)
    (show route demoGet.method (pathOf demoGet.url) = some (.get (Net.utf8 "demo")) by
      decide +kernel) (Net.text_utf8 "demo")
  have hfree := hnone.none cloneless_demo
  rw [htype] at hfree
  exact ⟨by simp [hobj], hclone, hgone, hfree, hgot⟩

end BranchDB.Operator
