/-
# `BranchDB.Rest.Gc` — what GC takes for an orphan

GC lists the clones of a dataset, then the CRs, and deletes the clones that no CR is named
after.  That is a comparison of two answers of the past: a CR may be created after the List
and before the DeleteClone for a clone of its name, and a List that fails counts as one that
found no CR, so that every clone of the dataset is an orphan (`gc_destroys_live`).  When
neither happens, no CR of that name exists when a clone is deleted (`gc_spares_live`).
-/
import BranchDB.Concur.System
import BranchDB.Rest.Handler

namespace BranchDB.Rest

open Concur Relation

inductive Call
  | client (c : ClientCall)
  | volume (c : VolumeCall)
deriving DecidableEq, Repr

abbrev Call.Reply : Call → Type
  | .client c => c.Reply
  | .volume c => c.Reply

/-- The handler as a program over the calls of its client and its provider. -/
def direct (configured : Bool) : K8sBranchHandler (Prog Call Call.Reply) where
  k8sClient c := .perform (Call.client c)
  volumeProvider := if configured then some fun c => .perform (Call.volume c) else none

/-! ## The world -/

/-- What exists, and what the GC in flight has been told: `listed` are the clones ListClones
returned, `seen` the names of the CRs List returned, none before it was answered, and
`tried` the clones DeleteClone was called for. -/
structure World where
  crs : List DatabaseBranch
  clones : String → List String
  listed : List String := []
  seen : Option (List String) := none
  tried : List String := []

/-- A CR of this name exists. -/
def World.Live (w : World) (name : String) : Prop := ∃ cr ∈ w.crs, cr.name = name

/-- What a call may do and answer. -/
def Exec : (e : Call) → World → e.Reply → World → Prop
  | .client .list, w, r, w' =>
    (r = .ok w.crs ∧ w' = { w with seen := some (w.crs.map (·.name)) }) ∨
      ∃ err, r = .error err ∧ w' = { w with seen := some [] }
  | .client (.delete _), w, _, w' => ∃ crs, w' = { w with crs }
  | .volume (.listClones t), w, r, w' =>
    (r = .ok (w.clones t) ∧ w' = { w with listed := w.clones t }) ∨
      ∃ err, r = .error err ∧ w' = w
  | .volume (.deleteClone _ name), w, _, w' =>
    ∃ clones, w' = { w with clones, tried := name :: w.tried }
  | .volume _, w, _, w' => ∃ clones, w' = { w with clones }

/-- Everybody else creates, changes and deletes CRs and clones at will. -/
def Others (w w' : World) : Prop := ∃ crs clones, w' = { w with crs, clones }

/-- One GC after the other, among everybody else. -/
def gc : System Call Call.Reply World (Response GCReport) where
  init _ := True
  exec := Exec
  env := Others
  start w w' := w' = { w with listed := [], seen := none, tried := [] }
  main p := ∃ configured body, p = handleGC (direct configured) body

/-! ## When GC is safe -/

/-- GC takes the clone for an orphan, and has not come to it yet. -/
def Pending (w : World) (name : String) : Prop :=
  w.tried.count name < w.listed.count name ∧ ∃ seen, w.seen = some seen ∧ name ∉ seen

/-- List answers, unless none of the clones listed has a CR. -/
def ListAnswered : (e : Call) → World → e.Reply → World → Prop
  | .client .list, w, .error _, _ => ∀ name ∈ w.listed, ¬ w.Live name
  | _, _, _, _ => True

/-- No CR is created with the name of a pending orphan. -/
def NoneReborn (w w' : World) : Prop := ∀ name, Pending w name → w'.Live name → w.Live name

abbrev quietGc : System Call Call.Reply World (Response GCReport) :=
  gc.restrict ListAnswered NoneReborn

/-- No clone is deleted while a CR has its name. -/
def sparing : Contract Call World where
  inv _ := True
  guar
    | .volume (.deleteClone _ name), w => ¬ w.Live name
    | _, _ => True

/-- The clones `rest` are still to be gone through, those not in `crNames` being orphans. -/
structure Swept (crNames rest : List String) (w : World) : Prop where
  seen : w.seen = some crNames
  pending : ∀ name, name ∉ crNames → rest.count name + w.tried.count name ≤ w.listed.count name
  orphan : ∀ name ∈ rest, name ∉ crNames → ¬ w.Live name

variable {crNames rest : List String} {name : String} {w w' : World}

theorem Swept.pend (h : Swept crNames rest w) (hrest : name ∈ rest) (hseen : name ∉ crNames) :
    Pending w name := by
  have hcount := h.pending name hseen
  have hpos := List.count_pos_iff.mpr hrest
  exact ⟨by omega, crNames, h.seen, hseen⟩

theorem Swept.env (h : Swept crNames rest w) (he : quietGc.env w w') : Swept crNames rest w' := by
  obtain ⟨⟨crs, clones, rfl⟩, hreborn⟩ := he
  refine ⟨h.seen, h.pending, ?_⟩
  intro name hrest hseen hlive
  exact h.orphan name hrest hseen (hreborn name (h.pend hrest hseen) hlive)

theorem Swept.later (h : Swept crNames rest w) (he : ReflTransGen quietGc.env w w') :
    Swept crNames rest w' := by
  induction he with
  | refl => exact h
  | tail _ he ih => exact ih.env he

/-- The others do not change what GC was told. -/
theorem told_later (he : ReflTransGen quietGc.env w w') :
    w'.listed = w.listed ∧ w'.tried = w.tried := by
  induction he with
  | refl => exact ⟨rfl, rfl⟩
  | tail _ he ih =>
      obtain ⟨⟨crs, clones, rfl⟩, -⟩ := he
      exact ih

/-- A clone with a CR is passed over. -/
theorem Swept.skip (h : Swept crNames (name :: rest) w) : Swept crNames rest w where
  seen := h.seen
  pending name' hseen := by
    have hcount := h.pending name' hseen
    have hle := List.count_le_count_cons (a := name') (b := name) (l := rest)
    omega
  orphan name' hrest := h.orphan name' (List.mem_cons_of_mem _ hrest)

theorem Swept.deleted (h : Swept crNames (name :: rest) w) (clones : String → List String) :
    Swept crNames rest { w with clones, tried := name :: w.tried } where
  seen := h.seen
  pending name' hseen := by
    have hcount := h.pending name' hseen
    simp only [List.count_cons] at hcount ⊢
    omega
  orphan name' hrest := h.orphan name' (List.mem_cons_of_mem _ hrest)

/-- What List answered, or its failure, divides the clones that were listed. -/
theorem swept_list {listed : List String} {r : Except GoError (List DatabaseBranch)}
    (hlisted : w.listed = listed) (htried : w.tried = [])
    (hex : quietGc.exec (.client .list) w r w') :
    Swept ((items r).map (·.name)) listed w' := by
  obtain ⟨⟨rfl, rfl⟩ | ⟨err, rfl, rfl⟩, hanswered⟩ := hex
  · refine ⟨rfl, fun name _ => by simp [hlisted, htried], ?_⟩
    intro name _ hseen hlive
    obtain ⟨cr, hcr, rfl⟩ := hlive
    exact hseen (List.mem_map_of_mem hcr)
  · exact ⟨rfl, fun name _ => by simp [hlisted, htried], fun name hrest _ =>
      hanswered name (hlisted ▸ hrest)⟩

/-! ## GC, call by call -/

abbrev volumes : VolumeProvider (Prog Call Call.Reply) := fun c => .perform (Call.volume c)

theorem holds_deleteOrphans {dbType : String} (h : Swept crNames rest w) :
    quietGc.Holds sparing (fun _ _ => True) (deleteOrphans volumes dbType crNames rest) w := by
  induction rest generalizing w with
  | nil => exact trivial
  | cons name rest ih =>
      rw [deleteOrphans]
      split
      · exact ih h.skip
      · next hseen =>
        intro w₁ henv _
        have h₁ := h.later henv
        refine ⟨h₁.orphan name List.mem_cons_self hseen, ?_⟩
        intro r w₂ hex _
        obtain ⟨⟨clones, rfl⟩, -⟩ := hex
        have hrest := ih (h₁.deleted clones)
        rcases r with err | ⟨⟩
        · exact hrest
        · show quietGc.Holds sparing (fun _ _ => True)
            (deleteOrphans volumes dbType crNames rest >>= fun deleted =>
              .ret (name :: deleted)) _
          exact System.holds_bind.mpr (hrest.mono fun _ _ _ => trivial)

/-- Collecting archives deletes no clones. -/
theorem holds_gcArchives {req : GCRequest} {deletedClones : List String} :
    quietGc.Holds sparing (fun _ _ => True) (gcArchives volumes req deletedClones) w := by
  intro w₁ _ _
  refine ⟨trivial, ?_⟩
  intro r w₂ _ _
  rcases r with err | deletedSnaps <;> exact trivial

theorem holds_gcClones {configured : Bool} {req : GCRequest} {zfsClones : List String}
    (hlisted : w.listed = zfsClones) (htried : w.tried = []) :
    quietGc.Holds sparing (fun _ _ => True)
      (gcClones (direct configured) volumes req zfsClones) w := by
  intro w₁ henv _
  refine ⟨trivial, ?_⟩
  intro r w₂ hex _
  obtain ⟨hlisted₁, htried₁⟩ := told_later henv
  have hswept := swept_list (hlisted₁.trans hlisted) (htried₁.trans htried) hex
  show quietGc.Holds sparing (fun _ _ => True)
    (deleteOrphans volumes req.dbType ((items r).map (·.name)) zfsClones >>=
      gcArchives volumes req) w₂
  exact System.holds_bind.mpr ((holds_deleteOrphans hswept).mono fun _ _ _ => holds_gcArchives)

theorem holds_handleGC {configured : Bool} {body : Body} (htried : w.tried = []) :
    quietGc.Holds sparing (fun _ _ => True) (handleGC (direct configured) body) w := by
  cases configured with
  | false => exact trivial
  | true =>
      intro w₁ henv _
      refine ⟨trivial, ?_⟩
      intro r w₂ hex _
      obtain ⟨⟨rfl, rfl⟩ | ⟨err, rfl, rfl⟩, -⟩ := hex
      · exact holds_gcClones rfl ((told_later henv).2.trans htried)
      · exact trivial

theorem sound_quietGc : System.Sound quietGc sparing where
  init _ _ := trivial
  env _ _ _ _ := trivial
  start _ _ _ _ := trivial
  call _ _ _ _ _ _ _ := trivial
  main := by
    rintro _ w _ ⟨configured, body, rfl⟩ rfl _
    exact holds_handleGC rfl

/-! ## Main results -/

/-- In every run in which List answers, or none of the clones listed has a CR, and in which
no CR is created with the name of a pending orphan, no clone is deleted while a CR has its
name. -/
theorem gc_spares_live {c : Config Call Call.Reply World (Response GCReport)}
    (h : quietGc.Reach c) {dbType name : String}
    (hissue : c.Issues (.volume (.deleteClone dbType name))) : ¬ c.state.Live name :=
  h.guarded sound_quietGc hissue

/-! ## A branch and an orphan -/

def liveBranch : DatabaseBranch where
  name := "live"
  uid := 1
  resourceVersion := 1
  spec := { snapshotRef := "base" }

/-- The dataset has the clone of a branch, and one more. -/
def demoWorld : World where
  crs := [liveBranch]
  clones _ := ["live", "orphan"]

abbrev demoGc : Prog Call Call.Reply (Response GCReport) :=
  handleGC (direct true) (some (.object [("db_type", .string "mysql")]))

/-- The clones have been listed. -/
abbrev listedWorld : World := { demoWorld with listed := ["live", "orphan"] }

abbrev listedGc : Prog Call Call.Reply (Response GCReport) :=
  gcClones (direct true) volumes { dbType := "mysql" } ["live", "orphan"]

theorem reach_listed : quietGc.Reach ⟨listedWorld, some listedGc⟩ := by
  have hstart : quietGc.Step ⟨demoWorld, none⟩ ⟨demoWorld, some demoGc⟩ :=
    .start ⟨true, _, rfl⟩ rfl
  have hlist : quietGc.Step ⟨demoWorld, some demoGc⟩ ⟨listedWorld, some listedGc⟩ :=
    @System.Step.call _ _ _ _ quietGc _ _ (.volume (.listClones "mysql")) _ (.ok ["live", "orphan"])
      ⟨.inl ⟨rfl, rfl⟩, trivial⟩
  exact ((System.Reach.init trivial).step hstart).step hlist

def lateBranch : DatabaseBranch := { liveBranch with name := "late", uid := 2 }

def freshBranch : DatabaseBranch := { liveBranch with name := "fresh", uid := 3 }

/-- A branch was created after the clones were listed, -/
abbrev joinedWorld : World :=
  { listedWorld with
    crs := [liveBranch, lateBranch]
    clones := fun _ => ["live", "orphan", "late"] }

abbrev seenWorld : World := { joinedWorld with seen := some ["live", "late"] }

/-- and after the CRs were, one was deleted and another created. -/
abbrev leftWorld : World :=
  { seenWorld with crs := [lateBranch, freshBranch], clones := fun _ => ["orphan", "late"] }

theorem gc_spares_live_demo : ¬ leftWorld.Live "orphan" := by
  have hjoin : quietGc.Step ⟨listedWorld, some listedGc⟩ ⟨joinedWorld, some listedGc⟩ :=
    .env ⟨⟨_, _, rfl⟩, fun _ hpending => nomatch hpending.2⟩
  have hlist : quietGc.Step ⟨joinedWorld, some listedGc⟩ ⟨seenWorld, _⟩ :=
    @System.Step.call _ _ _ _ quietGc _ _ (.client .list) _ (.ok [liveBranch, lateBranch])
      ⟨.inl ⟨rfl, rfl⟩, trivial⟩
  have hreborn : NoneReborn seenWorld leftWorld := by
    rintro name ⟨hcount, -⟩ hlive
    have hlisted : name ∈ ["live", "orphan"] := List.count_pos_iff.mp (Nat.zero_lt_of_lt hcount)
    have hnone : ∀ name ∈ ["live", "orphan"], ∀ cr ∈ [lateBranch, freshBranch], cr.name ≠ name := by
      decide
    obtain ⟨cr, hcr, hname⟩ := hlive
    exact absurd hname (hnone name hlisted cr hcr)
  have hreach := ((reach_listed.step hjoin).step hlist).step (.env ⟨⟨_, _, rfl⟩, hreborn⟩)
  exact @gc_spares_live _ hreach "mysql" "orphan" ⟨_, rfl⟩

/-- The List fails, and GC deletes the clone of a branch whose CR exists. -/
theorem gc_destroys_live : ∃ c : Config Call Call.Reply World (Response GCReport),
    gc.Reach c ∧ c.Issues (.volume (.deleteClone "mysql" "live")) ∧ c.state.Live "live" := by
  have hlist : gc.Step ⟨listedWorld, some listedGc⟩ ⟨{ listedWorld with seen := some [] }, _⟩ :=
    @System.Step.call _ _ _ _ gc _ _ (.client .list) _ (.error (errorf "timeout"))
      (.inr ⟨_, rfl, rfl⟩)
  exact ⟨_, reach_listed.of_restrict.step hlist, ⟨_, rfl⟩, liveBranch,
    List.mem_singleton_self _, rfl⟩

end BranchDB.Rest
