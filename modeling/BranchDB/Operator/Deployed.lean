/-
# `BranchDB.Operator.Deployed` — the operator with a real agent

`BranchDB.Operator.World` says what the operator may expect of the agent: CreateClone makes the
clone, finds it there, or fails; DeleteClone is answered with success only when the clone is gone.
Here the agent is not assumed.  A call of the reconciler is a call of the client of
`internal/infrastructure/zfsagent`, which sends a request to the handler, which asks a provider,
which runs `zfs` on the host:

    reconcile ─▶ remote ─▶ serveHTTP ─▶ AgentProvider ─▶ zfs
        │                                                 │
      world                                             host

Whatever this deployment does, the system of `BranchDB.Operator.World` can do
(`deployed_refines`), so all that is proved of its runs holds here, the clones being those that
are on the host.

Requests and answers may be lost between the client and the agent, commands may fail, and between
two calls anybody may do anything to the host.  Two things are assumed: a call of the agent has
the host to itself while it runs, and no name on the host contains the phrase by which a missing
clone is known.
-/
import BranchDB.Concur.Refine
import BranchDB.Operator.Healthy
import BranchDB.Operator.Named
import BranchDB.Zfs.OneClone
import BranchDB.ZfsAgent.Backend
import BranchDB.ZfsAgent.Tenants

namespace BranchDB.Operator

open Concur Net Strings Zfs ZfsAgent

/-! ## The deployment -/

/-- The characters of the name of a Kubernetes object. -/
def nameChars : List Char := "abcdefghijklmnopqrstuvwxyz0123456789-.".toList

/-- The name of a Kubernetes object. -/
structure Subdomain (name : String) : Prop where
  nonempty : name ≠ ""
  chars : ∀ c ∈ name.toList, c ∈ nameChars

/-- An operator for the CR of one name, and the agent it has a client of. -/
structure Deployment extends Backend where
  name : String
  ns : String
  subdomain : Subdomain name
  plain : ∀ key ∈ keys, '@' ∉ (ds key).dataset.toList
  legible : ∀ key ∈ keys, contains (ds key).dataset missingText = false

/-- The filesystem of a clone in a dataset. -/
def cloneOf (name d : String) : String := (AgentProvider.mk d).clonePath name

namespace Deployment

variable (D : Deployment)

/-- The dataset of a type is that of the provider that serves it. -/
def setting : Setting where
  name := D.name
  dataset dbType := ((servedBy D.keys (sentType dbType)).map fun key => (D.ds key).dataset).getD ""
  ns := D.ns

end Deployment

/-- What the world holds but the clones, which are on the host. -/
structure Site where
  world : World
  host : Machine

/-- What the log remembers of a call. -/
def World.noted (w : World) : (c : VolumeCall) → c.Reply → World
  | .createClone .., _ => w.record (.createClone w.run w.handling)
  | .deleteClone .., r => w.record (.cloneDeleted w.run w.handling r.isOk)
  | .takeSnapshot .., _ | .deleteSnapshot .., _ | .listSnapshots _, _ | .listClones _, _
  | .gcSnapshots .., _ | .resetDataset _, _ => w

namespace Deployment

variable (D : Deployment)

def Exec : (e : Call) → Site → e.Reply → Site → Prop
  | .volume c, s, r, s' => Requested D.toBackend c s.host r s'.host ∧ s'.world = s.world.noted c r
  | .client c, s, r, s' => ClientExec c s.world r s'.world ∧ s'.host = s.host
  | .now, s, r, s' => Operator.Exec D.setting .now s.world r s'.world ∧ s'.host = s.host
  | .database c, s, r, s' => DatabaseExec c s.world r s'.world ∧ s'.host = s.host
  | .k8s c, s, r, s' => Operator.Exec D.setting (.k8s c) s.world r s'.world ∧ s'.host = s.host

/-- Users, other controllers and time move the world, and anybody the host. -/
inductive Env (s : Site) : Site → Prop
  | world {w' : World} : Operator.Env D.setting s.world w' → Env s ⟨w', s.host⟩
  | host {m' : Machine} : Legible m'.store → Env s ⟨s.world, m'⟩

def system (externalHost : String) : System Call Call.Reply Site Outcome where
  init s := Initial s.world ∧ Legible s.host.store
  exec := D.Exec
  env := D.Env
  start s s' := Started s.world s'.world ∧ s'.host = s.host
  main := (· = reconcile (reconciler externalHost) D.name)

end Deployment

/-! ## Names -/

section

variable {D : Deployment} {name d d' : String}

theorem Subdomain.inPath (h : Subdomain name) : InPath name := by
  have hchars : nameChars.all (fun c => (String.utf8EncodeChar c).all fun b =>
      pathSafe b && b != '/'.toUInt8) = true := by decide +kernel
  have hbytes : ∀ b ∈ utf8 name, pathSafe b = true ∧ b ≠ '/'.toUInt8 := by
    intro b hb
    rw [utf8_eq_flatMap] at hb
    obtain ⟨c, hc, hb⟩ := List.mem_flatMap.mp hb
    have hall := List.all_eq_true.mp (List.all_eq_true.mp hchars c (h.chars c hc)) b hb
    rwa [Bool.and_eq_true, bne_iff_ne] at hall
  refine ⟨⟨fun hnil => h.nonempty (utf8_eq_nil.mp hnil), fun hslash => ?_⟩, fun b hb => ?_⟩
  · exact (hbytes _ hslash).2 rfl
  · exact (hbytes b hb).1

/-- Such a name does not contain what has a blank in it. -/
theorem Subdomain.contains_eq_false (h : Subdomain name) : contains name missingText = false := by
  refine Bool.eq_false_iff.mpr ?_
  intro hcontains
  have hblank : ' ' ∈ name.toList := by
    have hmem : ' ' ∈ missingText.toList := by decide
    exact (contains_iff.mp hcontains).subset hmem
  exact absurd (h.chars _ hblank) (by decide)

theorem at_notMem_cloneOf (h : Subdomain name) (hd : '@' ∉ d.toList) :
    '@' ∉ (cloneOf name d).toList := by
  intro hmem
  have hsplit : (cloneOf name d).toList = d.toList ++ ("/branches/".toList ++ name.toList) := by
    simp [cloneOf, AgentProvider.clonePath]
  rw [hsplit] at hmem
  rcases List.mem_append.mp hmem with hmem | hmem
  · exact hd hmem
  · rcases List.mem_append.mp hmem with hmem | hmem
    · exact absurd hmem (by decide)
    · exact absurd (h.chars _ hmem) (by decide)

theorem contains_cloneOf (h : Subdomain name) (hd : contains d missingText = false) :
    contains (cloneOf name d) missingText = false := by
  have hsplit : cloneOf name d = d ++ (String.singleton '/' ++ ("branches" ++
      (String.singleton '/' ++ name))) := by
    rw [← String.toList_inj]
    simp [cloneOf, AgentProvider.clonePath]
  have hbranches : contains "branches" missingText = false := by decide
  have hslash : '/' ∉ missingText.toList := by decide
  refine Bool.eq_false_iff.mpr ?_
  rw [hsplit]
  intro hcontains
  rcases (contains_separated hslash).mp hcontains with hcontains | hcontains
  · rw [hd] at hcontains
    cases hcontains
  · rcases (contains_separated hslash).mp hcontains with hcontains | hcontains
    · rw [hbranches] at hcontains
      cases hcontains
    · rw [h.contains_eq_false] at hcontains
      cases hcontains

/-- Clones of one name are told apart by their datasets. -/
theorem cloneOf_injective (h : cloneOf name d = cloneOf name d') : d = d' := by
  have hsame : d ++ ("/branches/" ++ name) = d' ++ ("/branches/" ++ name) := by
    simpa [cloneOf, AgentProvider.clonePath, String.append_assoc] using h
  exact (String.append_left_inj _).mp hsame

end

/-! ## Which clones there are -/

/-- The clones of a world are those on the host. -/
def Tracks (name : String) (m : Machine) (clones : String → Option (Option Nat)) : Prop :=
  ∀ d, clones d = none ↔ m.store.filesystem (cloneOf name d) = none

section

variable {D : Deployment} {name d : String} {m m' : Machine} {w : World}
  {clones : String → Option (Option Nat)}

/-- What happened to one clone leaves the others as they were. -/
theorem Tracks.update (h : Tracks name m clones) (hsame : SameBut (cloneOf name d) m.store m'.store)
    {x : Option (Option Nat)} (hx : x = none ↔ m'.store.filesystem (cloneOf name d) = none) :
    Tracks name m' (Function.update clones d x) := by
  intro d'
  by_cases hd : d' = d
  · subst hd
    rw [Function.update_self]
    exact hx
  · rw [Function.update_of_ne hd]
    have hne : cloneOf name d' ≠ cloneOf name d := fun he => hd (cloneOf_injective he)
    exact (h d').trans (hsame.others _ hne).symm

theorem Tracks.same (h : Tracks name m clones) (hsame : SameBut (cloneOf name d) m.store m'.store)
    (hd : m'.store.filesystem (cloneOf name d) = none ↔ m.store.filesystem (cloneOf name d) = none) :
    Tracks name m' clones := by
  have hupdate := h.update hsame ((h d).trans hd.symm)
  rwa [Function.update_eq_self] at hupdate

/-- The world with these clones. -/
def World.holding (w : World) (clones : String → Option (Option Nat)) : World := { w with clones }

/-- What a call leaves on the host is what the world may be told to hold. -/
structure Told (D : Deployment) (m : Machine) (clones : String → Option (Option Nat)) : Prop where
  tracks : Tracks D.name m clones
  legible : Legible m.store

theorem dataset_of_servedBy {t key : String} (h : servedBy D.keys (sentType t) = some key) :
    D.setting.dataset t = (D.ds key).dataset ∧ key ∈ D.keys := by
  refine ⟨?_, mem_of_servedBy h⟩
  show ((servedBy D.keys (sentType t)).map fun key => (D.ds key).dataset).getD "" = _
  rw [h]
  rfl

theorem Told.sameBut (h : Told D m clones) {key : String} (hkey : key ∈ D.keys)
    (hsame : SameBut (cloneOf D.name (D.ds key).dataset) m.store m'.store) : Legible m'.store :=
  h.legible.sameBut (contains_cloneOf D.subdomain (D.legible key hkey)) hsame

/-- A CreateClone of the client does what may be expected of the agent. -/
theorem createClone_told {t snapshot : String} {r : Except GoError VolumeInfo}
    {tr : List (Concur.Event Invocation Invocation.Reply Machine)} (h : Told D m w.clones)
    (hends : (D.client (.createClone t snapshot D.name)).Ends (hosted D.ds) m tr r m') :
    ∃ clones', CloneServed w (D.setting.dataset t) (r, w.holding clones') ∧ Told D m' clones' := by
  cases createClone_cases hends with
  | failed err => exact ⟨w.clones, .failed err, h⟩
  | @asked key reply _ hserved hhosted =>
      obtain ⟨hdataset, hkey⟩ := dataset_of_servedBy hserved
      obtain ⟨tr', hrun⟩ := hhosted
      have hrun : Machine.Runs ((D.ds key).createClone (text (utf8 snapshot)) (text (utf8 D.name)))
          m tr' reply m' := hrun
      rw [text_utf8, text_utf8] at hrun
      have hat := at_notMem_cloneOf D.subdomain (D.plain key hkey)
      have hsame : SameBut (cloneOf D.name (D.ds key).dataset) m.store m'.store :=
        sameBut_of_runs hat (D.ds key).createClone_around hrun
      have hlegible := h.sameBut hkey hsame
      have hbefore := h.tracks (D.ds key).dataset
      rw [hdataset]
      by_cases hthere : m.store.filesystem (cloneOf D.name (D.ds key).dataset) = none
      · by_cases hmade : m'.store.filesystem (cloneOf D.name (D.ds key).dataset) = none
        · -- Nothing was made, so it failed.
          have hfailed : ∃ err, createdClone (cloned reply) = .error err := by
            cases hr : createdClone (cloned reply) with
            | error err => exact ⟨err, rfl⟩
            | ok vol =>
                have hok := createdClone_cloned.mp hr
                subst hok
                exact absurd hmade ((D.ds key).createClone_there hrun hat)
          obtain ⟨err, herr⟩ := hfailed
          rw [herr]
          exact ⟨w.clones, .failed err, h.tracks.same hsame (iff_of_true hmade hthere), hlegible⟩
        · exact ⟨_, .made _ (hbefore.mpr hthere),
            h.tracks.update hsame (iff_of_false nofun hmade), hlegible⟩
      · have hstays := (D.ds key).createClone_stays hrun hthere
        have htold : Told D m' w.clones :=
          ⟨h.tracks.same hsame (iff_of_false hstays hthere), hlegible⟩
        cases hr : createdClone (cloned reply) with
        | error err => exact ⟨w.clones, .failed err, htold⟩
        | ok vol => exact ⟨w.clones, .present vol fun hnone => hthere (hbefore.mp hnone), htold⟩

/-- And so does a DeleteClone; where the clone is destroyed and that is not said, the answer got
lost. -/
theorem deleteClone_told {t : String} {r : Except GoError Unit}
    {tr : List (Concur.Event Invocation Invocation.Reply Machine)} (h : Told D m w.clones)
    (hends : (D.client (.deleteClone t D.name)).Ends (hosted D.ds) m tr r m') :
    ∃ served clones', DeleteCloneServed w (D.setting.dataset t) served ∧
      Concur.Outcome (fun _ => True) w served r (w.holding clones') ∧ Told D m' clones' := by
  cases deleteClone_removal D.subdomain.inPath hends with
  | failed err => exact ⟨_, w.clones, .failed err, .answered, h⟩
  | @asked key reply _ hserved hhosted =>
      obtain ⟨hdataset, hkey⟩ := dataset_of_servedBy hserved
      obtain ⟨tr', hrun⟩ := hhosted
      have hrun : Machine.Runs ((D.ds key).deleteClone (text (utf8 D.name))) m tr' reply m' := hrun
      rw [text_utf8] at hrun
      have hat := at_notMem_cloneOf D.subdomain (D.plain key hkey)
      have hsame : SameBut (cloneOf D.name (D.ds key).dataset) m.store m'.store :=
        sameBut_of_runs hat (D.ds key).deleteClone_around hrun
      have hlegible := h.sameBut hkey hsame
      rw [hdataset]
      by_cases hgone : m'.store.filesystem (cloneOf D.name (D.ds key).dataset) = none
      · have htold : Told D m' (Function.update w.clones (D.ds key).dataset none) :=
          ⟨h.tracks.update hsame (iff_of_true rfl hgone), hlegible⟩
        cases hr : deletedClone (deleted reply) with
        | ok => exact ⟨_, _, .gone, .answered, htold⟩
        | error err => exact ⟨_, _, .gone, .lost trivial, htold⟩
      · -- It is still there, so that is what was answered.
        have hfailed : ∃ err, deletedClone (deleted reply) = .error err := by
          cases hr : deletedClone (deleted reply) with
          | error err => exact ⟨err, rfl⟩
          | ok =>
              have hleft := (D.ds key).deleteClone_gone hrun (deletedClone_deleted.mp hr)
              exact absurd (hleft.resolve_right h.legible.not_misread) hgone
        obtain ⟨err, herr⟩ := hfailed
        rw [herr]
        have hthere : m.store.filesystem (cloneOf D.name (D.ds key).dataset) ≠ none :=
          fun hnone => hgone ((D.ds key).deleteClone_absent hrun hnone)
        exact ⟨_, w.clones, .failed err, .answered,
          h.tracks.same hsame (iff_of_false hgone hthere), hlegible⟩

end

/-! ## What does not look at the clones -/

section

variable {D : Deployment} {S : Setting} {w w' : World} (clones : String → Option (Option Nat))

theorem replace_holding (w : World) (cur new : DatabaseBranch) :
    (w.holding clones).replace cur new =
      ((w.replace cur new).1, (w.replace cur new).2.holding clones) := by
  unfold World.replace
  split
  · rfl
  · split
    · rfl
    · rfl

theorem serveUpdate_holding (w : World) (b : DatabaseBranch) :
    serveUpdate (w.holding clones) b =
      ((serveUpdate w b).1, (serveUpdate w b).2.holding clones) := by
  have haccept : accept (w.holding clones) b = accept w b := rfl
  unfold serveUpdate
  rw [haccept]
  cases accept w b with
  | error err => rfl
  | ok cur =>
      dsimp only
      rw [replace_holding]
      split
      · rfl
      · rfl

theorem serveStatusUpdate_holding (w : World) (b : DatabaseBranch) :
    serveStatusUpdate (w.holding clones) b =
      ((serveStatusUpdate w b).1, (serveStatusUpdate w b).2.holding clones) := by
  have haccept : accept (w.holding clones) b = accept w b := rfl
  unfold serveStatusUpdate
  rw [haccept]
  cases accept w b with
  | error err => rfl
  | ok cur =>
      dsimp only
      rw [replace_holding]
      rfl

theorem serveDelete_holding (w : World) :
    serveDelete (w.holding clones) = ((serveDelete w).1, (serveDelete w).2.holding clones) := by
  have hobj : (w.holding clones).crs.obj = w.crs.obj := rfl
  have hclock : (w.holding clones).clock = w.clock := rfl
  unfold serveDelete
  rw [hobj, hclock]
  cases w.crs.obj with
  | none => rfl
  | some cur =>
      dsimp only
      rw [replace_holding]
      split
      · rfl
      · rfl

/-- How a request ends, told in other states. -/
theorem outcome_map {σ τ : Type} {ε β : Type} {transport : ε → Prop} {s s' : σ}
    {served : Except ε β × σ} {r : Except ε β} (f : σ → τ)
    (h : Concur.Outcome transport s served r s') :
    Concur.Outcome transport (f s) (served.1, f served.2) r (f s') := by
  cases h with
  | answered => exact .answered
  | dropped htransport => exact .dropped htransport
  | lost htransport => exact .lost htransport

theorem clientExec_holding {c : ClientCall} {r : c.Reply} (h : ClientExec c w r w') :
    ClientExec c (w.holding clones) r (w'.holding clones) := by
  cases c with
  | get name =>
      cases (show Got w r w' from h) with
      | version hb => exact Got.version (w := w.holding clones) hb
      | failed err => exact Got.failed (w := w.holding clones) err
  | update b =>
      show Concur.Outcome _ (w.holding clones) (serveUpdate (w.holding clones) b) r _
      rw [serveUpdate_holding]
      exact outcome_map (World.holding · clones) h
  | statusUpdate b =>
      show Concur.Outcome _ (w.holding clones) (serveStatusUpdate (w.holding clones) b) r _
      rw [serveStatusUpdate_holding]
      exact outcome_map (World.holding · clones) h
  | delete b =>
      have hmapped := outcome_map (World.holding · clones) h
      rw [← serveDelete_holding] at hmapped
      exact hmapped

theorem env_holding (h : Env S w w') :
    w'.holding clones = w.holding clones ∨ Env S (w.holding clones) (w'.holding clones) := by
  cases h with
  | create spec finalizers hobj =>
      exact Or.inr (Env.create (w := w.holding clones) spec finalizers hobj)
  | @edit cur spec finalizers hobj hprot hdel =>
      have hedit := Env.edit (S := S) (w := w.holding clones) spec finalizers hobj hprot hdel
      rw [replace_holding] at hedit
      exact Or.inr hedit
  | delete =>
      have hdelete := Env.delete (S := S) (w := w.holding clones)
      rw [serveDelete_holding] at hdelete
      exact Or.inr hdelete
  | tick hle => exact Or.inr (Env.tick (w := w.holding clones) hle)
  | elsewhere version huid =>
      exact Or.inr (Env.elsewhere (w := w.holding clones) version huid)
  | agent => exact Or.inl rfl
  | cluster hambient => exact Or.inr (Env.cluster (w := w.holding clones) hambient)

end

/-! ## The refinement -/

section

variable {D : Deployment} {externalHost : String} {m m' : Machine} {w : World}
  {clones : String → Option (Option Nat)}

/-- A site is told by a world that holds the clones on its host. -/
def Tells (D : Deployment) (s : Site) (t : World) : Prop :=
  ∃ clones, t = s.world.holding clones ∧ Told D s.host clones

/-- An answer may also get lost. -/
theorem outcome_lose {σ ε β : Type} {transport : ε → Prop} {s s' : σ} {served : Except ε β × σ}
    {r : Except ε β} {err : ε} (h : Concur.Outcome transport s served r s')
    (herr : transport err) : Concur.Outcome transport s served (.error err) s' := by
  cases h with
  | answered | lost => exact .lost herr
  | dropped => exact .dropped herr

theorem requested_createClone {t snapshot : String}
    {r : (VolumeCall.createClone t snapshot D.name).Reply}
    (h : Told D m w.clones) (hreq : Requested D.toBackend (.createClone t snapshot D.name) m r m') :
    ∃ served clones', CloneServed w (D.setting.dataset t) served ∧
      Concur.Outcome (fun _ => True) w served r (w.holding clones') ∧ Told D m' clones' := by
  cases hreq with
  | answered hends =>
      obtain ⟨clones', hserved, htold⟩ := createClone_told h hends
      exact ⟨_, clones', hserved, .answered, htold⟩
  | dropped err => exact ⟨_, w.clones, .failed err, .dropped trivial, h⟩
  | lost err hends =>
      obtain ⟨clones', hserved, htold⟩ := createClone_told h hends
      exact ⟨_, clones', hserved, .lost trivial, htold⟩

theorem requested_deleteClone {t : String} {r : (VolumeCall.deleteClone t D.name).Reply}
    (h : Told D m w.clones) (hreq : Requested D.toBackend (.deleteClone t D.name) m r m') :
    ∃ served clones', DeleteCloneServed w (D.setting.dataset t) served ∧
      Concur.Outcome (fun _ => True) w served r (w.holding clones') ∧ Told D m' clones' := by
  cases hreq with
  | answered hends => exact deleteClone_told h hends
  | dropped err => exact ⟨_, w.clones, .failed err, .dropped trivial, h⟩
  | lost err hends =>
      obtain ⟨served, clones', hserved, hout, htold⟩ := deleteClone_told h hends
      exact ⟨served, clones', hserved, outcome_lose hout trivial, htold⟩

theorem told_exec {e : Call} {r : e.Reply} {s s' : Site} (hasks : Asks D.name e)
    (htold : Told D s.host clones) (hex : D.Exec e s r s') :
    ∃ t', Operator.Exec D.setting e (s.world.holding clones) r t' ∧ Tells D s' t' := by
  obtain ⟨w', m'⟩ := s'
  cases e with
  | client c =>
      obtain ⟨hclient, rfl⟩ := hex
      exact ⟨_, clientExec_holding clones hclient, clones, rfl, htold⟩
  | now =>
      obtain ⟨⟨rfl, rfl⟩, rfl⟩ := hex
      exact ⟨_, ⟨rfl, rfl⟩, clones, rfl, htold⟩
  | database c =>
      obtain ⟨hdatabase, rfl⟩ := hex
      cases c with
      | start | stop =>
          obtain ⟨cluster, rfl⟩ := hdatabase
          exact ⟨_, ⟨cluster, rfl⟩, clones, rfl, htold⟩
  | k8s c =>
      obtain ⟨⟨cluster, hk8s, rfl⟩, rfl⟩ := hex
      exact ⟨_, ⟨cluster, hk8s, rfl⟩, clones, rfl, htold⟩
  | volume c =>
      obtain ⟨hreq, rfl⟩ := hex
      cases c with
      | createClone t snapshot cloneName =>
          obtain rfl : cloneName = D.name := hasks
          have htold' : Told D s.host
              ((s.world.holding clones).record (.createClone s.world.run s.world.handling)).clones :=
            htold
          obtain ⟨served, clones', hserved, hout, htold'⟩ := requested_createClone htold' hreq
          exact ⟨_, ⟨served, hserved, hout⟩, clones', rfl, htold'⟩
      | deleteClone t cloneName =>
          obtain rfl : cloneName = D.name := hasks
          have htold' : Told D s.host (s.world.holding clones).clones := htold
          obtain ⟨served, clones', hserved, hout, htold'⟩ := requested_deleteClone htold' hreq
          exact ⟨_, ⟨served, _, hserved, hout, rfl⟩, clones', rfl, htold'⟩
      | takeSnapshot | deleteSnapshot | listSnapshots | listClones | gcSnapshots | resetDataset =>
          exact hasks.elim

/-- What is known of the clones after somebody was on the host: whom a clone was made for, if it
was there before. -/
def found (name : String) (m : Machine) (clones : String → Option (Option Nat)) :
    String → Option (Option Nat) :=
  fun d => if (m.store.filesystem (cloneOf name d)).isSome then some ((clones d).getD none) else none

theorem tracks_found (name : String) (m : Machine) (clones : String → Option (Option Nat)) :
    Tracks name m (found name m clones) := by
  intro d
  unfold found
  cases m.store.filesystem (cloneOf name d) with
  | none => exact iff_of_true rfl rfl
  | some f => exact iff_of_false nofun nofun

/-- Nobody but the operator makes a clone for a CR. -/
theorem env_found (S : Setting) (name : String) (m : Machine) (w : World)
    (clones : String → Option (Option Nat)) :
    Env S (w.holding clones) (w.holding (found name m clones)) := by
  refine .agent ?_
  intro d u hd
  unfold found at hd
  split at hd
  · rw [Option.some.injEq] at hd
    cases hclones : clones d with
    | none =>
        rw [hclones] at hd
        cases hd
    | some owner =>
        rw [hclones] at hd
        exact hclones.trans (congrArg some hd)
  · cases hd

theorem Deployment.refines (D : Deployment) (externalHost : String) :
    (D.system externalHost).Refines
      (Operator.system D.setting (reconcile (reconciler externalHost) D.name)) (Tells D) where
  init {s} hinit := by
    obtain ⟨hworld, hlegible⟩ := hinit
    refine ⟨s.world.holding (found D.name s.host fun _ => none),
      ⟨hworld.obj, hworld.versions, ?_, hworld.log⟩, _, rfl, tracks_found _ _ _, hlegible⟩
    intro d u hd
    have hd : found D.name s.host (fun _ => none) d = some (some u) := hd
    unfold found at hd
    split at hd
    · cases hd
    · cases hd
  exec {e r s s' t} htells hissues hex := by
    obtain ⟨clones, rfl, htold⟩ := htells
    obtain ⟨k, hreach⟩ := hissues
    exact told_exec (asks_by_name (S := D.setting) hreach ⟨k, rfl⟩) htold hex
  env {s s' t} htells henv := by
    obtain ⟨clones, rfl, htold⟩ := htells
    cases henv with
    | @world w' henv =>
        rcases env_holding clones henv with hsame | henv
        · exact ⟨_, .refl, clones, hsame.symm, htold⟩
        · exact ⟨_, .single henv, clones, rfl, htold⟩
    | @host m' hm =>
        exact ⟨_, .single (env_found D.setting D.name m' s.world clones), _, rfl,
          tracks_found D.name m' clones, hm⟩
  start {s s' t} htells hstart := by
    obtain ⟨clones, rfl, htold⟩ := htells
    obtain ⟨hworld, hhost⟩ := hstart
    refine ⟨s'.world.holding clones, ?_, clones, rfl, hhost ▸ htold⟩
    rw [show s'.world = _ from hworld]
    rfl
  main hmain := hmain

/-! ## Main result -/

/-- Whatever a deployment reaches, the operator reaches with an agent that does what is expected
of it, the clones being those on the host. -/
theorem deployed_refines {c : Config Call Call.Reply Site Outcome}
    (hc : (D.system externalHost).Reach c) :
    ∃ clones, (Operator.system D.setting (reconcile (reconciler externalHost) D.name)).Reach
      ⟨c.state.world.holding clones, c.running⟩ ∧ Tracks D.name c.state.host clones := by
  obtain ⟨t, hreach, clones, rfl, htold⟩ := (D.refines externalHost).reach hc
  exact ⟨clones, hreach, htold.tracks⟩

end

/-! ## A site on which nothing goes wrong -/

def demoDeployment : Deployment where
  name := "demo"
  ns := "default"
  keys := ["mysql"]
  ds key := ⟨"tank/" ++ key⟩
  token := "secret"
  clientToken := "secret"
  subdomain :=
    { nonempty := by decide
      chars := by
        have hall : "demo".toList.all (· ∈ nameChars) = true := by decide
        exact fun c hc => of_decide_eq_true (List.all_eq_true.mp hall c hc) }
  plain := by decide
  legible := by decide

/-- What the agent is asked when a branch is created. -/
def Creates : Call → Prop
  | .volume (.createClone dbType snapshot cloneName) =>
      Tame (.createClone dbType snapshot cloneName) ∧ dbType = "mysql"
  | .volume _ => False
  | .client _ | .now | .database _ | .k8s _ => True

instance : DecidablePred Creates
  | .volume (.createClone _ _ _) => inferInstanceAs (Decidable ((_ ∧ _ ∧ _) ∧ _))
  | .volume (.takeSnapshot ..) | .volume (.deleteSnapshot ..) | .volume (.deleteClone ..)
  | .volume (.listSnapshots _) | .volume (.listClones _) | .volume (.gcSnapshots ..)
  | .volume (.resetDataset _) => isFalse id
  | .client _ | .now | .database _ | .k8s _ => isTrue trivial

def demoServe : (e : Call) → Site → e.Reply × Site
  | .volume c, s =>
    let served := serveHosted demoDeployment.ds ⟨"mysql", onAgent c⟩ s.host
    let r := answer demoDeployment.keys c served.1
    (r, ⟨s.world.noted c r, served.2⟩)
  | .client c, s => ((serveClient c s.world).1, ⟨(serveClient c s.world).2, s.host⟩)
  | .now, s => (s.world.clock, ⟨{ s.world with reading := some s.world.clock }, s.host⟩)
  | .database c, s => ((serveDatabase c s.world).1, ⟨(serveDatabase c s.world).2, s.host⟩)
  | .k8s c, s => ((K8s.serve c s.world.cluster).1,
      ⟨{ s.world with cluster := (K8s.serve c s.world.cluster).2 }, s.host⟩)

theorem demoServe_exec (e : Call) (s : Site) (h : Creates e) :
    demoDeployment.Exec e s (demoServe e s).1 (demoServe e s).2 := by
  cases e with
  | client c => exact ⟨serve_exec (S := demoDeployment.setting) (.client c) s.world, rfl⟩
  | now => exact ⟨⟨rfl, rfl⟩, rfl⟩
  | database c => exact ⟨serve_exec (S := demoDeployment.setting) (.database c) s.world, rfl⟩
  | k8s c => exact ⟨serve_exec (S := demoDeployment.setting) (.k8s c) s.world, rfl⟩
  | volume c =>
      cases c with
      | createClone dbType snapshot cloneName =>
          obtain ⟨htame, rfl⟩ := h
          have hserving : Serving demoDeployment.toBackend "mysql" "mysql" :=
            ⟨rfl, by decide, by decide, by decide⟩
          exact ⟨requested_serve htame hserving s.host, rfl⟩
      | takeSnapshot | deleteSnapshot | deleteClone | listSnapshots | listClones | gcSnapshots
      | resetDataset => exact h.elim

/-- A CR was created, and there is a snapshot. -/
def demoSite : Site :=
  ⟨created demoDeployment.setting ⟨"base", 0, "mysql", ""⟩ .fresh, Machine.demoTaken⟩

/-- What a Reconcile leaves. -/
def Site.reconciled (s : Site) : Site := (demoReconcile.run demoServe ⟨s.world.started, s.host⟩).2

theorem creates_demoSite :
    demoReconcile.Within demoServe (fun e _ => Creates e) ⟨demoSite.world.started, demoSite.host⟩ ∧
    demoReconcile.Within demoServe (fun e _ => Creates e)
      ⟨demoSite.reconciled.world.started, demoSite.reconciled.host⟩ := by
  decide +kernel

theorem initial_demoSite : (demoDeployment.system "db.example.com").init ⟨.fresh, demoSite.host⟩ :=
  ⟨World.initial_fresh, by decide +kernel, by decide +kernel⟩

theorem deployed_refines_demo : ∃ clones, (system demoDeployment.setting demoReconcile).Reach
    ⟨demoSite.reconciled.reconciled.world.holding clones, none⟩ ∧
      Tracks "demo" demoSite.reconciled.reconciled.host clones := by
  have hcreated : (demoDeployment.system "db.example.com").Reach ⟨demoSite, none⟩ :=
    .step (.init initial_demoSite) (.env (.world (.create ⟨"base", 0, "mysql", ""⟩ [] rfl)))
  have hruns : ∀ s : Site, (demoDeployment.system "db.example.com").Reach ⟨s, none⟩ →
      demoReconcile.Within demoServe (fun e _ => Creates e) ⟨s.world.started, s.host⟩ →
      (demoDeployment.system "db.example.com").Reach ⟨s.reconciled, none⟩ := by
    intro s hs hwithin
    have hstart : (demoDeployment.system "db.example.com").start s ⟨s.world.started, s.host⟩ :=
      ⟨rfl, rfl⟩
    exact hs.run rfl hstart (.of_serve demoServe_exec hwithin)
  exact deployed_refines (hruns _ (hruns _ hcreated creates_demoSite.1) creates_demoSite.2)

end BranchDB.Operator
