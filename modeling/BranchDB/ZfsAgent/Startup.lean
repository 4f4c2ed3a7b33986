/-
# `BranchDB.ZfsAgent.Startup` — the agent that an environment starts

    environment ─▶ loadConfig ─▶ buildProviders ─▶ NewHandler ─▶ requests

`cmd/zfsagent/main.go`, up to the server that gets the handler.  Where `ZFSAGENT_DATASETS` gives
no dataset there is that of `ZFSAGENT_POOL` and `ZFSAGENT_DATASET`, so an agent starts exactly if
it has a token (`starts_iff`).  Then a request is the one call that it asks for, of a provider of
one of the datasets, or it is none, and no request panics (`started_serves`).
-/
import BranchDB.ZfsAgent.Datasets
import BranchDB.ZfsAgent.Exact

namespace BranchDB.ZfsAgent

open Concur Net Zfs

/-! ## Starting -/

/-- `os.Getenv`; a variable that is not set is empty. -/
abbrev Environment := String → String

def envOr (env : Environment) (key dflt : String) : String :=
  if env key ≠ "" then env key else dflt

structure Config where
  addr : String
  token : String
  datasets : Datasets

def loadConfig (env : Environment) : Config :=
  let datasets := parseDatasets (env "ZFSAGENT_DATASETS")
  { addr := envOr env "ZFSAGENT_ADDR" ":9090"
    token := env "ZFSAGENT_TOKEN"
    datasets :=
      -- one dataset, as before there were several
      if datasets = ∅ then
        Finmap.singleton "mysql"
          (envOr env "ZFSAGENT_POOL" "tank" ++ "/" ++ envOr env "ZFSAGENT_DATASET" "mysql")
      else datasets }

/-- An order in which the iteration over a map may take its entries. -/
structure Enumerates (order : List (String × String)) (m : Datasets) : Prop where
  nodup : (order.map (·.1)).Nodup
  mem_iff : ∀ t d, (t, d) ∈ order ↔ m.lookup t = some d

def buildProviders (order : List (String × String)) :
    List (String × AgentVolumeProvider (Prog OsCall OsCall.Reply)) :=
  order.map fun e => (e.1, volumeProvider ⟨e.2⟩)

/-- The handler that is served, the datasets being taken in this order. -/
def run (env : Environment) (order : List (String × String)) :
    Except GoError (Handler (Prog OsCall OsCall.Reply)) :=
  let cfg := loadConfig env
  if cfg.token = "" then .error (errorf "ZFSAGENT_TOKEN is required")
  else
    let providers := buildProviders order
    if providers.length = 0 then .error (errorf "no datasets configured")
    else .ok (newHandler providers cfg.token)

variable {env : Environment} {order : List (String × String)} {ds : Datasets} {token : String}
  {r : Request}

theorem exists_enumerates (ds : Datasets) : ∃ order, Enumerates order ds := by
  induction ds using Finmap.induction_on with
  | H a =>
      refine ⟨a.entries.map fun e => (e.1, e.2), ?_, fun t d => ?_⟩
      · rw [List.map_map]
        exact a.nodupKeys
      · rw [Finmap.lookup_toFinmap, ← Option.mem_def, AList.mem_lookup_iff, List.mem_map]
        constructor
        · rintro ⟨⟨t', d'⟩, hmem, heq⟩
          cases heq
          exact hmem
        · intro hmem
          exact ⟨⟨t, d⟩, hmem, rfl⟩

theorem datasets_ne_empty (env : Environment) : (loadConfig env).datasets ≠ ∅ := by
  show (if parseDatasets (env "ZFSAGENT_DATASETS") = ∅ then _ else _) ≠ ∅
  split
  · intro hempty
    have hlookup := congrArg (Finmap.lookup "mysql") hempty
    rw [Finmap.lookup_singleton_eq, Finmap.lookup_empty] at hlookup
    cases hlookup
  · next hne => exact hne

/-- There is a first dataset. -/
theorem Enumerates.ne_nil (h : Enumerates order ds) (hne : ds ≠ ∅) : order ≠ [] := by
  rintro rfl
  refine hne (Finmap.ext_lookup fun t => ?_)
  rw [Finmap.lookup_empty, Option.eq_none_iff_forall_ne_some]
  intro d hd
  exact absurd ((h.mem_iff t d).mpr hd) List.not_mem_nil

/-- There being datasets, only the token is missed. -/
theorem run_eq (henum : Enumerates order (loadConfig env).datasets) : run env order =
    if env "ZFSAGENT_TOKEN" = "" then .error (errorf "ZFSAGENT_TOKEN is required")
    else .ok (newHandler (buildProviders order) (env "ZFSAGENT_TOKEN")) := by
  have hsome : (buildProviders order).length ≠ 0 := by
    rw [buildProviders, List.length_map]
    exact fun h => henum.ne_nil (datasets_ne_empty env) (List.length_eq_zero_iff.mp h)
  refine if_congr Iff.rfl rfl ?_
  exact if_neg hsome

/-! ## Serving -/

/-- The dataset of the type asked for; of the first one if none is, or if it has no dataset. -/
inductive Picked (order : List (String × String)) (q : Bytes) : String → Prop
  | asked {t d : String} : (t, d) ∈ order → utf8 t = q → q ≠ [] → Picked order q d
  | first {t d : String} {rest : List (String × String)} : order = (t, d) :: rest →
      (q = [] ∨ ∀ e ∈ order, utf8 e.1 ≠ q) → Picked order q d

theorem provider_started (q : Bytes) :
    (newHandler (buildProviders order) token).provider q =
      (order.find? (utf8 ·.1 = q)).map fun e => volumeProvider ⟨e.2⟩ := by
  simp [newHandler, Handler.provider, buildProviders, List.find?_map, Function.comp_def]

theorem pickProvider_started (hne : order ≠ []) : ∃ d, Picked order r.dbType d ∧
    pickProvider (newHandler (buildProviders order) token) r = some (volumeProvider ⟨d⟩) := by
  obtain ⟨⟨t, d⟩, rest, rfl⟩ := List.exists_cons_of_ne_nil hne
  have hfirst : (newHandler (buildProviders ((t, d) :: rest)) token).provider (utf8 t) =
      some (volumeProvider ⟨d⟩) := by
    rw [provider_started]
    simp
  unfold pickProvider Handler.typeOf
  by_cases hq : r.dbType = []
  · refine ⟨d, .first rfl (Or.inl hq), ?_⟩
    have hdefault : (newHandler (buildProviders ((t, d) :: rest)) token).defaultType = t := rfl
    rw [if_pos hq, hdefault, hfirst]
  · rw [if_neg hq, provider_started]
    cases hfind : ((t, d) :: rest).find? (utf8 ·.1 = r.dbType) with
    | some e =>
        have htype := List.find?_some hfind
        rw [decide_eq_true_iff] at htype
        exact ⟨e.2, .asked (List.mem_of_find?_eq_some hfind) htype hq, rfl⟩
    | none =>
        refine ⟨d, .first rfl (Or.inr fun e he htype => ?_), hfirst⟩
        exact List.find?_eq_none.mp hfind e he (decide_eq_true htype)

/-- What a handler does: it answers by itself, or makes the call that the request asks for. -/
inductive Handles {m : Type → Type} [Monad m] (h : Handler m) (r : Request) (x : Route) :
    m Response → Prop
  | answers {resp : Response} : x.call r = none → resp ≠ recovered → Handles h r x (pure resp)
  | invokes {c : AgentCall} {respond : c.Reply → Response} : x.call r = some c →
      (∀ reply, respond reply ≠ recovered) → Handles h r x (invoke h r c respond)

theorem writeJSON_ne (status : Nat) (v : Json) : writeJSON status v ≠ recovered := by
  intro h
  cases congrArg Response.body h

theorem empty_ne {status : Nat} (h : status ≠ 500) : Response.mk status none ≠ recovered := by
  intro hsame
  exact h (congrArg Response.status hsame)

theorem writeFailure_ne (err : GoError) : writeFailure err ≠ recovered := by
  unfold writeFailure
  split
  · exact writeJSON_ne _ _
  · exact writeJSON_ne _ _

theorem handles {m : Type → Type} [Monad m] (h : Handler m) (r : Request) (x : Route) :
    Handles h r x (handle h r x) := by
  cases x with
  | createSnapshot =>
      unfold handle handleCreateSnapshot
      by_cases hok : (decode createSnapshotFields {} r.body).ok = true
      · by_cases hname : (decode createSnapshotFields {} r.body).value.name = ""
        · simp only [hok, hname, Bool.not_true, Bool.false_eq_true, if_false, if_true]
          exact .answers (by simp [Route.call, hname]) (writeJSON_ne _ _)
        · simp only [hok, hname, Bool.not_true, Bool.false_eq_true, if_false]
          refine .invokes (by simp [Route.call, hok, hname]) ?_
          rintro (err | ⟨⟩)
          · exact writeJSON_ne _ _
          · exact empty_ne (by decide)
      · simp only [hok, Bool.not_false, if_true]
        exact .answers (by simp [Route.call, hok]) (writeJSON_ne _ _)
  | createClone =>
      unfold handle handleCreateClone
      by_cases hok : (decode createCloneFields {} r.body).ok = true
      · by_cases hsnapshot : (decode createCloneFields {} r.body).value.snapshot = ""
        · simp only [hok, hsnapshot, Bool.not_true, Bool.false_eq_true, if_false, if_true]
          exact .answers (by simp [Route.call, hsnapshot]) (writeJSON_ne _ _)
        · by_cases hname : (decode createCloneFields {} r.body).value.name = ""
          · simp only [hok, hsnapshot, hname, Bool.not_true, Bool.false_eq_true, if_false, if_true]
            exact .answers (by simp [Route.call, hname]) (writeJSON_ne _ _)
          · simp only [hok, hsnapshot, hname, Bool.not_true, Bool.false_eq_true, if_false]
            refine .invokes (by simp [Route.call, hok, hsnapshot, hname]) ?_
            rintro (err | vol)
            · exact writeJSON_ne _ _
            · exact writeJSON_ne _ _
      · simp only [hok, Bool.not_false, if_true]
        exact .answers (by simp [Route.call, hok]) (writeJSON_ne _ _)
  | listSnapshots | listClones | gc | reset =>
      refine .invokes rfl ?_
      rintro (err | l)
      · exact writeJSON_ne _ _
      · exact writeJSON_ne _ _
  | deleteSnapshot name | deleteClone name =>
      refine .invokes rfl ?_
      rintro (err | ⟨⟩)
      · exact writeFailure_ne err
      · exact empty_ne (by decide)
  | getClone name =>
      refine .invokes rfl ?_
      rintro (err | vol)
      · exact writeFailure_ne err
      · exact writeJSON_ne _ _

variable {x : Route} {c : AgentCall} {m m' : Machine} {resp : Response}
  {tr : List (Event OsCall OsCall.Reply Machine)}

/-- The one run that a call which is asked for is. -/
def Performed (order : List (String × String)) (q : Bytes) (c : AgentCall) (m : Machine)
    (tr : List (Event OsCall OsCall.Reply Machine)) (m' : Machine) : Prop :=
  ∃ d reply, Picked order q d ∧ Machine.Runs (volumeProvider ⟨d⟩ c) m tr reply m'

theorem runs_answer {answer : Response} (hanswer : answer ≠ recovered)
    (h : Machine.Runs (pure answer) m tr resp m') : resp ≠ recovered ∧ m' = m := by
  obtain ⟨-, rfl, rfl⟩ := Prog.ends_ret.mp h
  exact ⟨hanswer, rfl⟩

theorem runs_invoke (hne : order ≠ []) {respond : c.Reply → Response}
    (h : Machine.Runs (invoke (newHandler (buildProviders order) token) r c respond) m tr resp m') :
    (∃ reply, resp = respond reply) ∧ Performed order r.dbType c m tr m' := by
  have hpick : ∃ d, Picked order r.dbType d ∧
      pickProvider (newHandler (buildProviders order) token) r = some (volumeProvider ⟨d⟩) :=
    pickProvider_started hne
  obtain ⟨d, hpicked, hprovider⟩ := hpick
  unfold invoke at h
  rw [hprovider] at h
  obtain ⟨reply, m₁, first, rest, hcall, hrest, rfl⟩ := Prog.ends_bind.mp h
  obtain ⟨rfl, rfl, rfl⟩ := Prog.ends_ret.mp hrest
  rw [List.append_nil]
  exact ⟨⟨reply, rfl⟩, d, reply, hpicked, hcall⟩

theorem runs_handles (hne : order ≠ []) {prog : Os Response}
    (hdoes : Handles (newHandler (buildProviders order) token) r x prog)
    (h : Machine.Runs prog m tr resp m') :
    resp ≠ recovered ∧ (x.call r = none → m' = m) ∧
      ∀ c, x.call r = some c → Performed order r.dbType c m tr m' := by
  cases hdoes with
  | answers hcall hresp =>
      obtain ⟨hanswered, hsame⟩ := runs_answer hresp h
      refine ⟨hanswered, fun _ => hsame, ?_⟩
      rw [hcall]
      exact nofun
  | invokes hcall hresp =>
      obtain ⟨⟨reply, rfl⟩, hasked⟩ := runs_invoke hne h
      rw [hcall]
      refine ⟨hresp reply, nofun, ?_⟩
      rintro c ⟨⟩
      exact hasked

/-! ## Main result -/

/-- An agent starts exactly if it is given a token, whatever else the environment says. -/
theorem starts_iff : (∃ order h, Enumerates order (loadConfig env).datasets ∧
    run env order = .ok h) ↔ env "ZFSAGENT_TOKEN" ≠ "" := by
  constructor
  · rintro ⟨order, h, henum, hrun⟩ htoken
    rw [run_eq henum, if_pos htoken] at hrun
    cases hrun
  · intro htoken
    obtain ⟨order, henum⟩ := exists_enumerates (loadConfig env).datasets
    exact ⟨order, _, henum, by rw [run_eq henum, if_neg htoken]⟩

variable {h : Handler (Prog OsCall OsCall.Reply)}

/-- Of an agent that was started no request panics; one that asks for no call leaves the host as
it was, and one that does is that call, of the provider of a dataset that the environment gives. -/
theorem started_serves (henum : Enumerates order (loadConfig env).datasets)
    (hrun : run env order = .ok h)
    (hends : Machine.Runs (serveHTTP h r) m tr resp m') :
    resp ≠ recovered ∧ (r.call (env "ZFSAGENT_TOKEN") = none → m' = m) ∧
      ∀ c, r.call (env "ZFSAGENT_TOKEN") = some c → Performed order r.dbType c m tr m' := by
  have hne := henum.ne_nil (datasets_ne_empty env)
  rw [run_eq henum] at hrun
  split at hrun
  · cases hrun
  obtain rfl := Except.ok.inj hrun
  obtain ⟨token, htoken⟩ : ∃ token, token = env "ZFSAGENT_TOKEN" := ⟨_, rfl⟩
  rw [← htoken] at hends ⊢
  have hauthorized : (newHandler (buildProviders order) token).authorized r =
      (agent [] token).authorized r := rfl
  unfold serveHTTP at hends
  unfold Request.call
  rw [hauthorized] at hends
  cases hauth : (agent [] token).authorized r with
  | false =>
      rw [hauth] at hends
      obtain ⟨hresp, hsame⟩ := runs_answer (writeJSON_ne _ _) hends
      exact ⟨hresp, fun _ => hsame, nofun⟩
  | true =>
      rw [hauth] at hends
      cases hroute : route r.method (routePath r.url) with
      | none =>
          rw [hroute] at hends
          have hnot : notRouted (routePath r.url) ≠ recovered := by
            unfold notRouted
            split
            · nofun
            · nofun
          obtain ⟨hresp, hsame⟩ := runs_answer hnot hends
          exact ⟨hresp, fun _ => hsame, nofun⟩
      | some x =>
          rw [hroute] at hends
          exact runs_handles hne (handles _ r x) hends

/-- An environment that gives nothing but a token. -/
def demoEnv : Environment := fun key => if key = "ZFSAGENT_TOKEN" then "secret" else ""

theorem enumerates_demo :
    Enumerates [("mysql", "tank/mysql")] (loadConfig demoEnv).datasets where
  nodup := by decide
  mem_iff t d := by
    have hdatasets : (loadConfig demoEnv).datasets = Finmap.singleton "mysql" "tank/mysql" := by
      decide +kernel
    rw [hdatasets]
    by_cases hmysql : t = "mysql"
    · subst hmysql
      rw [Finmap.lookup_singleton_eq]
      simp [eq_comm]
    · have habsent : t ∉ (Finmap.singleton "mysql" "tank/mysql" : Datasets) := by
        rw [Finmap.mem_singleton]
        exact hmysql
      rw [Finmap.lookup_eq_none.mpr habsent]
      simp [hmysql]

/-- A request to delete a snapshot of PostgreSQL. -/
def demoDeletion : Request where
  method := .delete
  url := ⟨utf8 "/snapshots/v1", [], utf8 "db_type=postgres", false⟩
  authorization := utf8 "Bearer secret"

/-- There is only MySQL to delete it of. -/
theorem started_serves_demo : ∃ tr m', Performed [("mysql", "tank/mysql")] (utf8 "postgres")
    (.deleteSnapshot (utf8 "v1")) Machine.demoTaken tr m' := by
  obtain ⟨h, hrun⟩ : ∃ h, run demoEnv [("mysql", "tank/mysql")] = .ok h :=
    ⟨_, run_eq enumerates_demo⟩
  obtain ⟨tr, hends⟩ := Machine.serve_ends Machine.quiet (serveHTTP h demoDeletion)
    Machine.demoTaken
  have htype : demoDeletion.dbType = utf8 "postgres" := by decide
  have hcall : demoDeletion.call (demoEnv "ZFSAGENT_TOKEN") =
      some (.deleteSnapshot (utf8 "v1")) := by decide
  have hperformed := (started_serves enumerates_demo hrun hends).2.2 _ hcall
  rw [htype] at hperformed
  exact ⟨tr, _, hperformed⟩

end BranchDB.ZfsAgent
