/-
# `BranchDB.ZfsAgent.Isolation` — whose dataset a request touches

The agent has a default for requests that name no database type, and gives it to those that
name one it does not know as well, so a request for the wrong type succeeds on another
dataset (`reset_falls_back`).  A request is answered by the provider of the type it names
exactly when that type is configured, or no provider is called at all; of a request the
client sends for a type, that holds exactly when besides the type survives the query it is
put in (`dataset_isolated`).
-/
import BranchDB.Concur.Prog
import BranchDB.ZfsAgent.Client

namespace BranchDB.ZfsAgent

open Concur Net

/-! ## An agent whose calls are seen -/

/-- A call of the provider configured for `key`. -/
structure Invocation where
  key : String
  call : AgentCall
deriving DecidableEq, Repr

abbrev Invocation.Reply (i : Invocation) : Type := i.call.Reply

/-- The providers of the types `keys`, in the order of the map's iteration. -/
def providersOf (keys : List String) :
    List (String × AgentVolumeProvider (Prog Invocation Invocation.Reply)) :=
  keys.map fun key => (key, fun c => .perform (Invocation.mk key c))

def agent (keys : List String) (token : String) : Handler (Prog Invocation Invocation.Reply) :=
  newHandler (providersOf keys) token

/-- Only the provider of `t` is called, and none if `t` is not configured. -/
def Isolated {α : Type} (keys : List String) (t : String)
    (p : Prog Invocation Invocation.Reply α) : Prop :=
  ∀ i, p.Calls i → t ∈ keys ∧ i.key = t

/-! ## The provider picked -/

/-- The type whose provider answers a request for `dbType`. -/
def servedBy (keys : List String) (dbType : Bytes) : Option String :=
  match keys with
  | [] => none
  | d :: _ => some (if dbType = [] then d else (keys.find? (utf8 · = dbType)).getD d)

variable {keys : List String} {token : String} {r : Request} {t : String}

theorem provider_agent (q : Bytes) :
    (agent keys token).provider q =
      (keys.find? (utf8 · = q)).map fun key c => .perform (Invocation.mk key c) := by
  simp [agent, newHandler, Handler.provider, providersOf, List.find?_map, Function.comp_def]

theorem pickProvider_agent :
    pickProvider (agent keys token) r =
      (servedBy keys r.dbType).map fun key c => .perform (Invocation.mk key c) := by
  cases keys with
  | nil => simp [pickProvider, provider_agent, servedBy]
  | cons d ks =>
      have hdefault : (d :: ks).find? (utf8 · = utf8 d) = some d := by simp
      have htype : (agent (d :: ks) token).typeOf r =
          if r.dbType = [] then utf8 d else r.dbType := rfl
      by_cases hq : r.dbType = []
      · simp [pickProvider, provider_agent, htype, hq, servedBy]
      · rw [pickProvider, provider_agent, htype, if_neg hq]
        have hd : (agent (d :: ks) token).defaultType = d := rfl
        cases hfind : (d :: ks).find? (utf8 · = r.dbType) with
        | none => simp [servedBy, hq, hfind, provider_agent, hd]
        | some k => simp [servedBy, hq, hfind]

/-- When the provider that answers is that of `t`. -/
theorem servedBy_eq {q : Bytes} :
    servedBy keys q = some t ↔ (q ≠ [] ∧ utf8 t = q ∧ t ∈ keys) ∨
      (keys.head? = some t ∧ (q = [] ∨ ∀ k ∈ keys, utf8 k ≠ q)) := by
  cases keys with
  | nil => simp [servedBy]
  | cons d ks =>
      by_cases hq : q = []
      · simp [servedBy, hq]
      · cases hfind : (d :: ks).find? (utf8 · = q) with
        | none =>
            have hnone : ∀ k ∈ d :: ks, utf8 k ≠ q := by simpa using hfind
            have ht : utf8 t = q → t ∉ d :: ks := fun he hmem => hnone t hmem he
            simp only [servedBy, hq, if_false, hfind, Option.getD_none, Option.some.injEq]
            constructor
            · rintro rfl
              exact Or.inr ⟨rfl, Or.inr hnone⟩
            · rintro (⟨-, he, hmem⟩ | ⟨hd, -⟩)
              · exact absurd hmem (ht he)
              · exact Option.some.inj hd
        | some k =>
            have hmem := List.mem_of_find?_eq_some hfind
            have hk : utf8 k = q := by simpa using List.find?_some hfind
            simp only [servedBy, hq, if_false, hfind, Option.getD_some, Option.some.injEq]
            constructor
            · rintro rfl
              exact Or.inl ⟨hq, hk, hmem⟩
            · rintro (⟨-, he, -⟩ | ⟨-, he | he⟩)
              · exact utf8_inj.mp (hk.trans he.symm)
              · exact he.elim
              · exact absurd hk (he k hmem)

/-! ## The calls of a request -/

theorem calls_invoke {c : AgentCall} {respond : c.Reply → Response} {i : Invocation} :
    (invoke (agent keys token) r c respond).Calls i ↔
      c = i.call ∧ servedBy keys r.dbType = some i.key := by
  unfold invoke
  rw [pickProvider_agent]
  cases hserved : servedBy keys r.dbType with
  | none => simp [Prog.pure_eq_ret]
  | some key =>
      have hcalls : ((Prog.perform (Invocation.mk key c) : Prog Invocation Invocation.Reply _) >>=
          fun reply => pure (respond reply)).Calls i ↔ i = ⟨key, c⟩ := by
        simp [Prog.perform_bind, Prog.pure_eq_ret]
      rw [Option.map_some]
      refine hcalls.trans ⟨?_, ?_⟩
      · rintro rfl
        exact ⟨rfl, rfl⟩
      · rintro ⟨rfl, hkey⟩
        rw [Option.some.injEq] at hkey
        rw [hkey]

/-- The call a request on a route asks for, if its body will do. -/
def Route.call (r : Request) : Route → Option AgentCall
  | .createSnapshot =>
    let req := decode createSnapshotFields {} r.body
    if req.ok ∧ req.value.name ≠ "" then
      some (.takeSnapshot (utf8 req.value.name) req.value.overwrite)
    else none
  | .listSnapshots => some .listSnapshots
  | .deleteSnapshot name => some (.deleteSnapshot name)
  | .createClone =>
    let req := decode createCloneFields {} r.body
    if req.ok ∧ req.value.snapshot ≠ "" ∧ req.value.name ≠ "" then
      some (.createClone (utf8 req.value.snapshot) (utf8 req.value.name))
    else none
  | .listClones => some .listClones
  | .getClone name => some (.getClone name)
  | .deleteClone name => some (.deleteClone name)
  | .gc => some (.gcSnapshots (keepSnapshots r))
  | .reset => some .resetDataset

/-- The call a request asks for, if it has the token and a route. -/
def Request.call (token : String) (r : Request) : Option AgentCall :=
  if (agent [] token).authorized r then
    (route r.method (routePath r.url)).bind (Route.call r)
  else none

theorem calls_handle {x : Route} {i : Invocation} :
    (handle (agent keys token) r x).Calls i ↔
      x.call r = some i.call ∧ servedBy keys r.dbType = some i.key := by
  cases x with
  | createSnapshot =>
      simp only [handle, handleCreateSnapshot, Route.call]
      split
      · simp_all [Prog.pure_eq_ret]
      · split
        · simp_all [Prog.pure_eq_ret]
        · simp_all [calls_invoke]
  | createClone =>
      simp only [handle, handleCreateClone, Route.call]
      split
      · simp_all [Prog.pure_eq_ret]
      · split
        · simp_all [Prog.pure_eq_ret]
        · split
          · simp_all [Prog.pure_eq_ret]
          · simp_all [calls_invoke]
  | listSnapshots => simp [handle, handleListSnapshots, Route.call, calls_invoke]
  | deleteSnapshot name => simp [handle, handleDeleteSnapshot, Route.call, calls_invoke]
  | listClones => simp [handle, handleListClones, Route.call, calls_invoke]
  | getClone name => simp [handle, handleGetClone, Route.call, calls_invoke]
  | deleteClone name => simp [handle, handleDeleteClone, Route.call, calls_invoke]
  | gc => simp [handle, handleGC, Route.call, calls_invoke]
  | reset => simp [handle, handleReset, Route.call, calls_invoke]

/-- A request makes the one call it asks for, of the provider that serves its type. -/
theorem calls_serveHTTP {i : Invocation} :
    (serveHTTP (agent keys token) r).Calls i ↔
      r.call token = some i.call ∧ servedBy keys r.dbType = some i.key := by
  have hauth : (agent keys token).authorized r = (agent [] token).authorized r := rfl
  unfold serveHTTP Request.call
  rw [hauth]
  cases (agent [] token).authorized r with
  | false => simp [Prog.pure_eq_ret]
  | true =>
      cases hroute : route r.method (routePath r.url) with
      | none => simp [Prog.pure_eq_ret]
      | some x => simpa using calls_handle

/-- The request is answered by the provider of the type it names exactly when the agent has
one, or none at all, or the request asks for no call. -/
theorem isolated_serveHTTP_iff (ht : t ≠ "") (hr : r.dbType = utf8 t) :
    Isolated keys t (serveHTTP (agent keys token) r) ↔
      t ∈ keys ∨ keys = [] ∨ r.call token = none := by
  have hq : r.dbType ≠ [] := fun he => ht (utf8_eq_nil.mp (hr ▸ he))
  constructor
  · intro h
    cases hcall : r.call token with
    | none => exact Or.inr (Or.inr rfl)
    | some c =>
        cases hserved : servedBy keys r.dbType with
        | none =>
            cases keys with
            | nil => exact Or.inr (Or.inl rfl)
            | cons d ks => cases hserved
        | some key => exact Or.inl (h ⟨key, c⟩ (calls_serveHTTP.mpr ⟨hcall, hserved⟩)).1
  · rintro hok i hi
    obtain ⟨hcall, hserved⟩ := calls_serveHTTP.mp hi
    rcases hok with ht | rfl | hnone
    · have hself : servedBy keys r.dbType = some t := servedBy_eq.mpr (Or.inl ⟨hq, hr.symm, ht⟩)
      rw [hserved, Option.some.injEq] at hself
      exact ⟨ht, hself⟩
    · cases hserved
    · rw [hnone] at hcall
      cases hcall

/-! ## The calls of a client -/

/-- The operations of the client that change a dataset. -/
inductive Operation
  | deleteSnapshot (name : String)
  | deleteClone (cloneName : String)
  | gcSnapshots (keepCount : Int)
  | resetDataset
deriving DecidableEq, Repr

abbrev Operation.Reply : Operation → Type
  | .gcSnapshots _ => Except GoError (List String)
  | .deleteSnapshot _ | .deleteClone _ | .resetDataset => Except GoError Unit

def Operation.run {m : Type → Type} [Monad m] (p : Provider m) (dbType : String) :
    (op : Operation) → m op.Reply
  | .deleteSnapshot name => ZfsAgent.deleteSnapshot p dbType name
  | .deleteClone cloneName => ZfsAgent.deleteClone p dbType cloneName
  | .gcSnapshots keepCount => ZfsAgent.gcSnapshots p dbType keepCount
  | .resetDataset => ZfsAgent.resetDataset p dbType

/-- The request that arrives at the agent. -/
def arriving (clientToken : String) (method : Method) (url : String) (body : Body) :
    Option Request := do
  let authorization ← headerValue (utf8 ("Bearer " ++ clientToken))
  return { method, url := ← wire (utf8 url), authorization, body }

/-- The calls made on behalf of a client are those of the request that arrives. -/
theorem calls_send {α : Type} {h : Handler (Prog Invocation Invocation.Reply)}
    {clientToken url : String} {method : Method} {body : Body}
    {read : Response → Except GoError α} {i : Invocation} :
    (send (clientOf h clientToken) method url body read).Calls i ↔
      ∃ r, arriving clientToken method url body = some r ∧ (serveHTTP h r).Calls i := by
  unfold send arriving wire
  cases hparse : parse (utf8 url) with
  | none => cases headerValue (utf8 ("Bearer " ++ clientToken)) <;> simp [Prog.pure_eq_ret]
  | some u =>
      cases hheader : headerValue (utf8 ("Bearer " ++ clientToken)) with
      | none => simp [clientOf, deliver, hheader, Prog.pure_eq_ret]
      | some authorization =>
          cases hline : parseRequestURI u.requestURI with
          | none => simp [clientOf, deliver, hheader, hline, Prog.pure_eq_ret]
          | some v =>
              have hsend : ((serveHTTP h ⟨method, v, authorization, body⟩ >>=
                  fun resp => .ret (Except.ok resp)) >>=
                    fun answer => .ret (answered read answer)).Calls i ↔
                  (serveHTTP h ⟨method, v, authorization, body⟩).Calls i :=
                Prog.calls_map.trans Prog.calls_map
              simpa [clientOf, deliver, hheader, hline, Prog.pure_eq_ret] using hsend

def Operation.method : Operation → Method
  | .deleteSnapshot _ | .deleteClone _ => .delete
  | .gcSnapshots _ | .resetDataset => .post

def Operation.path : Operation → String
  | .deleteSnapshot name => "/snapshots/" ++ name
  | .deleteClone cloneName => "/clones/" ++ cloneName
  | .gcSnapshots _ => "/gc"
  | .resetDataset => "/reset"

def Operation.body : Operation → Body
  | .gcSnapshots keepCount => some (.object [("keep_snapshots", .number (toString keepCount))])
  | .deleteSnapshot _ | .deleteClone _ | .resetDataset => none

/-- The request of an operation for `dbType`, as it arrives at the agent. -/
def Operation.request (clientToken dbType : String) (op : Operation) : Option Request :=
  arriving clientToken op.method (op.path ++ dbTypeQuery dbType) op.body

theorem calls_operation {clientToken dbType : String} {op : Operation} {i : Invocation} :
    (op.run (clientOf (agent keys token) clientToken) dbType).Calls i ↔
      ∃ r, op.request clientToken dbType = some r ∧ r.call token = some i.call ∧
        servedBy keys r.dbType = some i.key := by
  cases op with
  | deleteSnapshot | deleteClone | gcSnapshots | resetDataset =>
      exact calls_send.trans (exists_congr fun r => and_congr_right fun _ => calls_serveHTTP)

/-- An operation for `t` touches no other dataset exactly when what arrives names `t` and the
agent has it, or what arrives names no type the agent has and `t` is the default. -/
theorem isolated_operation_iff {clientToken : String} {op : Operation} (ht : t ≠ "") :
    Isolated keys t (op.run (clientOf (agent keys token) clientToken) t) ↔
      ∀ r c, op.request clientToken t = some r → r.call token = some c →
        keys = [] ∨ (r.dbType = utf8 t ∧ t ∈ keys) ∨
          (keys.head? = some t ∧ (r.dbType = [] ∨ ∀ k ∈ keys, utf8 k ≠ r.dbType)) := by
  constructor
  · intro h r c hr hc
    cases hserved : servedBy keys r.dbType with
    | none =>
        cases keys with
        | nil => exact Or.inl rfl
        | cons d ks => cases hserved
    | some key =>
        have hkey := (h ⟨key, c⟩ (calls_operation.mpr ⟨r, hr, hc, hserved⟩)).2
        rcases servedBy_eq.mp ((show key = t from hkey) ▸ hserved) with ⟨-, hq, hmem⟩ | hdefault
        · exact Or.inr (Or.inl ⟨hq.symm, hmem⟩)
        · exact Or.inr (Or.inr hdefault)
  · intro hok i hi
    obtain ⟨r, hr, hc, hserved⟩ := calls_operation.mp hi
    rcases hok r i.call hr hc with rfl | ⟨hq, hmem⟩ | ⟨hhead, hdefault⟩
    · cases hserved
    · have hne : r.dbType ≠ [] := fun he => ht (utf8_eq_nil.mp (hq ▸ he))
      have hself := servedBy_eq.mpr (Or.inl ⟨hne, hq.symm, hmem⟩)
      rw [hserved, Option.some.injEq] at hself
      exact ⟨hmem, hself⟩
    · have hself := servedBy_eq.mpr (Or.inr ⟨hhead, hdefault⟩)
      rw [hserved, Option.some.injEq] at hself
      exact ⟨List.mem_of_head? hhead, hself⟩

/-- The path is a path, whatever it is that is named in it. -/
def Operation.Whole (op : Operation) : Prop :=
  '?'.toUInt8 ∉ utf8 op.path ∧ '#'.toUInt8 ∉ utf8 op.path

instance (op : Operation) : Decidable op.Whole :=
  inferInstanceAs (Decidable (_ ∧ _))

/-- A type whose bytes mean nothing in a query arrives as it is. -/
theorem dbType_request {clientToken : String} {op : Operation} (ht : t ≠ "")
    (hplain : Plain (utf8 t)) (hop : op.Whole) (h : op.request clientToken t = some r) :
    r.dbType = utf8 t := by
  obtain ⟨authorization, -, h⟩ := Option.bind_eq_some_iff.mp h
  obtain ⟨u, hu, h⟩ := Option.bind_eq_some_iff.mp h
  cases h
  obtain ⟨hquery, hfragment⟩ := hop
  have hurl : utf8 (op.path ++ dbTypeQuery t) =
      utf8 op.path ++ '?'.toUInt8 :: (utf8 "db_type" ++ '='.toUInt8 :: utf8 t) := by
    rw [dbTypeQuery, if_neg ht, utf8_append, utf8_append]
    rfl
  have hwhole : '#'.toUInt8 ∉ utf8 (op.path ++ dbTypeQuery t) := by
    rw [hurl]
    intro hmem
    rcases List.mem_append.mp hmem with hmem | hmem
    · exact hfragment hmem
    · rcases List.mem_append.mp (show _ ∈ utf8 "?db_type=" ++ utf8 t from hmem) with hmem | hmem
      · exact absurd hmem (by decide)
      · exact hplain _ (by decide) hmem
  have hraw : u.rawQuery = utf8 "db_type" ++ '='.toUInt8 :: utf8 t := by
    rw [wire_rawQuery hu, cut_eq_self hwhole, hurl, cut_append hquery]
  show get (parseQuery u.rawQuery) (utf8 "db_type") = utf8 t
  rw [hraw]
  exact get_parseQuery_plain (by decide) (by decide) hplain

/-! ## Main results -/

/-- A request for the type `t` calls the provider of `t` only, exactly when the agent has `t`,
or no providers, or the request asks for nothing.  An operation of the client for `t` does,
exactly when what arrives asks for nothing, or names `t` and the agent has it, or names no
type the agent has and `t` is the default; if nothing in `t` means something in a query, that
is exactly when the agent has `t`, or no providers, or nothing is asked of it. -/
theorem dataset_isolated (keys : List String) (token : String) {t : String} (ht : t ≠ "") :
    (∀ r : Request, r.dbType = utf8 t →
      (Isolated keys t (serveHTTP (agent keys token) r) ↔
        t ∈ keys ∨ keys = [] ∨ r.call token = none)) ∧
    ∀ (op : Operation) (clientToken : String),
      (Isolated keys t (op.run (clientOf (agent keys token) clientToken) t) ↔
        ∀ r c, op.request clientToken t = some r → r.call token = some c →
          keys = [] ∨ (r.dbType = utf8 t ∧ t ∈ keys) ∨
            (keys.head? = some t ∧ (r.dbType = [] ∨ ∀ k ∈ keys, utf8 k ≠ r.dbType))) ∧
      (Plain (utf8 t) → op.Whole →
        (Isolated keys t (op.run (clientOf (agent keys token) clientToken) t) ↔
          t ∈ keys ∨ keys = [] ∨
            ∀ r, op.request clientToken t = some r → r.call token = none)) := by
  refine ⟨fun r hr => isolated_serveHTTP_iff ht hr, fun op clientToken =>
    ⟨isolated_operation_iff ht, fun hplain hop => ?_⟩⟩
  have hcalls : Isolated keys t (op.run (clientOf (agent keys token) clientToken) t) ↔
      ∀ r, op.request clientToken t = some r →
        Isolated keys t (serveHTTP (agent keys token) r) := by
    simp only [Isolated, calls_operation, calls_serveHTTP]
    exact ⟨fun h r hr i hi => h i ⟨r, hr, hi⟩, fun h i ⟨r, hr, hi⟩ => h r hr i hi⟩
  have hnamed : ∀ r, op.request clientToken t = some r →
      (Isolated keys t (serveHTTP (agent keys token) r) ↔
        t ∈ keys ∨ keys = [] ∨ r.call token = none) :=
    fun r hr => isolated_serveHTTP_iff ht (dbType_request ht hplain hop hr)
  rw [hcalls]
  constructor
  · intro h
    by_cases hmem : t ∈ keys
    · exact Or.inl hmem
    · by_cases hkeys : keys = []
      · exact Or.inr (Or.inl hkeys)
      · refine Or.inr (Or.inr fun r hr => ?_)
        exact (((hnamed r hr).mp (h r hr)).resolve_left hmem).resolve_left hkeys
  · rintro (hmem | hkeys | hnone) r hr
    · exact (hnamed r hr).mpr (Or.inl hmem)
    · exact (hnamed r hr).mpr (Or.inr (Or.inl hkeys))
    · exact (hnamed r hr).mpr (Or.inr (Or.inr (hnone r hr)))

/-- An agent with MySQL and PostgreSQL, and a client that has its token. -/
abbrev demoClient (keys : List String) : Provider (Prog Invocation Invocation.Reply) :=
  clientOf (agent keys "secret") "secret"

theorem dataset_isolated_demo :
    Isolated ["mysql", "postgres"] "postgres"
      (Operation.resetDataset.run (demoClient ["mysql", "postgres"]) "postgres") :=
  (((dataset_isolated ["mysql", "postgres"] "secret" (by decide)).2 .resetDataset "secret").2
    (by decide) (by decide)).mpr (Or.inl (by decide))

/-- Asked to reset a dataset it does not have, the agent resets its default. -/
theorem reset_falls_back :
    ¬ Isolated ["mysql"] "postgres"
      (Operation.resetDataset.run (demoClient ["mysql"]) "postgres") := by
  intro h
  have hcalls : (Operation.resetDataset.run (demoClient ["mysql"]) "postgres").Calls
      ⟨"mysql", .resetDataset⟩ :=
    calls_operation.mpr ⟨_, rfl, by decide, by decide⟩
  exact absurd (h _ hcalls).2 (by decide)

end BranchDB.ZfsAgent
