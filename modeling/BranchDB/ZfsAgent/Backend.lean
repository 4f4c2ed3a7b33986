/-
# `BranchDB.ZfsAgent.Backend` — an agent, and a client of it

    VolumeCall ─▶ request ─▶ AgentCall ─▶ host

Types and names may be any strings, and change on their way.  What may not change is the method:
what is asked of a provider because of a call is what the call is there for (`calls_client`).
So what the methods of its kind preserve on the host, a call preserves, whether it is answered or
its request or answer gets lost (`Requested.preserved`).
-/
import BranchDB.ZfsAgent.CloneCalls
import BranchDB.ZfsAgent.Default
import BranchDB.ZfsAgent.Tenants

namespace BranchDB.ZfsAgent

open Concur Net Zfs

/-- An agent for the types `keys`, in the order of the map's iteration, and what a client of it
is configured with. -/
structure Backend where
  keys : List String
  ds : String → AgentProvider
  token : String
  clientToken : String

namespace Backend

variable (B : Backend)

/-- The client, as it is given to the operator and the API server. -/
def client : VolumeProvider (Prog Invocation Invocation.Reply) :=
  remote (clientOf (agent B.keys B.token) B.clientToken)

end Backend

/-- What the client makes of a request that it gets no answer to. -/
def unanswered : (c : VolumeCall) → GoError → c.Reply
  | .takeSnapshot .., err | .deleteSnapshot .., err | .createClone .., err | .deleteClone .., err
  | .listSnapshots _, err | .listClones _, err | .gcSnapshots .., err | .resetDataset _, err =>
      .error (err.wrap "zfsagent: do request")

/-- A call of the client: it runs on the host, or gets lost on the way there or back. -/
inductive Requested (B : Backend) (c : VolumeCall) (m : Machine) : c.Reply → Machine → Prop
  | answered {tr : List (Concur.Event Invocation Invocation.Reply Machine)} {r : c.Reply}
      {m' : Machine} : (B.client c).Ends (hosted B.ds) m tr r m' → Requested B c m r m'
  | dropped (err : GoError) : Requested B c m (unanswered c err) m
  | lost {tr : List (Concur.Event Invocation Invocation.Reply Machine)} {r : c.Reply}
      {m' : Machine} (err : GoError) : (B.client c).Ends (hosted B.ds) m tr r m' →
      Requested B c m (unanswered c err) m'

/-! ## What a call is there for -/

/-- The methods of the provider that a call of the client may lead to.  The names of a body arrive
as they are, those of a path need not. -/
def AgentCall.Serves : AgentCall → VolumeCall → Prop
  | .takeSnapshot name overwrite, .takeSnapshot _ name' overwrite' =>
    name = utf8 name' ∧ overwrite = overwrite'
  | .createClone snapshot cloneName, .createClone _ snapshot' cloneName' =>
    snapshot = utf8 snapshot' ∧ cloneName = utf8 cloneName'
  | .deleteSnapshot _, .deleteSnapshot .. | .deleteClone _, .deleteClone ..
  | .listSnapshots, .listSnapshots _ | .listClones, .listClones _
  | .gcSnapshots _, .gcSnapshots .. | .resetDataset, .resetDataset _ => True
  | _, _ => False

section

variable {token clientToken t : String} {method : Method} {path : String} {body : Body}
  {r : Request} {a : AgentCall}

/-- What is asked on a path in which nothing is named. -/
theorem call_of_query {x : Route} (hr : arriving clientToken method (path ++ dbTypeQuery t) body =
    some r) (hcall : r.call token = some a)
    (hpath : (utf8 path).head? = some '/'.toUInt8 ∧ (utf8 path).all pathSafe = true)
    (hroute : route method (utf8 path) = some x) : x.call r = some a ∧ r.body = body := by
  obtain ⟨authorization, -, hmade⟩ := Option.bind_eq_some_iff.mp hr
  obtain ⟨u, hu, hmade⟩ := Option.bind_eq_some_iff.mp hmade
  cases hmade
  have hslash : ∃ rest, utf8 path = '/'.toUInt8 :: rest :=
    ⟨_, List.eq_cons_of_mem_head? (Option.mem_def.mpr hpath.1)⟩
  have hrouted : route method (routePath u) = some x :=
    (routePath_query hslash hpath.2 hu).symm ▸ hroute
  unfold Request.call at hcall
  split at hcall
  · obtain ⟨y, hy, hcall⟩ := Option.bind_eq_some_iff.mp hcall
    obtain rfl : x = y := Option.some.inj (hrouted.symm.trans hy)
    exact ⟨hcall, rfl⟩
  · cases hcall

/-- What is asked on a path that ends in a name. -/
theorem call_of_named {pre name : String} (resource : Bytes)
    (hresource : resource ∈ [utf8 "snapshots", utf8 "clones"]) (hpre : utf8 pre = below resource [])
    (hr : arriving clientToken .delete (pre ++ name ++ dbTypeQuery t) none = some r)
    (hcall : r.call token = some a) :
    ∃ s, a = if resource = utf8 "snapshots" then .deleteSnapshot s else .deleteClone s := by
  have hsafe : ∀ resource ∈ [utf8 "snapshots", utf8 "clones"],
      '/'.toUInt8 ∉ resource ∧ (below resource []).all pathSafe = true := by decide
  obtain ⟨hslash, hsafe⟩ := hsafe resource hresource
  obtain ⟨authorization, -, hmade⟩ := Option.bind_eq_some_iff.mp hr
  obtain ⟨u, hu, hmade⟩ := Option.bind_eq_some_iff.mp hmade
  cases hmade
  obtain ⟨s, -, hpath⟩ := routePath_named ⟨_, hpre⟩ (hpre ▸ List.all_eq_true.mp hsafe) hu
  have hbelow : routePath u = below resource s := by
    rw [hpath, hpre]
    simp [below]
  unfold Request.call at hcall
  split at hcall
  · obtain ⟨x, hx, hcall⟩ := Option.bind_eq_some_iff.mp hcall
    have hx : route .delete (below resource s) = some x := hbelow ▸ hx
    by_cases hsegment : Segment s
    · rw [route_segment hslash hsegment] at hx
      refine ⟨s, ?_⟩
      by_cases hsnapshots : resource = utf8 "snapshots"
      · rw [if_pos hsnapshots] at hx ⊢
        cases hx
        exact (Option.some.inj hcall).symm
      · have hclones : resource = utf8 "clones" := by simpa [hsnapshots] using hresource
        rw [if_neg hsnapshots, if_pos hclones] at hx
        rw [if_neg hsnapshots]
        cases hx
        exact (Option.some.inj hcall).symm
    · rw [route_not_segment hslash hsegment] at hx
      cases hx
  · cases hcall

end

/-- A call of the client asks providers of the agent for nothing but what it is there for. -/
theorem calls_client {B : Backend} {c : VolumeCall} {i : Invocation} (h : (B.client c).Calls i) :
    i.call.Serves c ∧ i.key ∈ B.keys := by
  have hrequest : ∀ {r : Request}, (serveHTTP (agent B.keys B.token) r).Calls i →
      r.call B.token = some i.call ∧ i.key ∈ B.keys := by
    intro r hr
    obtain ⟨hcall, hserved⟩ := calls_serveHTTP.mp hr
    exact ⟨hcall, mem_of_servedBy hserved⟩
  cases c with
  | takeSnapshot dbType name overwrite =>
      obtain ⟨r, hr, hi⟩ := calls_send.mp h
      obtain ⟨hcall, hkey⟩ := hrequest hi
      obtain ⟨hcall, hbody⟩ := call_of_query hr hcall (by decide)
        (show route .post (utf8 "/snapshots") = some .createSnapshot by decide)
      refine ⟨?_, hkey⟩
      simp only [Route.call, hbody, decode_takeSnapshot, true_and] at hcall
      split at hcall
      · rw [← Option.some.inj hcall]
        exact ⟨rfl, rfl⟩
      · cases hcall
  | createClone dbType snapshot cloneName =>
      obtain ⟨r, hr, hi⟩ := calls_send.mp h
      obtain ⟨hcall, hkey⟩ := hrequest hi
      obtain ⟨hcall, hbody⟩ := call_of_query hr hcall (by decide)
        (show route .post (utf8 "/clones") = some .createClone by decide)
      refine ⟨?_, hkey⟩
      simp only [Route.call, hbody, decode_createClone, true_and] at hcall
      split at hcall
      · rw [← Option.some.inj hcall]
        exact ⟨rfl, rfl⟩
      · cases hcall
  | deleteSnapshot dbType name =>
      obtain ⟨r, hr, hi⟩ := calls_send.mp h
      obtain ⟨hcall, hkey⟩ := hrequest hi
      obtain ⟨s, hs⟩ := call_of_named (utf8 "snapshots") (by simp) (by decide) hr hcall
      rw [hs, if_pos rfl]
      exact ⟨trivial, hkey⟩
  | deleteClone dbType cloneName =>
      obtain ⟨r, hr, hi⟩ := calls_send.mp h
      obtain ⟨hcall, hkey⟩ := hrequest hi
      obtain ⟨s, hs⟩ := call_of_named (utf8 "clones") (by simp) (by decide) hr hcall
      rw [hs, if_neg (by decide)]
      exact ⟨trivial, hkey⟩
  | listSnapshots dbType =>
      obtain ⟨r, hr, hi⟩ := calls_send.mp h
      obtain ⟨hcall, hkey⟩ := hrequest hi
      obtain ⟨hcall, -⟩ := call_of_query hr hcall (by decide)
        (show route .get (utf8 "/snapshots") = some .listSnapshots by decide)
      rw [← Option.some.inj hcall]
      exact ⟨trivial, hkey⟩
  | listClones dbType =>
      obtain ⟨r, hr, hi⟩ := calls_send.mp h
      obtain ⟨hcall, hkey⟩ := hrequest hi
      obtain ⟨hcall, -⟩ := call_of_query hr hcall (by decide)
        (show route .get (utf8 "/clones") = some .listClones by decide)
      rw [← Option.some.inj hcall]
      exact ⟨trivial, hkey⟩
  | gcSnapshots dbType keepCount =>
      obtain ⟨r, hr, hi⟩ := calls_send.mp h
      obtain ⟨hcall, hkey⟩ := hrequest hi
      obtain ⟨hcall, -⟩ := call_of_query hr hcall (by decide)
        (show route .post (utf8 "/gc") = some .gc by decide)
      rw [← Option.some.inj hcall]
      exact ⟨trivial, hkey⟩
  | resetDataset dbType =>
      obtain ⟨r, hr, hi⟩ := calls_send.mp h
      obtain ⟨hcall, hkey⟩ := hrequest hi
      obtain ⟨hcall, -⟩ := call_of_query hr hcall (by decide)
        (show route .post (utf8 "/reset") = some .reset by decide)
      rw [← Option.some.inj hcall]
      exact ⟨trivial, hkey⟩

/-! ## What a call preserves -/

variable {B : Backend} {c : VolumeCall} {r : c.Reply} {m m' : Machine}

/-- What every method that a call is there for preserves, the call preserves. -/
theorem Requested.preserved {J : Machine → Prop} (h : Requested B c m r m') (hJ : J m)
    (hcall : ∀ (key : String) (a : AgentCall) (reply : a.Reply) (m₁ m₂ : Machine), key ∈ B.keys →
      a.Serves c → J m₁ → hosted B.ds ⟨key, a⟩ m₁ reply m₂ → J m₂) : J m' := by
  have hends : ∀ {tr : List (Concur.Event Invocation Invocation.Reply Machine)} {r : c.Reply},
      (B.client c).Ends (hosted B.ds) m tr r m' → J m' := by
    intro tr r hends
    refine Prog.Ends.preserved (P := fun i => i.call.Serves c ∧ i.key ∈ B.keys) (J := J) ?_ hends
      (fun i hi => calls_client hi) hJ
    rintro ⟨key, a⟩ m₁ reply m₂ ⟨hserves, hkey⟩ hJ₁ hhosted
    exact hcall key a reply m₁ m₂ hkey hserves hJ₁ hhosted
  cases h with
  | answered h => exact hends h
  | dropped err => exact hJ
  | lost err h => exact hends h

/-- A call that lists changes nothing. -/
theorem Requested.same (h : Requested B c m r m')
    (hlists : ∀ a : AgentCall, a.Serves c → a.lists = true) : m' = m := by
  refine h.preserved (J := (· = m)) rfl ?_
  intro key a reply m₁ m₂ _ hserves hm₁ ⟨tr, hrun⟩
  exact (same_of_runs (looks (B.ds key) (hlists a hserves)) hrun).trans hm₁

/-! ## Calls that are understood -/

/-- A type that the agent serves, and a client that it lets in. -/
structure Serving (B : Backend) (dbType key : String) : Prop where
  token : B.clientToken = B.token
  sendable : Sendable B.token
  type : InQuery dbType
  served : servedBy B.keys (utf8 dbType) = some key

/-- A call that does not fail like one that gets lost has run on the host. -/
theorem Requested.ran {key : String} (h : Requested B c m r m') (hc : Tame c)
    (hserving : Serving B (dbTypeOf c) key) (hr : ∀ err, r ≠ unanswered c err) :
    ∃ reply, hosted B.ds ⟨key, onAgent c⟩ m reply m' ∧ r = answer B.keys c reply := by
  cases h with
  | dropped err => exact absurd rfl (hr err)
  | lost err hends => exact absurd rfl (hr err)
  | answered hends =>
      unfold Backend.client at hends
      rw [hserving.token] at hends
      exact remote_ends hserving.sendable hc hserving.served hends

/-- On a host on which nothing goes wrong a call may be answered. -/
theorem requested_serve {key : String} (hc : Tame c) (hserving : Serving B (dbTypeOf c) key)
    (m : Machine) : Requested B c m (answer B.keys c (serveHosted B.ds ⟨key, onAgent c⟩ m).1)
      (serveHosted B.ds ⟨key, onAgent c⟩ m).2 := by
  have hends : ∃ tr, (B.client c).Ends (hosted B.ds) m tr
      (answer B.keys c (serveHosted B.ds ⟨key, onAgent c⟩ m).1)
      (serveHosted B.ds ⟨key, onAgent c⟩ m).2 := by
    have hhosted : hosted B.ds ⟨key, onAgent c⟩ m _ _ := hosted_serve _ m
    unfold Backend.client
    rw [hserving.token, remote_eq hserving.sendable hc hserving.served]
    exact ⟨_, .call hhosted .ret⟩
  obtain ⟨tr, hends⟩ := hends
  exact .answered hends

end BranchDB.ZfsAgent
