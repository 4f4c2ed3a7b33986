/-
# `BranchDB.ZfsAgent.CloneCalls` — how the calls about a clone may end

    CreateClone ─▶ fails before a provider is asked     nothing is changed
    DeleteClone ─▶ the provider of `sentType` is asked  its reply, as the client reads it

Nothing is assumed of the database type, or of the tokens: `sentType` is what the agent makes of
the query that the type is put in, and a request that does not arrive, or is not let in, fails.
-/
import BranchDB.ZfsAgent.Remote

namespace BranchDB.ZfsAgent

open Concur Net

/-! ## The type that arrives -/

/-- What the agent reads in the query made for `dbType`. -/
def sentType (dbType : String) : Bytes :=
  get (parseQuery (cut '?'.toUInt8 (cut '#'.toUInt8 (utf8 (dbTypeQuery dbType))).1).2)
    (utf8 "db_type")

variable {keys : List String} {ds : String → AgentProvider} {token clientToken t snapshot name : String}
  {method : Method} {path : String} {body : Body} {r : Request} {m m' : Machine}
  {tr : List (Event Invocation Invocation.Reply Machine)}

theorem dbType_arriving (h : arriving clientToken method (path ++ dbTypeQuery t) body = some r)
    (hquery : '?'.toUInt8 ∉ utf8 path) (hfragment : '#'.toUInt8 ∉ utf8 path) :
    r.dbType = sentType t := by
  obtain ⟨authorization, -, h⟩ := Option.bind_eq_some_iff.mp h
  obtain ⟨u, hu, h⟩ := Option.bind_eq_some_iff.mp h
  cases h
  have hraw := wire_rawQuery hu
  rw [utf8_append, cut_append_left hfragment, cut_append_left hquery] at hraw
  show get (parseQuery u.rawQuery) (utf8 "db_type") = sentType t
  rw [hraw]
  rfl

/-- Where only a query follows, the path is matched as it is. -/
theorem routePath_query {u : Url} (hslash : ∃ rest, utf8 path = '/'.toUInt8 :: rest)
    (hpath : (utf8 path).all pathSafe = true) (h : wire (utf8 (path ++ dbTypeQuery t)) = some u) :
    routePath u = utf8 path := by
  have hurl : wire (utf8 (path ++ "" ++ dbTypeQuery t)) = some u := by
    rw [String.append_empty]
    exact h
  obtain ⟨s, hs, hrouted⟩ := routePath_named hslash (List.all_eq_true.mp hpath) hurl
  have hnil : s = [] := (Option.some.inj hs).symm
  rw [hrouted, hnil, List.append_nil]

/-! ## Creating a clone -/

theorem createdClone_failed {resp : Response} (h : resp.status ≥ 300) :
    ∃ err, createdClone resp = .error err := by
  rw [createdClone, if_pos h]
  exact ⟨_, rfl⟩

theorem createdClone_cloned {reply : Except GoError VolumeInfo} {vol : VolumeInfo} :
    createdClone (cloned reply) = .ok vol ↔ reply = .ok vol := by
  cases reply with
  | error err =>
      have hstatus : (writeError 500 err.msg).status ≥ 300 := (by decide : 500 ≥ 300)
      obtain ⟨err', herr⟩ := createdClone_failed hstatus
      have hread : createdClone (cloned (.error err)) = .error err' := herr
      rw [hread]
      exact iff_of_false nofun nofun
  | ok v =>
      have hread : createdClone (cloned (.ok v)) = .ok v := createdClone_ok v
      rw [hread]

/-- How a `CreateClone` of the client may end. -/
inductive Creation (keys : List String) (ds : String → AgentProvider) (t snapshot name : String)
    (m : Machine) : Except GoError VolumeInfo → Machine → Prop
  | failed (err : GoError) : Creation keys ds t snapshot name m (.error err) m
  | asked {key : String} {reply : Except GoError VolumeInfo} {m' : Machine} :
      servedBy keys (sentType t) = some key →
      hosted ds ⟨key, .createClone (utf8 snapshot) (utf8 name)⟩ m reply m' →
      Creation keys ds t snapshot name m (createdClone (cloned reply)) m'

/-- A response that is an error. -/
theorem Creation.of_response {resp : Response} (hresp : resp.status ≥ 300)
    {result : Except GoError VolumeInfo}
    (h : (Prog.ret (createdClone resp) : Prog Invocation Invocation.Reply _).Ends (hosted ds)
      m tr result m') : Creation keys ds t snapshot name m result m' := by
  obtain ⟨-, rfl, rfl⟩ := Prog.ends_ret.mp h
  obtain ⟨err, herr⟩ := createdClone_failed hresp
  exact herr ▸ .failed err

/-- The handler refuses names that are empty; then it depends on the provider. -/
theorem Creation.of_handled {result : Except GoError VolumeInfo} (htype : r.dbType = sentType t)
    (hdecode : decode createCloneFields {} r.body = ⟨⟨snapshot, name⟩, true⟩)
    (h : (handleCreateClone (agent keys token) r >>= fun resp => .ret (createdClone resp)).Ends
      (hosted ds) m tr result m') : Creation keys ds t snapshot name m result m' := by
  by_cases hempty : snapshot = "" ∨ name = ""
  · have hrefused : ∃ msg, handleCreateClone (agent keys token) r = .ret (writeError 400 msg) := by
      unfold handleCreateClone
      generalize decode createCloneFields {} r.body = decoded at hdecode
      subst hdecode
      dsimp only
      rw [if_neg (by decide)]
      by_cases hsnapshot : snapshot = ""
      · rw [if_pos hsnapshot]
        exact ⟨_, rfl⟩
      · rw [if_neg hsnapshot, if_pos (hempty.resolve_left hsnapshot)]
        exact ⟨_, rfl⟩
    obtain ⟨msg, hrefused⟩ := hrefused
    rw [hrefused] at h
    have hstatus : (writeError 400 msg).status ≥ 300 := (by decide : 400 ≥ 300)
    exact .of_response hstatus h
  · obtain ⟨hsnapshot, hname⟩ := not_or.mp hempty
    rw [handleCreateClone_eq hdecode hsnapshot hname, invoke_agent, htype] at h
    cases hserved : servedBy keys (sentType t) with
    | none =>
        rw [hserved] at h
        exact .of_response (by decide) h
    | some key =>
        rw [hserved] at h
        obtain ⟨reply, m₁, rest, hhosted, hrest, -⟩ := Prog.ends_call.mp h
        obtain ⟨-, rfl, rfl⟩ := Prog.ends_ret.mp hrest
        exact .asked hserved hhosted

theorem createClone_cases {result : Except GoError VolumeInfo}
    (h : (createClone (clientOf (agent keys token) clientToken) t snapshot name).Ends (hosted ds)
      m tr result m') : Creation keys ds t snapshot name m result m' := by
  unfold createClone at h
  cases harrives : arriving clientToken .post ("/clones" ++ dbTypeQuery t)
      (some (.object [("name", .string name), ("snapshot", .string snapshot)])) with
  | none =>
      obtain ⟨a, hprog, herr⟩ :=
        send_of_not_arriving (h := agent keys token) createdClone harrives
      rw [hprog] at h
      rcases herr with ⟨err, rfl⟩ | rfl
      · obtain ⟨-, rfl, rfl⟩ := Prog.ends_ret.mp h
        exact .failed err
      · exact .of_response (by decide) h
  | some r =>
      rw [send_of_arriving createdClone harrives] at h
      have htype : r.dbType = sentType t := dbType_arriving harrives (by decide) (by decide)
      obtain ⟨authorization, -, hmade⟩ := Option.bind_eq_some_iff.mp harrives
      obtain ⟨u, hu, hmade⟩ := Option.bind_eq_some_iff.mp hmade
      cases hmade
      cases hauth : (agent [] token).authorized
          ⟨.post, u, authorization,
            some (.object [("name", .string name), ("snapshot", .string snapshot)])⟩ with
      | false =>
          rw [serveHTTP_unauthorized hauth] at h
          exact .of_response (by decide) h
      | true =>
          have hpath : routePath u = utf8 "/clones" := routePath_query ⟨_, rfl⟩ (by decide) hu
          have hroute : route .post (routePath u) = some .createClone := by
            rw [hpath]
            decide
          rw [serveHTTP_of_route hauth hroute] at h
          exact .of_handled htype (decode_createClone snapshot name) h

/-! ## Deleting a clone -/

/-- How a `DeleteClone` of the client may end. -/
inductive Removal (keys : List String) (ds : String → AgentProvider) (t name : String)
    (m : Machine) : Except GoError Unit → Machine → Prop
  | failed (err : GoError) : Removal keys ds t name m (.error err) m
  | asked {key : String} {reply : Except GoError Unit} {m' : Machine} :
      servedBy keys (sentType t) = some key → hosted ds ⟨key, .deleteClone (utf8 name)⟩ m reply m' →
      Removal keys ds t name m (deletedClone (deleted reply)) m'

/-- A name that can stand in a path is seen as it is. -/
theorem seen_inPath (h : InPath name) : seen name = some (utf8 name) := by
  have hwhole : (utf8 name).takeWhile (¬ pathEnd ·) = utf8 name := by
    rw [List.takeWhile_eq_self_iff]
    intro b hb
    have hsafe := h.2 b hb
    refine decide_eq_true fun hend => ?_
    rcases of_decide_eq_true hend with rfl | rfl
    · exact absurd hsafe (by decide)
    · exact absurd hsafe (by decide)
  have hreceived := received_append h.2 []
  rw [List.append_nil] at hreceived
  rw [seen, hwhole, hreceived]
  exact congrArg some (List.append_nil _)

theorem deleteClone_removal (hname : InPath name) {result : Except GoError Unit}
    (h : (deleteClone (clientOf (agent keys token) clientToken) t name).Ends (hosted ds)
      m tr result m') : Removal keys ds t name m result m' := by
  have hplain : '?'.toUInt8 ∉ utf8 ("/clones/" ++ name) ∧ '#'.toUInt8 ∉ utf8 ("/clones/" ++ name) := by
    have hsafe : ∀ b ∈ utf8 ("/clones/" ++ name), pathSafe b = true := by
      intro b hb
      rw [utf8_append] at hb
      rcases List.mem_append.mp hb with hb | hb
      · have hall : (utf8 "/clones/").all pathSafe = true := by decide
        exact List.all_eq_true.mp hall b hb
      · exact hname.2 b hb
    constructor
    · intro hmem
      exact absurd (hsafe _ hmem) (by decide)
    · intro hmem
      exact absurd (hsafe _ hmem) (by decide)
  cases deleteClone_cases h with
  | failed err => exact .failed err
  | lost _ hseen hsegment =>
      rw [seen_inPath hname, Option.some.injEq] at hseen
      exact absurd (hseen ▸ hname.1) hsegment
  | asked harrives hseen _ hserved hhosted =>
      rw [seen_inPath hname, Option.some.injEq] at hseen
      subst hseen
      have htype := dbType_arriving harrives.1 hplain.1 hplain.2
      exact .asked (htype ▸ hserved) hhosted

end BranchDB.ZfsAgent
