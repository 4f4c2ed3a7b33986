/-
# `BranchDB.ZfsAgent.Exact` — the object that is deleted is the one that was named

A name goes into the URL as it is, and comes out of it as the router sees the path:

    name ─▶ up to `?` or `#` ─▶ unescaped, or as it is (`received`) ─▶ one segment, or no route

A request without a route is answered 404, and to `DeleteClone` that means the clone is gone.

The agent runs on the host that its providers run on, so a call of a client is a program over
the calls of the providers, and each of these is a run of `BranchDB.Zfs.Machine`.
-/
import BranchDB.Zfs.DeleteClone
import BranchDB.ZfsAgent.Isolation

namespace BranchDB.ZfsAgent

open Concur Net Zfs

/-! ## The agent on its host -/

/-- The provider of a dataset, behind the interface of the agent. -/
def volumeProvider (p : AgentProvider) : AgentVolumeProvider (Prog OsCall OsCall.Reply)
  | .takeSnapshot name overwrite => p.takeSnapshot (text name) overwrite
  | .deleteSnapshot name => p.deleteSnapshot (text name)
  | .listSnapshots => p.listSnapshots
  | .gcSnapshots keepCount => p.gcSnapshots keepCount
  | .resetDataset => p.resetDataset
  | .createClone snapshot cloneName => p.createClone (text snapshot) (text cloneName)
  | .deleteClone cloneName => p.deleteClone (text cloneName)
  | .listClones => p.listClones
  | .getClone cloneName => p.getClone (text cloneName)

/-- A call of the provider of a type, run on the host to its end. -/
def hosted (ds : String → AgentProvider) (i : Invocation) (m : Machine) (reply : i.Reply)
    (m' : Machine) : Prop :=
  ∃ tr, Machine.Runs (volumeProvider (ds i.key) i.call) m tr reply m'

/-! ## The name that arrives -/

/-- Where a URL ends the path. -/
def pathEnd (b : UInt8) : Bool := b = '?'.toUInt8 ∨ b = '#'.toUInt8

/-- What the agent sees of a name at the end of a path, if the request arrives. -/
def seen (name : String) : Option Bytes := received ((utf8 name).takeWhile (¬ pathEnd ·))

/-- One segment of a path. -/
def Segment (s : Bytes) : Prop := s ≠ [] ∧ '/'.toUInt8 ∉ s

instance (s : Bytes) : Decidable (Segment s) := inferInstanceAs (Decidable (_ ∧ _))

/-- A name that arrives as it is. -/
def Intact (name : String) : Prop := (∀ b ∈ utf8 name, pathEnd b = false) ∧ Kept (utf8 name)

instance (name : String) : Decidable (Intact name) :=
  @instDecidableAnd _ _ (List.decidableBAll _ (utf8 name)) inferInstance

theorem seen_eq {name : String} {s : Bytes} (h : seen name = some s) :
    s = utf8 name ↔ Intact name := by
  have hwhole : (utf8 name).takeWhile (¬ pathEnd ·) = utf8 name ↔
      ∀ b ∈ utf8 name, pathEnd b = false := by
    rw [List.takeWhile_eq_self_iff]
    simp
  by_cases hend : ∀ b ∈ utf8 name, pathEnd b = false
  · rw [seen, hwhole.mpr hend] at h
    rw [received_eq_self h, Intact, and_iff_right hend]
  · refine iff_of_false ?_ fun hi => hend hi.1
    rintro rfl
    have hinitial := List.takeWhile_prefix (¬ pathEnd ·) (l := utf8 name)
    exact hend (hwhole.mp (hinitial.eq_of_length_le (length_received h)))

/-- The path of a request for a named object. -/
theorem routePath_named {pre name dbType : String} {u : Url}
    (hslash : ∃ rest, utf8 pre = '/'.toUInt8 :: rest) (hpre : ∀ b ∈ utf8 pre, pathSafe b = true)
    (h : wire (utf8 (pre ++ name ++ dbTypeQuery dbType)) = some u) :
    ∃ s, seen name = some s ∧ routePath u = utf8 pre ++ s := by
  have hquery : (utf8 (dbTypeQuery dbType)).takeWhile (¬ pathEnd ·) = [] := by
    unfold dbTypeQuery
    split
    · rfl
    · rw [utf8_append]
      rfl
  have hend : ∀ b ∈ utf8 pre, pathEnd b = false := by
    intro b hb
    refine Bool.eq_false_iff.mpr ?_
    intro hbad
    have hsafe := hpre b hb
    rcases of_decide_eq_true hbad with rfl | rfl
    · exact absurd hsafe (by decide)
    · exact absurd hsafe (by decide)
  have hsent : (cut '?'.toUInt8 (cut '#'.toUInt8 (utf8 (pre ++ name ++ dbTypeQuery dbType))).1).1 =
      utf8 pre ++ (utf8 name).takeWhile (¬ pathEnd ·) := by
    have hboth :
        (fun b => decide (decide (b ≠ '?'.toUInt8) = true ∧ decide (b ≠ '#'.toUInt8) = true)) =
          (¬ pathEnd ·) := by
      funext b
      simp [pathEnd]
    rw [cut_fst, cut_fst, List.takeWhile_takeWhile, hboth, utf8_append, utf8_append,
      List.append_assoc, List.takeWhile_append_of_pos (by simpa using hend), List.takeWhile_append,
      hquery]
    split
    · next hlength =>
      rw [List.append_nil, (List.takeWhile_prefix _).eq_of_length hlength]
    · rfl
  obtain ⟨rest, hrest⟩ := hslash
  have hpath := wire_path h (hsent.trans (by rw [hrest, List.cons_append]))
  rw [← List.cons_append, ← hrest, received_append hpre] at hpath
  obtain ⟨s, hs, hseen⟩ := Option.map_eq_some_iff.mp hpath
  exact ⟨s, hs, hseen.symm⟩

/-! ## The route -/

/-- The path of something named below a resource. -/
def below (resource s : Bytes) : Bytes := '/'.toUInt8 :: (resource ++ '/'.toUInt8 :: s)

section

variable {resource s : Bytes}

theorem splitOn_below (hresource : '/'.toUInt8 ∉ resource) :
    (below resource s).splitOn '/'.toUInt8 = [] :: resource :: s.splitOn '/'.toUInt8 := by
  have hfirst : '/'.toUInt8 ∉ ([] : Bytes) := List.not_mem_nil
  show ([] ++ '/'.toUInt8 :: (resource ++ '/'.toUInt8 :: s)).splitOn '/'.toUInt8 = _
  rw [List.splitOn_append_cons_self_of_not_mem hfirst,
    List.splitOn_append_cons_self_of_not_mem hresource]

theorem route_segment (hresource : '/'.toUInt8 ∉ resource) (hs : Segment s) :
    route .delete (below resource s) =
      if resource = utf8 "snapshots" then some (.deleteSnapshot s)
      else if resource = utf8 "clones" then some (.deleteClone s)
      else none := by
  rw [route, splitOn_below hresource, List.splitOn_eq_singleton hs.2]
  simp [hs.1]

theorem route_not_segment (hresource : '/'.toUInt8 ∉ resource) (hs : ¬ Segment s)
    (method : Method) : route method (below resource s) = none := by
  rw [route, splitOn_below hresource]
  by_cases hslash : '/'.toUInt8 ∈ s
  · obtain ⟨a, b, rfl, ha⟩ := List.eq_append_cons_of_mem hslash
    rw [List.splitOn_append_cons_self_of_not_mem ha]
    cases hb : b.splitOn '/'.toUInt8 with
    | nil => exact absurd hb (List.splitOn_ne_nil _ _)
    | cons x xs => rfl
  · have hnil : s = [] := not_not.mp fun hne => hs ⟨hne, hslash⟩
    subst hnil
    cases method <;> rfl

theorem notRouted_below (hresource : '/'.toUInt8 ∉ resource) (hs : ¬ Segment s) :
    notRouted (below resource s) = ⟨404, none⟩ := by
  simp [notRouted, route_not_segment hresource hs]

end

/-! ## What a deletion is as a program -/

variable {keys : List String} {token clientToken dbType name : String} {r : Request} {s : Bytes}

theorem invoke_agent {c : AgentCall} {respond : c.Reply → Response} :
    invoke (agent keys token) r c respond =
      match servedBy keys r.dbType with
      | some key => .call ⟨key, c⟩ fun reply => .ret (respond reply)
      | none => .ret recovered := by
  unfold invoke
  rw [pickProvider_agent]
  cases servedBy keys r.dbType with
  | none => rfl
  | some key => rfl

theorem serveHTTP_of_route {x : Route} (hauth : (agent [] token).authorized r = true)
    (hroute : route r.method (routePath r.url) = some x) :
    serveHTTP (agent keys token) r = handle (agent keys token) r x := by
  have hauth' : (agent keys token).authorized r = true := hauth
  rw [serveHTTP, hauth', hroute]
  rfl

theorem serveHTTP_of_not_routed (hauth : (agent [] token).authorized r = true)
    (hroute : route r.method (routePath r.url) = none) :
    serveHTTP (agent keys token) r = .ret (notRouted (routePath r.url)) := by
  have hauth' : (agent keys token).authorized r = true := hauth
  rw [serveHTTP, hauth', hroute]
  rfl

theorem serveHTTP_unauthorized (hauth : (agent [] token).authorized r = false) :
    serveHTTP (agent keys token) r = .ret (writeError 401 "unauthorized") := by
  have hauth' : (agent keys token).authorized r = false := hauth
  rw [serveHTTP, hauth']
  rfl

section

variable {α : Type} {h : Handler (Prog Invocation Invocation.Reply)} {method : Method}
  {url : String} {body : Body} (read : Response → Except GoError α)

theorem send_of_arriving (hr : arriving clientToken method url body = some r) :
    send (clientOf h clientToken) method url body read =
      serveHTTP h r >>= fun resp => .ret (read resp) := by
  obtain ⟨authorization, hheader, hr⟩ := Option.bind_eq_some_iff.mp hr
  obtain ⟨u, hu, hr⟩ := Option.bind_eq_some_iff.mp hr
  cases hr
  obtain ⟨sent, hsent, hline⟩ := Option.bind_eq_some_iff.mp hu
  simp only [send, hsent, clientOf, deliver, hheader, hline, Prog.pure_eq_ret]
  rw [Prog.bind_assoc]
  rfl

/-- What does not arrive is an error of the client, or answered 400. -/
theorem send_of_not_arriving (hr : arriving clientToken method url body = none) :
    ∃ a, send (clientOf h clientToken) method url body read = .ret a ∧
      ((∃ err, a = .error err) ∨ a = read ⟨400, none⟩) := by
  unfold arriving wire at hr
  unfold send
  cases hparse : parse (utf8 url) with
  | none => exact ⟨_, rfl, Or.inl ⟨_, rfl⟩⟩
  | some u =>
      cases hheader : headerValue (utf8 ("Bearer " ++ clientToken)) with
      | none =>
          simp only [clientOf, deliver, hheader]
          exact ⟨_, rfl, Or.inl ⟨_, rfl⟩⟩
      | some authorization =>
          cases hline : parseRequestURI u.requestURI with
          | none =>
              simp only [clientOf, deliver, hheader, hline]
              exact ⟨_, rfl, Or.inr rfl⟩
          | some v => simp [hparse, hheader, hline] at hr

end

/-- A request for what is named below a resource, that has the token. -/
theorem send_named {α : Type} {pre : String} (resource : Bytes) {read : Response → Except GoError α}
    (hresource : resource ∈ [utf8 "snapshots", utf8 "clones"]) (hpre : utf8 pre = below resource [])
    (hr : arriving clientToken .delete (pre ++ name ++ dbTypeQuery dbType) none = some r)
    (hauth : (agent [] token).authorized r = true) :
    ∃ s, seen name = some s ∧
      (Segment s → ∀ x c respond, route .delete (below resource s) = some x →
        handle (agent keys token) r x = invoke (agent keys token) r c respond →
        send (clientOf (agent keys token) clientToken) .delete (pre ++ name ++ dbTypeQuery dbType)
          none read =
            match servedBy keys r.dbType with
            | some key => .call ⟨key, c⟩ fun reply => .ret (read (respond reply))
            | none => .ret (read recovered)) ∧
      (¬ Segment s →
        send (clientOf (agent keys token) clientToken) .delete (pre ++ name ++ dbTypeQuery dbType)
          none read = .ret (read ⟨404, none⟩)) := by
  have hsafe : ∀ resource ∈ [utf8 "snapshots", utf8 "clones"],
      '/'.toUInt8 ∉ resource ∧ (below resource []).all pathSafe = true := by decide
  obtain ⟨hslash, hsafe⟩ := hsafe resource hresource
  rw [List.all_eq_true] at hsafe
  obtain ⟨authorization, -, hmade⟩ := Option.bind_eq_some_iff.mp hr
  obtain ⟨u, hu, hmade⟩ := Option.bind_eq_some_iff.mp hmade
  cases hmade
  obtain ⟨s, hs, hpath⟩ := routePath_named ⟨_, hpre⟩ (hpre ▸ hsafe) hu
  have hbelow : routePath u = below resource s := by
    rw [hpath, hpre]
    simp [below]
  refine ⟨s, hs, fun _ x c respond hx hhandle => ?_, fun hsegment => ?_⟩
  · rw [send_of_arriving read hr, serveHTTP_of_route hauth (hbelow ▸ hx), hhandle, invoke_agent]
    cases servedBy keys _ with
    | none => rfl
    | some key => rfl
  · rw [send_of_arriving read hr, serveHTTP_of_not_routed hauth
      (hbelow ▸ route_not_segment hslash hsegment _)]
    show Prog.ret (read (notRouted (routePath u))) = _
    rw [hbelow, notRouted_below hslash hsegment]

/-- The answer to a deletion. -/
def deleted : Except GoError Unit → Response
  | .error err => writeFailure err
  | .ok () => ⟨204, none⟩

/-- A request of the operation reaches the handlers of the agent. -/
def Arrives (op : Operation) (clientToken dbType token : String) (r : Request) : Prop :=
  op.request clientToken dbType = some r ∧ (agent [] token).authorized r = true

variable (keys) in
theorem send_of_not_arrives {α : Type} {op : Operation} (read : Response → Except GoError α)
    (h : ∀ r, ¬ Arrives op clientToken dbType token r) (h400 : ∃ err, read ⟨400, none⟩ = .error err)
    (h401 : ∃ err, read (writeError 401 "unauthorized") = .error err) :
    ∃ err, send (clientOf (agent keys token) clientToken) op.method (op.path ++ dbTypeQuery dbType)
      op.body read = .ret (.error err) := by
  cases hr : op.request clientToken dbType with
  | none =>
      obtain ⟨a, ha, ⟨err, rfl⟩ | rfl⟩ := send_of_not_arriving (h := agent keys token) read hr
      · exact ⟨err, ha⟩
      · obtain ⟨err, herr⟩ := h400
        exact ⟨err, ha.trans (congrArg _ herr)⟩
  | some r =>
      obtain ⟨err, herr⟩ := h401
      have hauth : (agent [] token).authorized r = false :=
        Bool.eq_false_iff.mpr fun hauth => h r ⟨hr, hauth⟩
      refine ⟨err, ?_⟩
      rw [send_of_arriving read hr, serveHTTP_unauthorized hauth]
      exact congrArg _ herr

theorem handle_deleteSnapshot (s : Bytes) :
    handle (agent keys token) r (.deleteSnapshot s) =
      invoke (agent keys token) r (.deleteSnapshot s) deleted := by
  refine congrArg (invoke (agent keys token) r (.deleteSnapshot s)) (funext fun reply => ?_)
  cases reply with
  | error err => rfl
  | ok => rfl

theorem handle_deleteClone (s : Bytes) :
    handle (agent keys token) r (.deleteClone s) =
      invoke (agent keys token) r (.deleteClone s) deleted := by
  refine congrArg (invoke (agent keys token) r (.deleteClone s)) (funext fun reply => ?_)
  cases reply with
  | error err => rfl
  | ok => rfl

variable (keys) in
theorem deleteSnapshot_eq (h : Arrives (.deleteSnapshot name) clientToken dbType token r) :
    ∃ s, seen name = some s ∧
      (Segment s → deleteSnapshot (clientOf (agent keys token) clientToken) dbType name =
        match servedBy keys r.dbType with
        | some key => .call ⟨key, .deleteSnapshot s⟩ fun reply =>
            .ret (deletedSnapshot name (deleted reply))
        | none => .ret (deletedSnapshot name recovered)) ∧
      (¬ Segment s → deleteSnapshot (clientOf (agent keys token) clientToken) dbType name =
        .ret (deletedSnapshot name ⟨404, none⟩)) := by
  obtain ⟨s, hs, hrouted, hlost⟩ := send_named (utf8 "snapshots") (by simp) (by decide) h.1 h.2
  refine ⟨s, hs, fun hsegment => ?_, hlost⟩
  refine hrouted hsegment (.deleteSnapshot s) _ _ ?_ (handle_deleteSnapshot s)
  rw [route_segment (by decide) hsegment, if_pos rfl]

variable (keys) in
theorem deleteClone_eq (h : Arrives (.deleteClone name) clientToken dbType token r) :
    ∃ s, seen name = some s ∧
      (Segment s → deleteClone (clientOf (agent keys token) clientToken) dbType name =
        match servedBy keys r.dbType with
        | some key => .call ⟨key, .deleteClone s⟩ fun reply => .ret (deletedClone (deleted reply))
        | none => .ret (deletedClone recovered)) ∧
      (¬ Segment s → deleteClone (clientOf (agent keys token) clientToken) dbType name =
        .ret (.ok ())) := by
  obtain ⟨s, hs, hrouted, hlost⟩ := send_named (utf8 "clones") (by simp) (by decide) h.1 h.2
  refine ⟨s, hs, fun hsegment => ?_, hlost⟩
  refine hrouted hsegment (.deleteClone s) _ _ ?_ (handle_deleteClone s)
  rw [route_segment (by decide) hsegment, if_neg (by decide), if_pos rfl]

/-! ## What the client makes of an answer -/

theorem deletedSnapshot_error {resp : Response} (h : resp.status ≥ 300) :
    ∃ err, deletedSnapshot name resp = .error err := by
  unfold deletedSnapshot
  rw [if_pos h]
  split
  · exact ⟨_, rfl⟩
  · split
    · exact ⟨_, rfl⟩
    · exact ⟨_, rfl⟩

theorem deletedSnapshot_deleted (err : GoError) :
    ∃ err', deletedSnapshot name (deleted (.error err)) = .error err' := by
  refine deletedSnapshot_error ?_
  show (writeFailure err).status ≥ 300
  unfold writeFailure
  split
  · exact (by decide : 404 ≥ 300)
  · exact (by decide : 500 ≥ 300)

theorem deletedClone_deleted {reply : Except GoError Unit} :
    deletedClone (deleted reply) = .ok () ↔ ∀ err, reply = .error err → err.reason = .notFound := by
  cases reply with
  | ok => exact iff_of_true rfl nofun
  | error err =>
      have hreply : (∀ err', (Except.error err : Except GoError Unit) = .error err' →
          err'.reason = .notFound) ↔ err.reason = .notFound := by
        simp
      rw [hreply, deleted, writeFailure]
      by_cases hreason : err.reason = .notFound
      · rw [if_pos hreason]
        exact iff_of_true rfl hreason
      · rw [if_neg hreason]
        exact iff_of_false nofun hreason

/-! ## How a deletion may end -/

variable {ds : String → AgentProvider} {t : String} {m m' : Machine}
  {tr : List (Event Invocation Invocation.Reply Machine)} {a : Except GoError Unit}

/-- How a deletion of `name` may end that asks for `c s` where `s` is seen: it fails on the way, it
has no route, or the provider is asked. -/
inductive Deletion (keys : List String) (ds : String → AgentProvider) (arrives : Request → Prop)
    (name : String) (c : Bytes → AgentCall) (respond : (s : Bytes) → (c s).Reply → Response)
    (read : Response → Except GoError Unit) (m : Machine) :
    List (Event Invocation Invocation.Reply Machine) → Except GoError Unit → Machine → Prop
  | failed (err : GoError) : Deletion keys ds arrives name c respond read m [] (.error err) m
  | lost {r : Request} {s : Bytes} : arrives r → seen name = some s → ¬ Segment s →
      Deletion keys ds arrives name c respond read m [] (read ⟨404, none⟩) m
  | asked {r : Request} {s : Bytes} {key : String} {reply : (c s).Reply} {m' : Machine} :
      arrives r → seen name = some s → Segment s → servedBy keys r.dbType = some key →
      hosted ds ⟨key, c s⟩ m reply m' →
      Deletion keys ds arrives name c respond read m [⟨⟨key, c s⟩, m, reply, m'⟩]
        (read (respond s reply)) m'

theorem Deletion.of_ends {arrives : Request → Prop} {c : Bytes → AgentCall}
    {respond : (s : Bytes) → (c s).Reply → Response} {read : Response → Except GoError Unit}
    {prog : Prog Invocation Invocation.Reply (Except GoError Unit)}
    (harrives : ∀ r, arrives r → ∃ s, seen name = some s ∧
      (Segment s → prog =
        match servedBy keys r.dbType with
        | some key => .call ⟨key, c s⟩ fun reply => .ret (read (respond s reply))
        | none => .ret (read recovered)) ∧
      (¬ Segment s → prog = .ret (read ⟨404, none⟩)))
    (hnot : (∀ r, ¬ arrives r) → ∃ err, prog = .ret (.error err))
    (hrecovered : ∃ err, read recovered = .error err) (h : prog.Ends (hosted ds) m tr a m') :
    Deletion keys ds arrives name c respond read m tr a m' := by
  by_cases hsome : ∃ r, arrives r
  · obtain ⟨r, hr⟩ := hsome
    obtain ⟨s, hs, hrouted, hlost⟩ := harrives r hr
    by_cases hsegment : Segment s
    · rw [hrouted hsegment] at h
      cases hserved : servedBy keys r.dbType with
      | none =>
          rw [hserved] at h
          obtain ⟨rfl, rfl, rfl⟩ := Prog.ends_ret.mp h
          obtain ⟨err, herr⟩ := hrecovered
          exact herr ▸ .failed err
      | some key =>
          rw [hserved] at h
          obtain ⟨reply, m₁, rest, hcall, hrest, rfl⟩ := Prog.ends_call.mp h
          obtain ⟨rfl, rfl, rfl⟩ := Prog.ends_ret.mp hrest
          exact .asked hr hs hsegment hserved hcall
    · rw [hlost hsegment] at h
      obtain ⟨rfl, rfl, rfl⟩ := Prog.ends_ret.mp h
      exact .lost hr hs hsegment
  · obtain ⟨err, hprog⟩ := hnot (not_exists.mp hsome)
    rw [hprog] at h
    obtain ⟨rfl, rfl, rfl⟩ := Prog.ends_ret.mp h
    exact .failed err

theorem deleteSnapshot_cases
    (h : (deleteSnapshot (clientOf (agent keys token) clientToken) t name).Ends (hosted ds)
      m tr a m') :
    Deletion keys ds (Arrives (.deleteSnapshot name) clientToken t token) name .deleteSnapshot
      (fun _ => deleted) (deletedSnapshot name) m tr a m' := by
  have hrecovered : ∃ err, deletedSnapshot name recovered = .error err :=
    deletedSnapshot_error (by decide)
  refine .of_ends (fun r hr => deleteSnapshot_eq keys hr) (fun hnot => ?_) hrecovered h
  obtain ⟨err, hprog⟩ := send_of_not_arrives keys (deletedSnapshot name) hnot
    (deletedSnapshot_error (by decide)) (deletedSnapshot_error (by decide))
  exact ⟨err, hprog⟩

theorem deleteClone_cases
    (h : (deleteClone (clientOf (agent keys token) clientToken) t name).Ends (hosted ds)
      m tr a m') :
    Deletion keys ds (Arrives (.deleteClone name) clientToken t token) name .deleteClone
      (fun _ => deleted) deletedClone m tr a m' := by
  have hrecovered : ∃ err, deletedClone recovered = .error err := ⟨_, rfl⟩
  refine .of_ends (fun r hr => deleteClone_eq keys hr) (fun hnot => ?_) hrecovered h
  obtain ⟨err, hprog⟩ := send_of_not_arrives keys deletedClone hnot ⟨_, rfl⟩ ⟨_, rfl⟩
  exact ⟨err, hprog⟩

/-! ## Main result -/

/-- Just this was asked, of the provider for the type. -/
def Asked (keys : List String) (t : String) (c : AgentCall)
    (tr : List (Event Invocation Invocation.Reply Machine)) : Prop :=
  ∃ key, servedBy keys (utf8 t) = some key ∧ tr.map (·.call) = [⟨key, c⟩]

/-- A `DeleteSnapshot` that starts in `m` fails and changes nothing, or asks for what it names. -/
def SnapshotExact (keys : List String) (ds : String → AgentProvider)
    (token clientToken t name : String) (m : Machine) : Prop :=
  ∀ tr a m', (deleteSnapshot (clientOf (agent keys token) clientToken) t name).Ends (hosted ds)
      m tr a m' →
    ((∃ err, a = .error err) ∧ m' = m) ∨ Asked keys t (.deleteSnapshot (utf8 name)) tr

/-- And so does a `DeleteClone`; if it returns nil, the clone it names is gone. -/
def CloneExact (keys : List String) (ds : String → AgentProvider)
    (token clientToken t name : String) (m : Machine) : Prop :=
  ∀ tr a m', (deleteClone (clientOf (agent keys token) clientToken) t name).Ends (hosted ds)
      m tr a m' →
    (((∃ err, a = .error err) ∧ m' = m) ∨ Asked keys t (.deleteClone (utf8 name)) tr) ∧
    (a = .ok () → Asked keys t (.deleteClone (utf8 name)) tr ∧
      ∀ key, servedBy keys (utf8 t) = some key →
        m'.store.filesystem ((ds key).clonePath name) = none)

theorem servedBy_eq_none {q : Bytes} : servedBy keys q = none ↔ keys = [] := by
  cases keys with
  | nil => simp [servedBy]
  | cons d ks => simp [servedBy]

theorem snapshotExact_iff :
    SnapshotExact keys ds token clientToken t name m ↔
      ∀ r s, Arrives (.deleteSnapshot name) clientToken t token r → seen name = some s →
        Segment s → keys = [] ∨
          (Intact name ∧ servedBy keys r.dbType = servedBy keys (utf8 t)) ∨
          ∀ key, servedBy keys r.dbType = some key →
            refusal m.store (.destroy false ((ds key).snapshotPath (text s))) ≠ none := by
  constructor
  · intro h r s hr hs hsegment
    obtain ⟨s', hs', hprog, -⟩ := deleteSnapshot_eq keys hr
    obtain rfl := Option.some.inj (hs.symm.trans hs')
    have hprog := hprog hsegment
    cases hserved : servedBy keys r.dbType with
    | none => exact Or.inl (servedBy_eq_none.mp hserved)
    | some key =>
        refine Or.inr (or_iff_not_imp_right.mpr fun hdone => ?_)
        obtain ⟨key', hkey', hdone⟩ := not_forall₂.mp hdone
        obtain rfl := Option.some.inj hkey'
        obtain ⟨tr, m', hrun⟩ := (ds key).deleteSnapshot_done (not_not.mp hdone)
        rw [hserved] at hprog
        have hends := h [⟨⟨key, .deleteSnapshot s⟩, m, .ok (), m'⟩] (.ok ()) m'
          (hprog ▸ .call ⟨tr, hrun⟩ .ret)
        rcases hends with ⟨⟨err, herr⟩, -⟩ | ⟨key', hkey', hcalls⟩
        · cases herr
        · simp only [List.map_cons, List.map_nil, List.cons.injEq, Invocation.mk.injEq,
            AgentCall.deleteSnapshot.injEq, and_true] at hcalls
          obtain ⟨rfl, hname⟩ := hcalls
          exact ⟨(seen_eq hs).mp hname, hkey'.symm⟩
  · intro hcond tr a m' hends
    cases deleteSnapshot_cases hends with
    | failed err => exact Or.inl ⟨⟨err, rfl⟩, rfl⟩
    | lost _ _ _ => exact Or.inl ⟨deletedSnapshot_error (by decide), rfl⟩
    | asked hr hs hsegment hserved hhosted =>
        obtain ⟨tr', hrun⟩ := hhosted
        rcases hcond _ _ hr hs hsegment with rfl | ⟨hintact, hsame⟩ | hrefused
        · cases hserved
        · obtain rfl := (seen_eq hs).mpr hintact
          exact Or.inr ⟨_, hsame ▸ hserved, rfl⟩
        · obtain ⟨⟨err, rfl⟩, hkept⟩ :=
            (ds _).deleteSnapshot_refused (hrefused _ hserved) hrun
          exact Or.inl ⟨deletedSnapshot_deleted err, hkept⟩

theorem cloneExact_iff :
    CloneExact keys ds token clientToken t name m ↔
      ∀ r s, Arrives (.deleteClone name) clientToken t token r → seen name = some s →
        Segment s ∧ (keys = [] ∨
          (Intact name ∧ servedBy keys r.dbType = servedBy keys (utf8 t) ∧
            ∀ key, servedBy keys r.dbType = some key →
              ¬ Misread m.store ((ds key).clonePath name))) := by
  constructor
  · intro h r s hr hs
    obtain ⟨s', hs', hprog, hlost⟩ := deleteClone_eq keys hr
    obtain rfl := Option.some.inj (hs.symm.trans hs')
    have hsegment : Segment s := by
      by_contra hsegment
      obtain ⟨key, -, hcalls⟩ := ((h [] (.ok ()) m (hlost hsegment ▸ .ret)).2 rfl).1
      cases hcalls
    refine ⟨hsegment, ?_⟩
    have hprog := hprog hsegment
    cases hserved : servedBy keys r.dbType with
    | none => exact Or.inl (servedBy_eq_none.mp hserved)
    | some key =>
        rw [hserved] at hprog
        -- Whatever the provider may do in `m`, the client may get to see.
        have hends : ∀ {tr reply m'}, Machine.Runs ((ds key).deleteClone (text s)) m tr reply m' →
            (deleteClone (clientOf (agent keys token) clientToken) t name).Ends (hosted ds) m
              [⟨⟨key, .deleteClone s⟩, m, reply, m'⟩] (deletedClone (deleted reply)) m' :=
          fun hrun => hprog ▸ .call ⟨_, hrun⟩ .ret
        have hasked : ∃ key', servedBy keys (utf8 t) = some key' ∧
            [Invocation.mk key (.deleteClone s)] = [⟨key', .deleteClone (utf8 name)⟩] := by
          obtain ⟨tr, err, m', hrun, hbad⟩ := (ds key).deleteClone_disturbs (text s) m
          obtain ⟨hacts, hgone⟩ := h _ _ _ (hends hrun)
          rcases hbad with hreason | hne
          · exact (hgone (deletedClone_deleted.mpr fun err' he => by cases he; exact hreason)).1
          · exact hacts.resolve_left fun hkept => hne hkept.2
        obtain ⟨key', hkey', hcalls⟩ := hasked
        simp only [List.cons.injEq, Invocation.mk.injEq, AgentCall.deleteClone.injEq,
          and_true] at hcalls
        obtain ⟨rfl, rfl⟩ := hcalls
        refine Or.inr ⟨(seen_eq hs).mp rfl, hkey'.symm, fun key' hkey hmisread => ?_⟩
        obtain rfl := Option.some.inj hkey
        obtain ⟨tr, hrun⟩ := (ds key).deleteClone_misread hmisread
        rw [← text_utf8 name] at hrun
        obtain ⟨-, hgone⟩ := h _ _ _ (hends hrun)
        have hnone := (hgone (deletedClone_deleted.mpr fun err he => by cases he; rfl)).2 key hkey'
        exact hmisread.1 hnone
  · intro hcond tr a m' hends
    cases deleteClone_cases hends with
    | failed err => exact ⟨Or.inl ⟨⟨err, rfl⟩, rfl⟩, nofun⟩
    | lost hr hs hsegment => exact absurd (hcond _ _ hr hs).1 hsegment
    | @asked r s key reply _ hr hs hsegment hserved hhosted =>
        obtain ⟨tr', hrun⟩ := hhosted
        rcases (hcond r s hr hs).2 with rfl | ⟨hintact, hsame, hread⟩
        · cases hserved
        · obtain rfl := (seen_eq hs).mpr hintact
          have hasked : Asked keys t (.deleteClone (utf8 name))
              [⟨⟨key, .deleteClone (utf8 name)⟩, m, reply, m'⟩] :=
            ⟨key, hsame ▸ hserved, rfl⟩
          refine ⟨Or.inr hasked, fun hok => ⟨hasked, fun key' hkey' => ?_⟩⟩
          obtain rfl := Option.some.inj ((hsame ▸ hserved).symm.trans hkey')
          have hrun : Machine.Runs ((ds key).deleteClone (text (utf8 name))) m tr' reply m' :=
            hrun
          rw [text_utf8] at hrun
          exact ((ds key).deleteClone_gone hrun (deletedClone_deleted.mp hok)).resolve_right
            (hread key hserved)

/-- When a deletion is about what it names.  Of a snapshot: nothing arrives that has a route, or
there are no providers, or name and type arrive as they are, or there is nothing to delete of what
arrives.  Of a clone: nothing arrives, or it has a route, and there are no providers, or name and
type arrive as they are and the clone is not one that is misread. -/
theorem named_exactly (keys : List String) (ds : String → AgentProvider)
    (token clientToken t name : String) (m : Machine) :
    (SnapshotExact keys ds token clientToken t name m ↔
      ∀ r s, Arrives (.deleteSnapshot name) clientToken t token r → seen name = some s →
        Segment s → keys = [] ∨
          (Intact name ∧ servedBy keys r.dbType = servedBy keys (utf8 t)) ∨
          ∀ key, servedBy keys r.dbType = some key →
            refusal m.store (.destroy false ((ds key).snapshotPath (text s))) ≠ none) ∧
    (CloneExact keys ds token clientToken t name m ↔
      ∀ r s, Arrives (.deleteClone name) clientToken t token r → seen name = some s →
        Segment s ∧ (keys = [] ∨
          (Intact name ∧ servedBy keys r.dbType = servedBy keys (utf8 t) ∧
            ∀ key, servedBy keys r.dbType = some key →
              ¬ Misread m.store ((ds key).clonePath name)))) :=
  ⟨snapshotExact_iff, cloneExact_iff⟩

/-- A snapshot whose name has a `?` in it passes for another, and that one is deleted; a clone
whose name is two segments counts as deleted. -/
theorem named_inexactly :
    ¬ SnapshotExact ["mysql"] (fun _ => Machine.demoProvider) "secret" "secret" "mysql" "base?x"
      Machine.demoTaken ∧
    ¬ CloneExact ["mysql"] (fun _ => Machine.demoProvider) "secret" "secret" "mysql" "feature/2"
      Machine.demo := by
  constructor
  · intro h
    have hother := snapshotExact_iff.mp h _ (utf8 "base") ⟨rfl, by decide⟩ (by decide) (by decide)
    rcases hother with hnil | hintact | hrefused
    · cases hnil
    · exact absurd hintact.1 (by decide)
    · exact hrefused "mysql" (by decide) (by decide +kernel)
  · intro h
    have hlost := cloneExact_iff.mp h _ (utf8 "feature/2") ⟨rfl, by decide⟩ (by decide)
    exact absurd hlost.1 (by decide)

end BranchDB.ZfsAgent
