/-
# `BranchDB.ZfsAgent.Tenants` — databases of one type are safe from those of another

What clients ask of the agent for some types, be it to reset them, leaves the dataset of another
type as it was: its snapshots in their order, its clones with their origins (`others_untouched`).
A session is any number of calls, one after the other, each with whatever outcome; sessions that
only list change nothing.
-/
import BranchDB.ZfsAgent.Remote

namespace Zfs

variable {d d' : String} {exported : Bool} {st st' st'' : Store}

/-- No name is below both datasets. -/
def Disjoint (d d' : String) : Prop := ∀ x, below d x = true → below d' x = false

/-- Datasets neither of which is the other or below it. -/
theorem disjoint_of (h : ∀ a ∈ [d.toList ++ ['/'], d.toList ++ ['@']],
    ∀ b ∈ [d'.toList ++ ['/'], d'.toList ++ ['@']], ¬ a <+: b ∧ ¬ b <+: a) : Disjoint d d' := by
  have hstarts : ∀ d x, below d x = true →
      ∃ a ∈ [d.toList ++ ['/'], d.toList ++ ['@']], a <+: x.toList := by
    intro d x hx
    rcases below_iff.mp hx with hx | hx
    · exact ⟨_, List.mem_cons_self, hx⟩
    · exact ⟨_, List.mem_cons_of_mem _ List.mem_cons_self, hx⟩
  intro x hx
  refine Bool.eq_false_iff.mpr fun hx' => ?_
  obtain ⟨a, ha, hax⟩ := hstarts d x hx
  obtain ⟨b, hb, hbx⟩ := hstarts d' x hx'
  rcases List.prefix_or_prefix_of_prefix hax hbx with hab | hba
  · exact (h a ha b hb).1 hab
  · exact (h a ha b hb).2 hba

/-- Below the dataset everything is as it was, or exported again. -/
structure Untouched (d : String) (st st' : Store) : Prop where
  snapshots : st'.snapshots.filter (below d ·.name) = st.snapshots.filter (below d ·.name)
  filesystems :
    st'.filesystems.filter (below d ·.name) = st.filesystems.filter (below d ·.name) ∨
    st'.filesystems.filter (below d ·.name) =
      (st.filesystems.filter (below d ·.name)).map (·.export)

theorem Untouched.refl (d : String) (st : Store) : Untouched d st st := ⟨rfl, Or.inl rfl⟩

theorem Untouched.trans (h : Untouched d st st') (h' : Untouched d st' st'') :
    Untouched d st st'' := by
  refine ⟨h'.snapshots.trans h.snapshots, ?_⟩
  rcases h.filesystems with hf | hf
  · rw [← hf]
    exact h'.filesystems
  · rcases h'.filesystems with hf' | hf'
    · exact Or.inr (hf'.trans hf)
    · refine Or.inr ?_
      rw [hf', hf, List.map_map]
      exact List.map_congr_left fun f _ => export_export f

/-- What is apart from a dataset is not touched. -/
theorem Apart.untouched (h : Apart d' exported st st') (hdisjoint : Disjoint d d') :
    Untouched d st st' := by
  have hinside : ∀ {α : Type} (name : α → String) (l : List α),
      (l.filter fun a => ¬ below d' (name a)).filter (fun a => below d (name a)) =
        l.filter fun a => below d (name a) := by
    intro α name l
    refine filter_filter_inside fun a _ ha => ?_
    exact decide_eq_true (Bool.eq_false_iff.mp (hdisjoint _ ha))
  have hs := hinside Snapshot.name st.snapshots
  have hf := hinside Filesystem.name st.filesystems
  have hs' := hinside Snapshot.name st'.snapshots
  have hf' := hinside Filesystem.name st'.filesystems
  constructor
  · rw [← hs, ← hs']
    exact congrArg _ h.snapshots
  · rw [← hf, ← hf']
    rcases h.filesystems with hsame | ⟨-, hsame⟩
    · exact Or.inl (congrArg _ hsame)
    · right
      refine (congrArg _ hsame).trans ?_
      rw [List.filter_map]
      rfl

end Zfs

namespace BranchDB.ZfsAgent

open Concur Net Zfs

/-- Calls of a client, one after the other, whatever comes of each. -/
def session (p : Provider (Prog Invocation Invocation.Reply)) :
    List VolumeCall → Prog Invocation Invocation.Reply Unit
  | [] => .ret ()
  | c :: cs => remote p c >>= fun _ => session p cs

variable {keys : List String} {ds : String → AgentProvider} {token d key : String}
  {m m' : Machine} {tr : List (Event Invocation Invocation.Reply Machine)}

/-- A call that can be understood, of a type that is not that of the dataset. -/
structure Foreign (keys : List String) (ds : String → AgentProvider) (d : String)
    (c : VolumeCall) : Prop where
  tame : Tame c
  served : ∃ key, servedBy keys (utf8 (dbTypeOf c)) = some key ∧
    '@' ∉ (ds key).dataset.toList ∧ Disjoint d (ds key).dataset

/-- What one call does. -/
theorem remote_ends {c : VolumeCall} {r : c.Reply} (htoken : Sendable token) (hc : Tame c)
    (hserved : servedBy keys (utf8 (dbTypeOf c)) = some key)
    (h : (remote (clientOf (agent keys token) token) c).Ends (hosted ds) m tr r m') :
    ∃ reply, hosted ds ⟨key, onAgent c⟩ m reply m' ∧ r = answer keys c reply := by
  rw [remote_eq htoken hc hserved] at h
  obtain ⟨reply, m₁, rest, hhosted, hrest, -⟩ := Prog.ends_call.mp h
  obtain ⟨-, rfl, rfl⟩ := Prog.ends_ret.mp hrest
  exact ⟨reply, hhosted, rfl⟩

theorem session_preserved (J : Machine → Prop) (ok : VolumeCall → Prop)
    (hJ : ∀ c, ok c → ∀ {tr r m m'}, J m →
      (remote (clientOf (agent keys token) token) c).Ends (hosted ds) m tr r m' → J m')
    {cs : List VolumeCall} (hcs : ∀ c ∈ cs, ok c) (hm : J m)
    (h : (session (clientOf (agent keys token) token) cs).Ends (hosted ds) m tr () m') : J m' := by
  induction cs generalizing m tr with
  | nil =>
      obtain ⟨-, -, rfl⟩ := Prog.ends_ret.mp h
      exact hm
  | cons c cs ih =>
      obtain ⟨r, m₁, first, rest, hfirst, hrest, -⟩ := Prog.ends_bind.mp h
      have hm₁ : J m₁ := hJ c (hcs c List.mem_cons_self) hm hfirst
      exact ih (fun c' hc' => hcs c' (List.mem_cons_of_mem _ hc')) hm₁ hrest

/-! ## Main result -/

/-- A session of calls for other types leaves a dataset as it was; one that only lists leaves the
host as it was. -/
theorem others_untouched (htoken : Sendable token) {cs : List VolumeCall}
    (hcs : ∀ c ∈ cs, Foreign keys ds d c)
    (h : (session (clientOf (agent keys token) token) cs).Ends (hosted ds) m tr () m') :
    Untouched d m.store m'.store ∧ ((∀ c ∈ cs, (onAgent c).lists = true) → m' = m) := by
  constructor
  · refine session_preserved (fun m' => Untouched d m.store m'.store) (Foreign keys ds d) ?_ hcs
      (.refl d m.store) h
    intro c hc tr r m₁ m₂ hm₁ hends
    obtain ⟨key, hserved, hat, hdisjoint⟩ := hc.served
    obtain ⟨reply, ⟨tr', hrun⟩, -⟩ := remote_ends htoken hc.tame hserved hends
    have hreaches := Reaches.of_runs hat (keeps (ds key) (onAgent c)) hrun
    exact hm₁.trans (hreaches.store.untouched hdisjoint)
  · intro hlists
    refine session_preserved (· = m) (fun c => Foreign keys ds d c ∧ (onAgent c).lists = true) ?_
      (fun c hc => ⟨hcs c hc, hlists c hc⟩) rfl h
    intro c hc tr r m₁ m₂ hm₁ hends
    obtain ⟨key, hserved, -, -⟩ := hc.1.served
    obtain ⟨reply, ⟨tr', hrun⟩, -⟩ := remote_ends htoken hc.1.tame hserved hends
    exact (same_of_runs (looks (ds key) hc.2) hrun).trans hm₁

/-- A provider on a host on which nothing goes wrong. -/
def serveHosted (ds : String → AgentProvider) (i : Invocation) (m : Machine) : i.Reply × Machine :=
  (volumeProvider (ds i.key) i.call).run (Machine.serve Machine.quiet) m

theorem hosted_serve (i : Invocation) (m : Machine) :
    hosted ds i m (serveHosted ds i m).1 (serveHosted ds i m).2 :=
  Machine.serve_ends Machine.quiet (volumeProvider (ds i.key) i.call) m

/-- Resetting the databases of PostgreSQL. -/
def demoSession : Prog Invocation Invocation.Reply Unit :=
  session (clientOf (agent ["mysql", "postgres"] "secret") "secret")
    [.gcSnapshots "postgres" 3, .resetDataset "postgres"]

theorem others_untouched_demo : Untouched "tank/mysql" Machine.demo.store
    (demoSession.run (serveHosted fun key => ⟨"tank/" ++ key⟩) Machine.demo).2.store := by
  obtain ⟨tr, h⟩ := Prog.ends_run hosted_serve demoSession Machine.demo
  have hdisjoint : Disjoint "tank/mysql" "tank/postgres" := disjoint_of (by decide)
  have hforeign : ∀ c, Tame c → dbTypeOf c = "postgres" →
      Foreign ["mysql", "postgres"] (fun key => ⟨"tank/" ++ key⟩) "tank/mysql" c := by
    intro c hc htype
    exact ⟨hc, "postgres", by rw [htype]; decide, by decide, hdisjoint⟩
  refine (others_untouched (by decide) ?_ h).1
  intro c hc
  rcases List.mem_cons.mp hc with rfl | hc
  · exact hforeign _ ⟨by decide, by decide, by decide⟩ rfl
  · obtain rfl := List.mem_singleton.mp hc
    exact hforeign _ ⟨by decide, trivial⟩ rfl

end BranchDB.ZfsAgent
