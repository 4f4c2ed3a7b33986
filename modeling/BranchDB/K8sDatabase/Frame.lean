/-
# `BranchDB.K8sDatabase.Frame` — whose objects Start and Stop touch

An object belongs to a branch if a Start of that branch created it.  The names of a
branch's objects are made from the branch's name, those of different branches differ
(`branchKeys_inj`), and a Create leaves alone what it finds: so calls for one branch
never change what a Start of another created (`untouched_between_branches`).

Delete goes by the name only.  The Service has the bare name of the branch, in the
namespace in which the release puts its own Services, and nothing asks whether what
bears the name was created by Start.  Stop therefore leaves other objects alone exactly
if none of them has one of the branch's five names (`ownOnly_iff`); a branch called
`branchdb-api` takes the Service of the API server with it (`apiServer_deleted`).
-/
import BranchDB.K8sDatabase.Start

namespace BranchDB.K8s

open Concur Relation

/-! ## Who created what -/

/-- A call made for a branch. -/
structure Request where
  branch : String
  call : Call
deriving DecidableEq, Repr

abbrev Request.Reply (q : Request) : Type := q.call.Reply

/-- The provider, as it works for one branch. -/
def onBehalfOf (ns : String) (imageOverrides : List (String × String)) (branch : String) :
    Provider (Prog Request Request.Reply) where
  client c := Prog.perform (Request.mk branch c)
  ns := ns
  imageOverrides := imageOverrides

/-- The calls of the provider. -/
inductive BranchCall
  | start (b : Branch)
  | stop (branch : String)
deriving DecidableEq, Repr

def BranchCall.prog (ns : String) (imageOverrides : List (String × String)) :
    BranchCall → Prog Request Request.Reply (Except GoError Unit)
  | .start b => do
    let r ← K8s.start (onBehalfOf ns imageOverrides b.name) b.name b.vol b.dbType b.dbVersion
    return r.map fun _ => ()
  | .stop branch => K8s.stop (onBehalfOf ns imageOverrides branch) branch

/-- The cluster, and which branch's Start created the object under a key. -/
structure Ledger where
  cluster : Cluster
  creator : Key → Option String

/-- Who created what is there after a move of `author`. -/
def credit (author : Option String) (c c' : Cluster) (creator : Key → Option String) (k : Key) :
    Option String :=
  match c k, c' k with
  | _, none => none
  | none, some _ => author
  | some _, some _ => creator k

/-- Start and Stop calls, one after the other, of which any may be cut short, on a cluster
none of whose objects the provider created.  Others may do what they like under the keys
`others`. -/
def calling (ns : String) (imageOverrides : List (String × String)) (calls : BranchCall → Prop)
    (others : Key → Prop) (c₀ : Cluster) :
    System Request Request.Reply Ledger (Except GoError Unit) where
  init l := l = ⟨c₀, fun _ => none⟩
  exec q l r l' := Exec q.call l.cluster r l'.cluster ∧
    l'.creator = credit (some q.branch) l.cluster l'.cluster l.creator
  env l l' := Ambient others l.cluster l'.cluster ∧
    l'.creator = credit none l.cluster l'.cluster l.creator
  start l l' := l' = l
  main p := ∃ call, calls call ∧ p = call.prog ns imageOverrides

/-- Every object that a call of Start or Stop changes was created by a Start of its branch. -/
def OwnOnly (S : System Request Request.Reply Ledger (Except GoError Unit)) : Prop :=
  ∀ l q next r l', S.Reach ⟨l, some (.call q next)⟩ → S.exec q l r l' →
    ∀ k o, l.cluster k = some o → l.creator k ≠ some q.branch → l'.cluster k = some o

variable {ns : String} {imageOverrides : List (String × String)} {calls : BranchCall → Prop}
  {others : Key → Prop} {c₀ c c' : Cluster} {l l' : Ledger} {k : Key} {o : Object}

/-! ## Names -/

/-- A key is that of one branch at most. -/
theorem branchKeys_inj {a b : String} (ha : k ∈ branchKeys ns a) (hb : k ∈ branchKeys ns b) :
    a = b := by
  simp only [branchKeys, List.mem_cons, List.not_mem_nil, or_false] at ha hb
  rcases ha with rfl | rfl | rfl | rfl | rfl <;>
    simpa [serviceKey, podKey, cmKey, pvcKey, pvKey, podName, cmName, pvcName, pvName] using hb

/-! ## The calls -/

/-- What is called for a branch: Creates under its names, and Deletes of its names by its Stop. -/
def Request.Proper (ns : String) (calls : BranchCall → Prop) (q : Request) : Prop :=
  match q.call with
  | .create o => o.key ∈ branchKeys ns q.branch
  | .getService _ => True
  | .delete k => k ∈ branchKeys ns q.branch ∧ calls (.stop q.branch)

theorem only_deleteEach {E : Type} {R : E → Type} {P : E → Prop} {p : Provider (Prog E R)}
    {ks : List Key} (h : ∀ k ∈ ks, (p.client (.delete k)).Only P) : (deleteEach p ks).Only P := by
  induction ks with
  | nil => exact .ret
  | cons k ks ih =>
      refine .bind (h k List.mem_cons_self) fun _ => ih ?_
      intro k' hk'
      exact h k' (List.mem_cons_of_mem _ hk')

theorem BranchCall.only_prog {call : BranchCall} (hcall : calls call) :
    (call.prog ns imageOverrides).Only (Request.Proper ns calls) := by
  cases call with
  | start b =>
      refine .bind (only_start (fun _ _ o ho => ?_) fun _ => ?_) fun _ => .ret
      · exact .perform (startObjects_keys ho)
      · exact .perform trivial
  | stop branch =>
      rw [BranchCall.prog, stop_eq_deleteEach]
      exact only_deleteEach fun k hk => .perform ⟨hk, hcall⟩

/-- Every call made is proper. -/
theorem sound_calling : System.Sound (calling ns imageOverrides calls others c₀)
    ⟨fun _ => True, fun q _ => Request.Proper ns calls q⟩ where
  init _ _ := trivial
  env _ _ _ _ := trivial
  start _ _ _ _ := trivial
  call _ _ _ _ _ _ _ := trivial
  main p _ _ hp _ _ := by
    obtain ⟨call, hcall, rfl⟩ := hp
    exact System.holds_of_only fun q hq _ _ => BranchCall.only_prog hcall q hq

/-! ## What a call changes -/

/-- A call changes what is there only by deleting it. -/
theorem Effect.untouched {call : Call} (h : Effect c call c') (hk : call ≠ .delete k)
    (ho : c k = some o) : c' k = some o := by
  cases h with
  | nothing => exact ho
  | @created o' hfree =>
      have hne : k ≠ o'.key := fun he => by simp [← he, ho] at hfree
      rw [Function.update_of_ne hne, ho]
  | @removed k' | @marked k' =>
      have hne : k ≠ k' := fun he => hk (he ▸ rfl)
      rw [Function.update_of_ne hne, ho]

/-- What a call puts where nothing was, it was asked to create. -/
theorem Effect.appears {call : Call} (h : Effect c call c') (hnone : c k = none)
    (hsome : c' k ≠ none) : ∃ o, call = .create o ∧ o.key = k := by
  cases h with
  | nothing => exact absurd hnone hsome
  | @created o' hfree =>
      refine ⟨o', rfl, ?_⟩
      by_contra hne
      exact hsome (by rw [Function.update_of_ne fun he => hne he.symm, hnone])
  | @removed k' _ ho | @marked k' _ ho =>
      have hne : k ≠ k' := fun he => by simp [← he, hnone] at ho
      exact absurd (by rw [Function.update_of_ne hne, hnone]) hsome

/-! ## Who created what, along a run -/

/-- What is under the key of a branch that may be stopped, a Start of that branch created;
and what a Start of a branch created is under a key of the branch. -/
structure Accounted (ns : String) (stopped : String → Prop) (l : Ledger) : Prop where
  key : ∀ k o b, l.cluster k = some o → l.creator k = some b → k ∈ branchKeys ns b
  stopped : ∀ k o b, stopped b → l.cluster k = some o → k ∈ branchKeys ns b → l.creator k = some b

variable {author : Option String} {stopped : String → Prop}

theorem Accounted.after (h : Accounted ns stopped l)
    (hcredit : l'.creator = credit author l.cluster l'.cluster l.creator)
    (hnew : ∀ k, l.cluster k = none → l'.cluster k ≠ none →
      (∀ b, author = some b → k ∈ branchKeys ns b) ∧
      ∀ b, stopped b → k ∈ branchKeys ns b → author = some b) :
    Accounted ns stopped l' := by
  have hcreator : ∀ k o, l'.cluster k = some o →
      (l.cluster k = none ∧ l'.creator k = author) ∨
        (∃ o, l.cluster k = some o) ∧ l'.creator k = l.creator k := by
    intro k o ho
    rw [hcredit]
    cases hk : l.cluster k with
    | none => exact Or.inl ⟨rfl, by simp [credit, hk, ho]⟩
    | some o => exact Or.inr ⟨⟨o, rfl⟩, by simp [credit, hk, ho]⟩
  constructor
  · intro k o b ho hb
    rcases hcreator k o ho with ⟨hnone, hauthor⟩ | ⟨⟨o', ho'⟩, hsame⟩
    · exact (hnew k hnone (by simp [ho])).1 b (hauthor ▸ hb)
    · exact h.key k o' b ho' (hsame ▸ hb)
  · intro k o b hb ho hk
    rcases hcreator k o ho with ⟨hnone, hauthor⟩ | ⟨⟨o', ho'⟩, hsame⟩
    · rw [hauthor]
      exact (hnew k hnone (by simp [ho])).2 b hb hk
    · rw [hsame]
      exact h.stopped k o' b hb ho' hk

/-- A move of the cluster by itself makes nothing appear but under the keys of others. -/
theorem ambient_appears (h : Ambient others c c') (hnone : c k = none) (hsome : c' k ≠ none) :
    others k := by
  by_contra hk
  have hsurv := h.survives hk
  rw [hnone] at hsurv
  exact hsome hsurv.of_none

/-- What the ledger says holds in every run, as long as what is there at the beginning and
what others do stays clear of the branches that may be stopped. -/
theorem accounted_reach {p : Option (Prog Request Request.Reply (Except GoError Unit))}
    (hclear : ∀ b, stopped b → ∀ k ∈ branchKeys ns b, c₀ k = none ∧ ¬ others k)
    (h : (calling ns imageOverrides calls others c₀).Reach ⟨l, p⟩) :
    Accounted ns stopped l := by
  refine System.Preserved.reach (J := Accounted ns stopped) sound_calling
    ⟨fun l l' _ hl hmove => ?_, fun l l' _ hl hst => ?_, fun q l r l' _ hl hq hex => ?_⟩
    (fun l hl => ?_) h
  · refine hl.after hmove.2 fun k hnone hsome => ⟨fun b hb => (nomatch hb), fun b hb hk => ?_⟩
    exact absurd (ambient_appears hmove.1 hnone hsome) (hclear b hb k hk).2
  · cases hst
    exact hl
  · refine hl.after hex.2 ?_
    intro k hnone hsome
    obtain ⟨o, hcall, rfl⟩ := hex.1.effect.appears hnone hsome
    have hkey : o.key ∈ branchKeys ns q.branch := by
      have hq : Request.Proper ns calls q := hq
      rw [Request.Proper, hcall] at hq
      exact hq
    refine ⟨fun b hb => Option.some.inj hb ▸ hkey, ?_⟩
    intro b _ hk
    rw [branchKeys_inj hkey hk]
  · cases hl
    exact ⟨fun _ _ _ _ hb => (nomatch hb),
      fun k o b hb ho hk => by simp [(hclear b hb k hk).1] at ho⟩

/-! ## Main results -/

/-- Calls for one branch never change what a Start of another branch created, whatever else
is in the cluster. -/
theorem untouched_between_branches {q : Request} {r : q.Reply} {b : String}
    {next : q.Reply → Prog Request Request.Reply (Except GoError Unit)}
    (h : (calling ns imageOverrides calls others c₀).Reach ⟨l, some (.call q next)⟩)
    (hex : (calling ns imageOverrides calls others c₀).exec q l r l')
    (ho : l.cluster k = some o) (hb : l.creator k = some b) (hne : b ≠ q.branch) :
    l'.cluster k = some o := by
  have hacc : Accounted ns (fun _ => False) l := accounted_reach (fun _ hb => hb.elim) h
  have hproper : Request.Proper ns calls q := h.guarded sound_calling ⟨next, rfl⟩
  refine hex.1.effect.untouched (fun hcall => hne ?_) ho
  rw [Request.Proper, hcall] at hproper
  exact branchKeys_inj (hacc.key k o b ho hb) hproper.1

/-- Nobody has created anything as long as the calls make nothing appear. -/
theorem credit_unclaimed {author : Option String}
    (h : author = none ∨ ∀ k, c k = none → c' k = none) :
    credit author c c' (fun _ => none) = fun _ => none := by
  funext k
  rcases h with rfl | h
  · cases hc : c k <;> cases hc' : c' k <;> simp [credit, hc, hc']
  · cases hc : c k with
    | none => simp [credit, hc, h k hc]
    | some o => cases hc' : c' k <;> simp [credit, hc, hc']

/-- Stop comes to each of its Deletes, even if none before is served. -/
theorem reach_delete {branch : String} {ks : List Key} (hk : k ∈ ks)
    (hcreator : l.creator = fun _ => none)
    (h : (calling ns imageOverrides calls others c₀).Reach
      ⟨l, some (deleteEach (onBehalfOf ns imageOverrides branch) ks)⟩) :
    ∃ next, (calling ns imageOverrides calls others c₀).Reach
      ⟨l, some (.call (Request.mk branch (.delete k)) next)⟩ := by
  induction ks with
  | nil => cases hk
  | cons k' ks ih =>
      rcases List.mem_cons.mp hk with rfl | hk
      · exact ⟨_, h⟩
      · have hserved : ∃ served, DeleteServed l.cluster k' served := by
          cases hc : l.cluster k' with
          | none => exact ⟨_, .notFound hc⟩
          | some o => exact ⟨_, .removed hc⟩
        obtain ⟨served, hserved⟩ := hserved
        have hsame : l.creator = credit (some branch) l.cluster l.cluster l.creator := by
          rw [hcreator]
          exact (credit_unclaimed (Or.inr fun _ => id)).symm
        refine ih hk (h.step (.call (.error (errorf "")) ⟨⟨served, hserved, ?_⟩, hsame⟩))
        exact .dropped rfl

/-- If only own objects are touched, nothing of others has a name that Stop deletes. -/
theorem OwnOnly.absent (h : OwnOnly (calling ns imageOverrides calls others c₀)) {branch : String}
    (hcall : calls (.stop branch)) (hk : k ∈ branchKeys ns branch)
    (hcreator : l.creator = fun _ => none)
    (hreach : (calling ns imageOverrides calls others c₀).Reach ⟨l, none⟩) :
    l.cluster k = none := by
  obtain ⟨next, hdelete⟩ := reach_delete hk hcreator
    (hreach.step (.start ⟨.stop branch, hcall, stop_eq_deleteEach _ _⟩ rfl))
  by_contra hsome
  obtain ⟨o, ho⟩ := Option.ne_none_iff_exists'.mp hsome
  have hexec : (calling ns imageOverrides calls others c₀).exec (Request.mk branch (.delete k)) l
      (.ok ()) ⟨Function.update l.cluster k none, credit (some branch) l.cluster
        (Function.update l.cluster k none) l.creator⟩ :=
    ⟨⟨_, .removed ho, .answered⟩, rfl⟩
  have hkept := h l _ next _ _ hdelete hexec k o ho (by simp [hcreator])
  simp at hkept

/-- In all runs of Start calls and of Stop calls for certain branches, on a cluster with any
objects of others, the calls for a branch touch only what a Start of that branch created:
exactly if no object of others has, or can be given, one of the five names of a branch that
is stopped. -/
theorem ownOnly_iff : OwnOnly (calling ns imageOverrides calls others c₀) ↔
    ∀ branch, calls (.stop branch) → ∀ k ∈ branchKeys ns branch, c₀ k = none ∧ ¬ others k := by
  constructor
  · intro h branch hcall k hk
    refine ⟨h.absent hcall hk rfl (.init rfl), ?_⟩
    intro hothers
    -- somebody puts an object there before Stop is called
    have hreach : (calling ns imageOverrides calls others c₀).Reach
        ⟨⟨Function.update c₀ k (some ⟨k, [], .configMap [], false, none⟩), fun _ => none⟩, none⟩ :=
      .step (.init rfl) (.env ⟨.other _ hothers, (credit_unclaimed (Or.inl rfl)).symm⟩)
    have habsent := h.absent hcall hk rfl hreach
    simp at habsent
  · intro hclear l q next r l' hreach hex k o ho hcreator
    have hacc : Accounted ns (fun b => calls (.stop b)) l := accounted_reach hclear hreach
    have hproper : Request.Proper ns calls q := hreach.guarded sound_calling ⟨next, rfl⟩
    refine hex.1.effect.untouched (fun hcall => hcreator ?_) ho
    rw [Request.Proper, hcall] at hproper
    exact hacc.stopped k o q.branch hproper.2 ho hproper.1

/-! ## The API server's Service -/

/-- The Service through which a release named `branchdb` exposes its API server. -/
def apiServerService : Object where
  key := serviceKey "branchdb" "branchdb-api"
  labels := [("app.kubernetes.io/name", "branchdb"), ("app.kubernetes.io/instance", "branchdb")]
  spec := .service
    { type := .clusterIP
      selector := [("app.kubernetes.io/name", "branchdb-api"),
        ("app.kubernetes.io/instance", "branchdb")]
      ports := [⟨8080, 8080, 0⟩] }

/-- A release without branches. -/
def release : Cluster :=
  Function.update (fun _ => none) apiServerService.key (some apiServerService)

/-- Stop of a branch of that name deletes it. -/
theorem apiServer_deleted : ¬ OwnOnly
    (calling "branchdb" [] (· = .stop "branchdb-api") (fun _ => False) release) := by
  intro h
  have hkey : apiServerService.key ∈ branchKeys "branchdb" "branchdb-api" := List.mem_cons_self
  have habsent := h.absent rfl hkey rfl (.init rfl)
  simp [release] at habsent

end BranchDB.K8s
