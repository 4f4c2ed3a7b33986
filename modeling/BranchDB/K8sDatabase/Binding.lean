/-
# `BranchDB.K8sDatabase.Binding` — which volume a branch gets

The branches' Starts run interleaved, and the binder of the cluster gives any waiting
claim any free volume that fits it.  `createPVC` names no volume and `createPV` reserves
its volume for no claim, so a claim may be given the volume of another branch
(`shared_volume`).  It cannot as long as the names of the branches are free at first, and,
whenever a claim is created, no volume but that of its own branch is free to fit it, and
whenever a volume is created, no claim but that of its own branch waits for one it fits
(`isolated`).
-/
import BranchDB.Concur.Pool
import BranchDB.K8sDatabase.Start

namespace BranchDB.K8s

open Concur Relation

/-! ## The binder -/

/-- The key of the PersistentVolume `v`. -/
def volumeKey (v : String) : Key := ⟨.persistentVolume, "", v⟩

/-- The volume satisfies what the claim asks for, and is not reserved for another. -/
def Fits (claim pv : Object) : Prop :=
  ∃ s p, claim.spec = .persistentVolumeClaim s ∧ pv.spec = .persistentVolume p ∧
    s.storageClassName.getD "" = p.storageClassName ∧ s.accessModes ⊆ p.accessModes ∧
    s.requests ≤ p.capacity ∧ (s.volumeName = "" ∨ s.volumeName = pv.key.name) ∧
    (∀ selector, s.selector = some selector → selector ⊆ pv.labels) ∧
    ∀ ref, p.claimRef = some ref → ref = (claim.key.ns, claim.key.name)

/-- No claim has the volume. -/
def Unbound (c : Cluster) (v : String) : Prop :=
  ∀ k o, k.kind = .persistentVolumeClaim → c k = some o → o.volume ≠ some v

/-- The claim may be given the volume `v`. -/
def Candidate (c : Cluster) (claim : Object) (v : String) : Prop :=
  (∃ pv, c (volumeKey v) = some pv ∧ Fits claim pv) ∧ Unbound c v

/-- A move of the cluster while Starts run: a waiting claim is bound, or a Service gets its
node ports. -/
inductive Binding (c : Cluster) : Cluster → Prop
  | bind {k : Key} {claim : Object} {v : String} : k.kind = .persistentVolumeClaim →
      c k = some claim → claim.volume = none → Candidate c claim v →
      Binding c (Function.update c k (some { claim with volume := some v }))
  | assign {k : Key} {o : Object} {s : ServiceSpec} {ports : List ServicePort} :
      k.kind = .service → c k = some o → o.spec = .service s →
      List.Forall₂ ServicePort.Assigned s.ports ports →
      Binding c (Function.update c k (some { o with spec := .service { s with ports } }))

/-- The cluster as Starts find it. -/
def binding : Pool Call Call.Reply Cluster := ⟨Exec, Binding⟩

/-! ## The Starts -/

/-- The calls Start makes for a branch. -/
def Branch.Makes (ns : String) (b : Branch) : Call → Prop
  | .create o => ∃ image cfg, o ∈ startObjects ns b.name b.vol image cfg
  | .getService _ => True
  | .delete _ => False

variable {ns : String} {imageOverrides : List (String × String)}

theorem Branch.only_start (b : Branch) : (b.start ns imageOverrides).Only (b.Makes ns) :=
  K8s.only_start (fun image cfg _ ho => .perform ⟨image, cfg, ho⟩) fun _ => .perform trivial

/-! ## Names -/

theorem pvKey_inj {a b : String} (h : pvKey a = pvKey b) : a = b := by
  simpa [pvKey, pvName] using h

theorem pvcKey_inj {a b : String} (h : pvcKey ns a = pvcKey ns b) : a = b := by
  simpa [pvcKey, pvcName] using h

theorem podKey_inj {a b : String} (h : podKey ns a = podKey ns b) : a = b := by
  simpa [podKey, podName] using h

theorem volumeKey_inj {a b : String} (h : volumeKey a = volumeKey b) : a = b := by
  simpa [volumeKey] using h

/-! ## Isolation -/

variable {ι : Type} {branch : ι → Branch}

/-- Claims and volumes of the branches are paired, as far as the binder has come. -/
structure Isolation (ns : String) (branch : ι → Branch) (c : Cluster) : Prop where
  pv : ∀ i o, c (pvKey (branch i).name) = some o → o = pvObject (branch i).name (branch i).vol
  pod : ∀ i o, c (podKey ns (branch i).name) = some o →
    ∃ image cfg, o = podObject ns (branch i).name image cfg
  pending : ∀ i o, c (pvcKey ns (branch i).name) = some o → o.volume = none →
    ∀ v, Candidate c o v → v = pvName (branch i).name
  bound : ∀ i o v, c (pvcKey ns (branch i).name) = some o → o.volume = some v →
    v = pvName (branch i).name ∧ (c (volumeKey v)).isSome

/-- A claim is created when only its branch's volume is free to fit it, a volume when no
claim but its branch's waits for one it fits. -/
def Paired (ns : String) (branch : ι → Branch) (e : Call) (c : Cluster) : Prop :=
  ∀ o, e = .create o →
    (∀ i, o.key = pvcKey ns (branch i).name → ∀ v, Candidate c o v → v = pvName (branch i).name) ∧
    (∀ i, o.key = pvKey (branch i).name → ∀ k claim, k.kind = .persistentVolumeClaim →
      c k = some claim → claim.volume = none → Fits claim o → k = pvcKey ns (branch i).name)

/-- What the objects of a Start are, by their keys. -/
structure Proper (ns : String) (branch : ι → Branch) (o : Object) : Prop where
  volume : o.volume = none
  pv : o.key.kind = .persistentVolume → ∃ i, o = pvObject (branch i).name (branch i).vol
  pod : ∀ i, o.key = podKey ns (branch i).name →
    ∃ image cfg, o = podObject ns (branch i).name image cfg

theorem proper_startObjects {i : ι} {image : String} {cfg : DbConfig} {o : Object}
    (ho : o ∈ startObjects ns (branch i).name (branch i).vol image cfg) :
    Proper ns branch o := by
  unfold startObjects at ho
  have hcases : o = pvObject (branch i).name (branch i).vol ∨
      o = podObject ns (branch i).name image cfg ∨
      (o.volume = none ∧ o.key.kind ≠ .persistentVolume ∧ o.key.kind ≠ .pod) := by
    split at ho <;> simp only [List.cons_append, List.nil_append, List.mem_cons, List.not_mem_nil,
      or_false] at ho <;> rcases ho with rfl | rfl | rfl | rfl | rfl <;>
      simp [pvObject, pvcObject, cmObject, podObject, serviceObject, pvKey, pvcKey, cmKey, podKey,
        serviceKey]
  rcases hcases with rfl | rfl | ⟨hvol, hpv, hpod⟩
  · exact ⟨rfl, fun _ => ⟨i, rfl⟩, fun j hj => by simp [pvKey, podKey] at hj⟩
  · refine ⟨rfl, fun hkind => (by cases hkind), ?_⟩
    intro j hj
    rw [← podKey_inj (show podKey ns (branch i).name = podKey ns (branch j).name from hj)]
    exact ⟨image, cfg, rfl⟩
  · exact ⟨hvol, fun hkind => absurd hkind hpv, fun j hj => absurd (hj ▸ rfl) hpod⟩

/-- The candidates after an object was created. -/
theorem Candidate.of_update {c : Cluster} {k : Key} {o claim : Object} {v : String}
    (hfree : c k = none) (h : Candidate (Function.update c k (some o)) claim v) :
    (volumeKey v = k ∧ Fits claim o) ∨ Candidate c claim v := by
  obtain ⟨⟨pv, hpv, hfits⟩, hunbound⟩ := h
  by_cases hk : volumeKey v = k
  · rw [hk, Function.update_self, Option.some.injEq] at hpv
    exact Or.inl ⟨hk, hpv ▸ hfits⟩
  · refine Or.inr ⟨⟨pv, by simpa [hk] using hpv, hfits⟩, ?_⟩
    intro k' o' hkind ho'
    have hne : k' ≠ k := fun he => by simp [he, hfree] at ho'
    exact hunbound k' o' hkind (by simpa [hne] using ho')

theorem Unbound.update {c : Cluster} {v : String} (h : Unbound c v) (k : Key) {o : Object}
    (ho : o.volume ≠ some v) : Unbound (Function.update c k (some o)) v := by
  intro k' o' hkind ho'
  by_cases hk : k' = k
  · rw [hk, Function.update_self, Option.some.injEq] at ho'
    exact ho' ▸ ho
  · exact h k' o' hkind (by simpa [hk] using ho')

theorem Isolation.create (hname : Function.Injective fun i => (branch i).name) {c : Cluster}
    {o : Object} (h : Isolation ns branch c) (hfree : c o.key = none)
    (ho : Proper ns branch o) (hok : Paired ns branch (.create o) c) :
    Isolation ns branch (Function.update c o.key (some o)) := by
  obtain ⟨hclaim, hvolume⟩ := hok o rfl
  constructor
  · intro i o' ho'
    by_cases hk : pvKey (branch i).name = o.key
    · rw [hk, Function.update_self, Option.some.injEq] at ho'
      subst ho'
      obtain ⟨j, rfl⟩ := ho.pv (by rw [← hk]; rfl)
      rw [hname (pvKey_inj hk)]
    · exact h.pv i o' (by simpa [hk] using ho')
  · intro i o' ho'
    by_cases hk : podKey ns (branch i).name = o.key
    · rw [hk, Function.update_self, Option.some.injEq] at ho'
      exact ho' ▸ ho.pod i hk.symm
    · exact h.pod i o' (by simpa [hk] using ho')
  · intro i claim hc hnone v hv
    by_cases hk : pvcKey ns (branch i).name = o.key
    · rw [hk, Function.update_self, Option.some.injEq] at hc
      subst hc
      rcases hv.of_update hfree with ⟨hkey, -⟩ | hv
      · rw [← hk] at hkey
        cases hkey
      · exact hclaim i hk.symm v hv
    · have hc : c (pvcKey ns (branch i).name) = some claim := by simpa [hk] using hc
      rcases hv.of_update hfree with ⟨hkey, hfits⟩ | hv
      · -- the volume just created: it fits the claim of its own branch only
        obtain ⟨j, rfl⟩ := ho.pv (by rw [← hkey]; rfl)
        have hij := pvcKey_inj (hvolume j rfl _ claim rfl hc hnone hfits)
        rw [hij]
        exact volumeKey_inj hkey
      · exact h.pending i claim hc hnone v hv
  · intro i claim v hc hsome
    by_cases hk : pvcKey ns (branch i).name = o.key
    · rw [hk, Function.update_self, Option.some.injEq] at hc
      simp [← hc, ho.volume] at hsome
    · obtain ⟨hv, hpv⟩ := h.bound i claim v (by simpa [hk] using hc) hsome
      refine ⟨hv, ?_⟩
      by_cases hkv : volumeKey v = o.key
      · simp [hkv]
      · simpa [hkv] using hpv

/-- The binder gives a waiting claim of a branch nothing but its volume. -/
theorem Isolation.bind {c : Cluster} {k : Key} {claim : Object} {v : String}
    (h : Isolation ns branch c) (hkind : k.kind = .persistentVolumeClaim) (hc : c k = some claim)
    (hnone : claim.volume = none) (hv : Candidate c claim v) :
    Isolation ns branch (Function.update c k (some { claim with volume := some v })) := by
  have hother : ∀ k', k'.kind ≠ .persistentVolumeClaim →
      Function.update c k (some { claim with volume := some v }) k' = c k' := by
    intro k' hk'
    have hne : k' ≠ k := fun he => hk' (he ▸ hkind)
    simp [hne]
  have hunbound : ∀ v', Unbound (Function.update c k (some { claim with volume := some v })) v' →
      Unbound c v' := by
    intro v' h' k' o hk' ho
    by_cases he : k' = k
    · subst he
      rw [hc, Option.some.injEq] at ho
      simp [← ho, hnone]
    · exact h' k' o hk' (by simpa [he] using ho)
  constructor
  · intro i o ho
    rw [hother _ (by simp [pvKey])] at ho
    exact h.pv i o ho
  · intro i o ho
    rw [hother _ (by simp [podKey])] at ho
    exact h.pod i o ho
  · intro i o ho hnone' v' hcand
    obtain ⟨⟨pv, hpv, hfits⟩, hv'⟩ := hcand
    by_cases hk : pvcKey ns (branch i).name = k
    · rw [hk, Function.update_self, Option.some.injEq] at ho
      simp [← ho] at hnone'
    · rw [hother _ (by simp [volumeKey])] at hpv
      exact h.pending i o (by simpa [hk] using ho) hnone' v' ⟨⟨pv, hpv, hfits⟩, hunbound v' hv'⟩
  · intro i o v' ho hsome
    rw [hother _ (by simp [volumeKey])]
    by_cases hk : pvcKey ns (branch i).name = k
    · rw [hk, Function.update_self, Option.some.injEq] at ho
      subst ho
      cases hsome
      obtain ⟨pv, hpv, -⟩ := hv.1
      exact ⟨h.pending i claim (hk ▸ hc) hnone v hv, by simp [hpv]⟩
    · exact h.bound i o v' (by simpa [hk] using ho) hsome

theorem Isolation.assign {c : Cluster} {k : Key} {o : Option Object}
    (h : Isolation ns branch c) (hkind : k.kind = .service) :
    Isolation ns branch (Function.update c k o) := by
  have hother : ∀ k', k'.kind ≠ .service → Function.update c k o k' = c k' := by
    intro k' hk'
    have hne : k' ≠ k := fun he => hk' (he ▸ hkind)
    simp [hne]
  have hunbound : ∀ v, Unbound (Function.update c k o) v → Unbound c v := by
    intro v h' k' o' hk' ho'
    refine h' k' o' hk' ?_
    rw [hother k' (by simp [hk'])]
    exact ho'
  constructor
  · intro i o' ho'
    rw [hother _ (by simp [pvKey])] at ho'
    exact h.pv i o' ho'
  · intro i o' ho'
    rw [hother _ (by simp [podKey])] at ho'
    exact h.pod i o' ho'
  · intro i claim hc hnone v hcand
    obtain ⟨⟨pv, hpv, hfits⟩, hv⟩ := hcand
    rw [hother _ (by simp [pvcKey])] at hc
    rw [hother _ (by simp [volumeKey])] at hpv
    exact h.pending i claim hc hnone v ⟨⟨pv, hpv, hfits⟩, hunbound v hv⟩
  · intro i claim v hc hsome
    rw [hother _ (by simp [pvcKey])] at hc
    rw [hother _ (by simp [volumeKey])]
    exact h.bound i claim v hc hsome

theorem Isolation.env {c c' : Cluster} (h : Isolation ns branch c) (he : Binding c c') :
    Isolation ns branch c' := by
  cases he with
  | bind hkind hc hnone hv => exact h.bind hkind hc hnone hv
  | assign hkind _ _ _ => exact h.assign hkind

theorem Isolation.call (hname : Function.Injective fun i => (branch i).name) {c c' : Cluster}
    {i : ι} {e : Call} {r : e.Reply} (h : Isolation ns branch c) (he : (branch i).Makes ns e)
    (hex : Exec e c r c') (hok : Paired ns branch e c) : Isolation ns branch c' := by
  cases e with
  | create o =>
      obtain ⟨image, cfg, ho⟩ := he
      refine Outcome.elim hex h ?_
      cases hfree : c o.key with
      | none =>
          rw [create_fresh hfree]
          exact h.create hname hfree (proper_startObjects ho) hok
      | some o' =>
          rw [create_taken hfree]
          exact h
  | getService k => exact Outcome.elim hex h h
  | delete k => exact he.elim

/-! ## Main results -/

/-- The Pod of the branch mounts the volume `v`: the claim it names is bound to it. -/
def Mounts (ns : String) (c : Cluster) (b : Branch) (v : String) : Prop :=
  ∃ pod s name claim, c (podKey ns b.name) = some pod ∧ pod.spec = .pod s ∧
    ⟨"db-data", .persistentVolumeClaim name⟩ ∈ s.volumes ∧
    c ⟨.persistentVolumeClaim, ns, name⟩ = some claim ∧ claim.volume = some v

theorem Isolation.mounts {c : Cluster} (h : Isolation ns branch c) {i : ι} {v : String}
    (hm : Mounts ns c (branch i) v) :
    c (volumeKey v) = some (pvObject (branch i).name (branch i).vol) := by
  obtain ⟨pod, s, name, claim, hpod, hspec, hvol, hclaim, hv⟩ := hm
  obtain ⟨image, cfg, rfl⟩ := h.pod i pod hpod
  cases hspec
  have hname : name = pvcName (branch i).name := by
    simp only [podSpec, List.mem_cons, Volume.mk.injEq, true_and,
      VolumeSource.persistentVolumeClaim.injEq] at hvol
    rcases hvol with hvol | hvol
    · exact hvol
    · split at hvol <;> simp at hvol
  subst hname
  obtain ⟨rfl, hpv⟩ := h.bound i claim v hclaim hv
  obtain ⟨pv, hpv⟩ := Option.isSome_iff_exists.mp hpv
  rw [hpv, h.pv i pv hpv]

/-- In every interleaving of the Starts of branches with different names, whose own names are
free at first, in which claims and volumes are created `Paired`, a Pod mounts no other
volume than the one its Start created from its VolumeInfo. -/
theorem isolated [DecidableEq ι] (hname : Function.Injective fun i => (branch i).name)
    {before : Cluster} (hfree : ∀ i, ∀ k ∈ branchKeys ns (branch i).name, before k = none)
    {c : Pool.Config Call Call.Reply Cluster (Except GoError BranchEndpoint) ι}
    (hc : (binding.restrict (Paired ns branch)).Run
      ⟨before, fun i => (branch i).start ns imageOverrides⟩ c)
    {i : ι} {v : String} (hm : Mounts ns c.state (branch i) v) :
    c.state (volumeKey v) = some (pvObject (branch i).name (branch i).vol) := by
  have hbefore : Isolation ns branch before := by
    have hnone : ∀ i k o, k ∈ branchKeys ns (branch i).name → before k = some o → False := by
      intro i k o hk ho
      rw [hfree i k hk] at ho
      cases ho
    refine ⟨?_, ?_, ?_, ?_⟩
    · intro i o ho
      exact (hnone i _ o (by simp [branchKeys]) ho).elim
    · intro i o ho
      exact (hnone i _ o (by simp [branchKeys]) ho).elim
    · intro i o ho
      exact (hnone i _ o (by simp [branchKeys]) ho).elim
    · intro i o v ho
      exact (hnone i _ o (by simp [branchKeys]) ho).elim
  have hrun : Isolation ns branch c.state := by
    refine Pool.Run.preserved (P := fun i => (branch i).Makes ns) (fun _ _ h he => h.env he) ?_ hc
      (fun i => (branch i).only_start) hbefore
    intro i e s r s' he h hex
    exact h.call hname he hex.1 hex.2
  exact hrun.mounts hm

/-! ## Two branches -/

/-- A branch whose database needs no extra configuration. -/
def redisBranch (name : String) : Branch :=
  ⟨name, ⟨name, "nfs", "/tank/clones/" ++ name⟩, "redis", ""⟩

abbrev redisStart (name : String) : Prog Call Call.Reply (Except GoError BranchEndpoint) :=
  (redisBranch name).start "default" []

/-- After the first `n` calls of the Start of `b`. -/
abbrev after (n : Nat) (b : String) (c : Cluster) : Cluster := ((redisStart b).advance serve n c).2

/-- The claim of the branch `b` is bound to the volume `v`. -/
abbrev boundTo (v b : String) (c : Cluster) : Cluster :=
  Function.update c (pvcKey "default" b) (some { pvcObject "default" b with volume := some v })

/-- Two branches with volumes on different exports. -/
def two (i : Bool) : Branch := if i then redisBranch "b" else redisBranch "a"

/-- A call is `Paired` where every volume but the branch's own is bound, and every claim but
the branch's own has its volume. -/
theorem paired_of_held {o : Object} {c : Cluster} (ks : List Key)
    (hks : ∀ k, (c k).isSome → k ∈ ks)
    (hclaim : ∀ i, o.key = pvcKey ns (branch i).name → ∀ k ∈ ks, k.kind = .persistentVolume →
      k = pvKey (branch i).name ∨ ∃ k' ∈ ks, k'.kind = .persistentVolumeClaim ∧
        (c k').bind (·.volume) = some k.name)
    (hvolume : ∀ i, o.key = pvKey (branch i).name → ∀ k ∈ ks, k.kind = .persistentVolumeClaim →
      k = pvcKey ns (branch i).name ∨ (c k).bind (·.volume) ≠ none) :
    Paired ns branch (.create o) c := by
  intro o' ho'
  cases ho'
  refine ⟨?_, ?_⟩
  · intro i hi v hv
    obtain ⟨⟨pv, hpv, -⟩, hunbound⟩ := hv
    rcases hclaim i hi (volumeKey v) (hks _ (by simp [hpv])) rfl with hown | ⟨k', -, hkind, hbound⟩
    · exact volumeKey_inj hown
    · obtain ⟨claim, hc, hv⟩ := Option.bind_eq_some_iff.mp hbound
      exact absurd hv (hunbound k' claim hkind hc)
  · intro i hi k claim hkind hk hnone _
    rcases hvolume i hi k (hks k (by simp [hk])) hkind with hown | hbound
    · exact hown
    · exact absurd (by simp [hk, hnone]) hbound

theorem held_update {ks : List Key} {c : Cluster} (k : Key) (x : Option Object)
    (h : ∀ k, (c k).isSome → k ∈ ks) :
    ∀ k', (Function.update c k x k').isSome → k' ∈ k :: ks := by
  intro k' hk'
  by_cases he : k' = k
  · exact List.mem_cons.mpr (Or.inl he)
  · exact List.mem_cons_of_mem k (h k' (by simpa [he] using hk'))

/-- The volume and the claim of a branch are added. -/
theorem held_created {ks : List Key} {c : Cluster} (b : String)
    (h : ∀ k, (c k).isSome → k ∈ ks) : ∀ k, (Function.update (Function.update c
      (pvKey b) (some (pvObject b (redisBranch b).vol)))
      (pvcKey "default" b) (some (pvcObject "default" b)) k).isSome →
        k ∈ pvcKey "default" b :: pvKey b :: ks := by
  have hpv := held_update (pvKey b) (some (pvObject b (redisBranch b).vol)) h
  exact held_update (pvcKey "default" b) (some (pvcObject "default" b)) hpv

/-- Where the Starts of the two branches are. -/
abbrev Starting := Pool.Config Call Call.Reply Cluster (Except GoError BranchEndpoint) Bool

abbrev bound (v b : String) (c : Starting) : Starting := { c with state := boundTo v b c.state }

abbrev starting (l : List (Bool × Nat)) (c : Starting) : Starting :=
  Pool.turns (fun _ : Bool => serve) l c

def unstarted : Starting := ⟨fun _ => none, fun i => (two i).start "default" []⟩

/-- `a` creates its volume and its claim, which is bound; `b` creates its volume and its claim
before `a` creates its Pod; the claim of `b` is bound, and `b` creates its Pod. -/
def boundA : Starting := bound (pvName "a") "a" (starting [(false, 2)] unstarted)

def boundB : Starting := bound (pvName "b") "b" (starting [(true, 2), (false, 1)] boundA)

def allStarted : Starting := starting [(true, 1)] boundB

theorem held_unstarted : ∀ k, (unstarted.state k).isSome → k ∈ ([] : List Key) :=
  fun _ hk => nomatch hk

theorem held_boundA : ∀ k, (boundA.state k).isSome →
    k ∈ [pvcKey "default" "a", pvcKey "default" "a", pvKey "a"] := by
  exact held_update (pvcKey "default" "a") _ (held_created "a" held_unstarted)

theorem within_boundA : Pool.TurnsWithin (fun _ => serve) (fun _ => Paired "default" two)
    [(false, 2)] unstarted := by
  have hpv := held_update (pvKey "a") (some (pvObject "a" (redisBranch "a").vol)) held_unstarted
  have hvol : Paired "default" two (.create (pvObject "a" (redisBranch "a").vol)) unstarted.state :=
    paired_of_held _ held_unstarted (by decide) (by decide)
  have hclaim : Paired "default" two (.create (pvcObject "default" "a")) (Function.update
      unstarted.state (pvKey "a") (some (pvObject "a" (redisBranch "a").vol))) :=
    paired_of_held _ hpv (by decide) (by decide)
  exact ⟨⟨hvol, hclaim, trivial⟩, trivial⟩

theorem within_boundB : Pool.TurnsWithin (fun _ => serve) (fun _ => Paired "default" two)
    [(true, 2), (false, 1)] boundA := by
  have hpv := held_update (pvKey "b") (some (pvObject "b" (redisBranch "b").vol)) held_boundA
  have hvol : Paired "default" two (.create (pvObject "b" (redisBranch "b").vol)) boundA.state :=
    paired_of_held _ held_boundA (by decide) (by decide)
  have hclaim : Paired "default" two (.create (pvcObject "default" "b")) (Function.update
      boundA.state (pvKey "b") (some (pvObject "b" (redisBranch "b").vol))) :=
    paired_of_held _ hpv (by decide) (by decide)
  have hpod : Paired "default" two (.create (podObject "default" "a" "redis:7" redisConfig))
      (Function.update (Function.update boundA.state (pvKey "b")
        (some (pvObject "b" (redisBranch "b").vol))) (pvcKey "default" "b")
        (some (pvcObject "default" "b"))) :=
    paired_of_held _ (held_created "b" held_boundA) (by decide) (by decide)
  exact ⟨⟨hvol, hclaim, trivial⟩, ⟨hpod, trivial⟩, trivial⟩

theorem within_started : Pool.TurnsWithin (fun _ => serve) (fun _ => Paired "default" two)
    [(true, 1)] boundB := by
  have hpod := held_update (podKey "default" "a")
    (some (podObject "default" "a" "redis:7" redisConfig)) (held_created "b" held_boundA)
  have hbound := held_update (pvcKey "default" "b")
    (some { pvcObject "default" "b" with volume := some (pvName "b") }) hpod
  have hlast : Paired "default" two (.create (podObject "default" "b" "redis:7" redisConfig))
      boundB.state :=
    paired_of_held _ hbound (by decide) (by decide)
  exact ⟨⟨hlast, trivial⟩, trivial⟩

theorem unbound_starting (v : String) : Unbound (starting [(false, 2)] unstarted).state v := by
  have hempty : Unbound unstarted.state v := fun _ _ _ ho => nomatch ho
  have hpv := hempty.update (pvKey "a") (o := pvObject "a" (redisBranch "a").vol) nofun
  exact hpv.update (pvcKey "default" "a") (o := pvcObject "default" "a") nofun

/-- The binder gives each of the two claims its volume. -/
theorem binding_boundA : Binding (starting [(false, 2)] unstarted).state boundA.state :=
  .bind rfl rfl rfl ⟨⟨_, rfl, _, _, rfl, rfl, by decide⟩, unbound_starting (pvName "a")⟩

theorem binding_boundB : Binding (starting [(true, 2), (false, 1)] boundA).state boundB.state := by
  have hbound : Unbound boundA.state (pvName "b") :=
    (unbound_starting (pvName "b")).update (pvcKey "default" "a")
      (o := { pvcObject "default" "a" with volume := some (pvName "a") }) (by decide)
  have hpv := hbound.update (pvKey "b") (o := pvObject "b" (redisBranch "b").vol) nofun
  have hpvc := hpv.update (pvcKey "default" "b") (o := pvcObject "default" "b") nofun
  have hpod := hpvc.update (podKey "default" "a")
    (o := podObject "default" "a" "redis:7" redisConfig) nofun
  exact .bind rfl rfl rfl ⟨⟨_, rfl, _, _, rfl, rfl, by decide⟩, hpod⟩

theorem isolated_demo :
    allStarted.state (volumeKey (pvName "a")) = some (pvObject "a" (redisBranch "a").vol) ∧
      allStarted.state (volumeKey (pvName "b")) = some (pvObject "b" (redisBranch "b").vol) := by
  have hserve : ∀ (_ : Bool) (e : Call) (c : Cluster), Paired "default" two e c →
      (binding.restrict (Paired "default" two)).exec e c (serve e c).1 (serve e c).2 :=
    fun _ e c h => ⟨serve_exec e c, h⟩
  have hA := (Pool.Run.turns hserve _ within_boundA).tail (.env binding_boundA)
  have hB := (hA.trans (Pool.Run.turns hserve _ within_boundB)).tail (.env binding_boundB)
  have hrun := hB.trans (Pool.Run.turns hserve _ within_started)
  have hname : ∀ i j, (two i).name = (two j).name → i = j := by decide
  have hmounts : ∀ i, Mounts "default" allStarted.state (two i) (pvName (two i).name) := by
    intro i
    cases i with
    | false => exact ⟨_, _, _, _, rfl, rfl, List.mem_cons_self, rfl, rfl⟩
    | true => exact ⟨_, _, _, _, rfl, rfl, List.mem_cons_self, rfl, rfl⟩
  have hall := fun i =>
    isolated (fun i j h => hname i j h) (fun _ _ _ => rfl) hrun (i := i) (hmounts i)
  exact ⟨hall false, hall true⟩

/-- What a Start creates binds no volume. -/
theorem unbound_created {c : Cluster} {v : String} (h : Unbound c v) :
    Unbound (Function.update (Function.update (Function.update c
      (pvKey "a") (some (pvObject "a" (redisBranch "a").vol)))
      (pvcKey "default" "a") (some (pvcObject "default" "a")))
      (podKey "default" "a") (some (podObject "default" "a" "redis:7" redisConfig))) v := by
  have hpv := h.update (pvKey "a") (o := pvObject "a" (redisBranch "a").vol) nofun
  have hpvc := hpv.update (pvcKey "default" "a") (o := pvcObject "default" "a") nofun
  exact hpvc.update _ nofun

/-- `b` creates its volume; `a` its volume, its claim and its Pod; then the binder gives the
claim of `a` the volume of `b`. -/
theorem shared_volume :
    (two true).vol.nfsPath ≠ (two false).vol.nfsPath ∧
      ∃ c, binding.Run ⟨fun _ => none, fun i => (two i).start "default" []⟩ c ∧
        Mounts "default" c.state (two false) (pvName (two true).name) ∧
        c.state (volumeKey (pvName (two true).name)) ≠
          some (pvObject (two false).name (two false).vol) := by
  have hexec : ∀ (e : Call) (s : Cluster), True → Exec e s (serve e s).1 (serve e s).2 :=
    fun e s _ => serve_exec e s
  have hb := Pool.Run.advance (S := binding) hexec true 1 (s := fun _ => none)
    (t := fun i => (two i).start "default" []) ⟨trivial, trivial⟩
  have ha := Pool.Run.advance (S := binding) hexec false 3 (s := after 1 "b" fun _ => none)
    (t := Function.update (fun i => (two i).start "default" []) true
      ((redisStart "b").advance serve 1 fun _ => none).1) ⟨trivial, trivial, trivial, trivial⟩
  have hempty : Unbound (fun _ => none) (pvName "b") := fun _ _ _ ho => nomatch ho
  have hunbound : Unbound (after 1 "b" fun _ => none) (pvName "b") :=
    hempty.update (pvKey "b") (o := pvObject "b" (redisBranch "b").vol) nofun
  have hbind : Binding (after 3 "a" (after 1 "b" fun _ => none))
      (boundTo (pvName "b") "a" (after 3 "a" (after 1 "b" fun _ => none))) :=
    .bind rfl rfl rfl ⟨⟨_, rfl, _, _, rfl, rfl, by decide⟩, unbound_created hunbound⟩
  refine ⟨by decide, _, (hb.trans ha).tail (.env hbind), ?_, ?_⟩
  · exact ⟨_, _, _, _, rfl, rfl, List.mem_cons_self, rfl, rfl⟩
  · decide

end BranchDB.K8s
