/-
# `BranchDB.Operator.Settle` — a branch left alone comes to rest

Whatever state a CR is in, and however it got there, each undisturbed Reconcile takes it a step
down, or finds nothing to do:

    4  without our finalizer      add it
    3  not Ready                  clone, start, Ready
    2  Ready                      once expired, Delete
    1  being deleted              stop, delete the clone, drop the finalizer
    0  gone, or no longer ours

So at most four Reconciles write anything (`comes_to_rest`).  A branch to be created is Ready after
two (`becomes_ready`), one that is being deleted is given up after one, and one that has expired
after two (`reclaimed`).
-/
import BranchDB.Concur.Rank
import BranchDB.Operator.Undisturbed

namespace BranchDB.Operator

open Concur

variable {S : Setting} {V : Surroundings S} {externalHost : String} {w w' w₁ w₂ : World}
  {b : DatabaseBranch}

/-! ## The rank of a CR -/

/-- How many Reconciles may still write. -/
def rank (w : World) : Nat :=
  match w.crs.obj with
  | none => 0
  | some b =>
    if b.deletionTimestamp.isSome then if b.Protected then 1 else 0
    else if ¬ b.Protected then 4
    else if b.status.phase = .ready then 2
    else 3

theorem rank_le_four (w : World) : rank w ≤ 4 := by
  unfold rank
  repeat' split
  all_goals omega

/-- Nothing is to be done for the CR, at a time since `since`. -/
def Rested (since : Int) (w : World) : Prop :=
  ∀ b, w.crs.obj = some b → (b.deletionTimestamp.isSome ∧ ¬ b.Protected) ∨
    (b.deletionTimestamp = none ∧ b.Protected ∧ b.status.phase = .ready ∧
      ∃ t, since ≤ t ∧ t ≤ w.clock ∧ ¬ Lapsed t b)

/-- The stored CR is the same. -/
def SameCR (w w' : World) : Prop := w'.crs.obj = w.crs.obj

theorem rank_of_none (hobj : w.crs.obj = none) : rank w = 0 := by
  simp only [rank, hobj]

theorem rank_of_some (hobj : w.crs.obj = some b) : rank w =
    if b.deletionTimestamp.isSome then if b.Protected then 1 else 0
    else if ¬ b.Protected then 4
    else if b.status.phase = .ready then 2
    else 3 := by
  simp only [rank, hobj]

theorem rank_deleting (hobj : w.crs.obj = some b) (hdel : b.deletionTimestamp.isSome) :
    rank w = if b.Protected then 1 else 0 := by
  rw [rank_of_some hobj, if_pos hdel]

theorem rank_live (hobj : w.crs.obj = some b) (hdel : b.deletionTimestamp = none) : rank w =
    if ¬ b.Protected then 4 else if b.status.phase = .ready then 2 else 3 := by
  have hnot : ¬ b.deletionTimestamp.isSome = true := by simp [hdel]
  rw [rank_of_some hobj, if_neg hnot]

theorem rank_givenUp (h : GivenUp b w) : rank w = 0 := by
  cases h with
  | gone hobj => exact rank_of_none hobj
  | kept hobj _ hdel hnot _ => rw [rank_deleting hobj hdel, if_neg hnot]

theorem rank_marked (h : Marked b w) : rank w ≤ 1 := by
  cases h with
  | gone hobj _ =>
      rw [rank_of_none hobj]
      exact Nat.zero_le _
  | kept hobj _ hdel _ _ =>
      rw [rank_deleting hobj hdel]
      split <;> omega

/-- A Reconcile lowers the rank, or there was nothing to do. -/
theorem Round.settles (h : Round V externalHost w w') :
    Settles rank SameCR w w' ∧ (SameCR w w' → Rested w.clock w') := by
  cases hobj : w.crs.obj with
  | none =>
      have hobj' : w'.crs.obj = none := (h.absent hobj).obj.trans hobj
      have hsame : SameCR w w' := hobj'.trans hobj.symm
      refine ⟨Or.inl ⟨hsame, (rank_of_none hobj').trans (rank_of_none hobj).symm⟩, ?_⟩
      intro _ b hb
      cases hobj'.symm.trans hb
  | some b =>
      have hkept : SameCR w w' → w'.crs.obj = some b := fun hsame => hsame.trans hobj
      cases h.advance hobj with
      | released hdel hprot hgiven _ =>
          have hrank : rank w = 1 := by rw [rank_deleting hobj hdel, if_pos hprot]
          refine ⟨Or.inr ?_, ?_⟩
          · rw [rank_givenUp hgiven, hrank]
            exact Nat.one_pos
          · intro hsame
            have hsome := rank_deleting (hkept hsame) hdel
            rw [rank_givenUp hgiven, if_pos hprot] at hsome
            cases hsome
      | ignored hdel hprot hobj' =>
          refine ⟨Or.inl ⟨hobj'.trans hobj.symm, ?_⟩, ?_⟩
          · rw [rank_deleting hobj' hdel, rank_deleting hobj hdel]
          · intro _ b' hb'
            cases hobj'.symm.trans hb'
            exact Or.inl ⟨hdel, hprot⟩
      | expired hdel _ _ _ hmarked =>
          have hrank : 2 ≤ rank w := by
            rw [rank_live hobj hdel]
            repeat' split
            all_goals omega
          have hmarked' := rank_marked hmarked
          refine ⟨Or.inr (by omega), ?_⟩
          intro hsame
          have hlive := rank_live (hkept hsame) hdel
          rw [← rank_live hobj hdel] at hlive
          omega
      | @adopted b' hdel hprot hadopted hobj' =>
          have hrank : rank w = 4 := by rw [rank_live hobj hdel, if_pos hprot]
          have hrank' : rank w' ≤ 3 := by
            rw [rank_live hobj' (hadopted.deletionTimestamp.trans hdel),
              if_neg (not_not_intro hadopted.prot)]
            split <;> omega
          refine ⟨Or.inr (by omega), ?_⟩
          intro hsame
          cases (hkept hsame).symm.trans hobj'
          exact absurd hadopted.prot hprot
      | resting hdel hprot hready hfrom hto hlapsed hobj' =>
          refine ⟨Or.inl ⟨hobj'.trans hobj.symm, ?_⟩, ?_⟩
          · rw [rank_live hobj' hdel, rank_live hobj hdel]
          · intro _ b' hb'
            cases hobj'.symm.trans hb'
            exact Or.inr ⟨hdel, hprot, hready, _, hfrom, hto, hlapsed⟩
      | @made b' hdel hprot hready hmade hobj' =>
          have hrank : rank w = 3 := by
            rw [rank_live hobj hdel, if_neg (not_not_intro hprot), if_neg hready]
          have hrank' : rank w' = 2 := by
            rw [rank_live hobj' (hmade.updated.deletionTimestamp.trans hdel),
              if_neg (not_not_intro (hmade.updated.protected.mpr hprot)), if_pos hmade.phase]
          refine ⟨Or.inr (by omega), ?_⟩
          intro hsame
          cases (hkept hsame).symm.trans hobj'
          exact absurd hmade.phase hready

/-! ## The expiry of a branch made Ready -/

theorem Lapsed.mono {t t' : Int} (h : Lapsed t b) (ht : t ≤ t') : Lapsed t' b := by
  obtain ⟨hready, e, he, hafter⟩ := h
  refine ⟨hready, e, he, ?_⟩
  rw [after_iff] at hafter ⊢
  omega

/-- Before its hours are over, to the second, a branch made Ready has not expired. -/
theorem MadeReady.fresh {since till t : Int} {b' : DatabaseBranch}
    (h : MadeReady V externalHost b since till b') (hnone : b.status.expiresAt = none)
    (hmax : b.spec.ttlHours ≤ maxHours)
    (ht : 0 < b.spec.ttlHours → t + second ≤ since + b.spec.ttlHours * hour) : ¬ Lapsed t b' := by
  rintro ⟨-, e, he, hafter⟩
  by_cases hpos : 0 < b.spec.ttlHours
  · obtain ⟨t₀, ht₀, -, hexp⟩ := h.expiry.ttl hpos
    cases hexp.symm.trans he
    rw [duration_hours (Int.le_of_lt hpos) hmax, after_iff, newTime] at hafter
    have htime := ht hpos
    have hsecond : (0 : Int) < second := by decide
    have hfloor := Int.lt_ediv_add_one_mul_self (t₀ + b.spec.ttlHours * hour) hsecond
    rw [Int.add_mul, Int.one_mul] at hfloor
    omega
  · have hexp := h.expiry.noTtl (Int.not_lt.mp hpos)
    rw [hnone, he] at hexp
    cases hexp

/-- The status of `b` as it was if it was Ready, else that of the database started for it from
`since` to `till`, which expires with its TTL. -/
inductive Shows (V : Surroundings S) (externalHost : String) (b : DatabaseBranch)
    (since till : Int) : DatabaseBranchStatus → Prop
  | kept : b.status.phase = .ready → Shows V externalHost b since till b.status
  | started {st : DatabaseBranchStatus} : b.status.phase ≠ .ready → Provided V externalHost b st →
      ExpiresFrom b since till st.expiresAt → Shows V externalHost b since till st

theorem Shows.mono {since since' till till' : Int} {st : DatabaseBranchStatus}
    (h : Shows V externalHost b since till st) (hsince : since' ≤ since) (htill : till ≤ till') :
    Shows V externalHost b since' till' st := by
  cases h with
  | kept hready => exact .kept hready
  | started hphase hprovided htimed => exact .started hphase hprovided (htimed.mono hsince htill)

theorem Shows.of_ready {since till : Int} {st : DatabaseBranchStatus}
    (h : Shows V externalHost b since till st) (hready : b.status.phase = .ready) :
    st = b.status := by
  cases h with
  | kept => rfl
  | started hphase => exact absurd hready hphase

theorem Shows.of_adopted {since till : Int} {b₁ : DatabaseBranch} {st : DatabaseBranchStatus}
    (h : Shows V externalHost b₁ since till st) (hadopted : Adopted b b₁) :
    Shows V externalHost b since till st := by
  cases h with
  | kept hready =>
      rw [hadopted.status] at hready ⊢
      exact .kept hready
  | started hphase hprovided htimed =>
      refine .started (hadopted.status ▸ hphase) ?_ ⟨hadopted.spec ▸ htimed.ttl, ?_⟩
      · exact hprovided.of_same hadopted.name hadopted.spec
      · exact hadopted.spec ▸ hadopted.status ▸ htimed.noTtl

/-- The branch `b` is Ready, as specified, shows where its database is, and has not expired. -/
structure ReadyAs (V : Surroundings S) (externalHost : String) (b : DatabaseBranch) (since : Int)
    (w : World) (b' : DatabaseBranch) : Prop where
  obj : w.crs.obj = some b'
  uid : b'.uid = b.uid
  spec : b'.spec = b.spec
  live : b'.deletionTimestamp = none
  prot : b'.Protected
  phase : b'.status.phase = .ready
  status : Shows V externalHost b since w.clock b'.status
  fresh : ¬ Lapsed w.clock b'

theorem ReadyAs.of_same {b₁ b' : DatabaseBranch} {since since' : Int}
    (h : ReadyAs V externalHost b₁ since' w b') (huid : b₁.uid = b.uid) (hspec : b₁.spec = b.spec)
    (hstatus : Shows V externalHost b since w.clock b'.status) :
    ReadyAs V externalHost b since w b' where
  obj := h.obj
  uid := h.uid.trans huid
  spec := h.spec.trans hspec
  live := h.live
  prot := h.prot
  phase := h.phase
  status := hstatus
  fresh := h.fresh

/-- A live branch with our finalizer that is not Ready becomes so, and one that is Ready stays. -/
theorem Round.ready (h : Round V externalHost w w') (hobj : w.crs.obj = some b)
    (hlive : b.deletionTimestamp = none) (hprot : b.Protected)
    (hnone : b.status.phase ≠ .ready → b.status.expiresAt = none)
    (hmax : b.spec.ttlHours ≤ maxHours)
    (httl : 0 < b.spec.ttlHours → w'.clock + second ≤ w.clock + b.spec.ttlHours * hour)
    (hfresh : ¬ Lapsed w'.clock b) : ∃ b', ReadyAs V externalHost b w.clock w' b' := by
  cases h.advance hobj with
  | released hdel | ignored hdel => simp [hlive] at hdel
  | expired _ _ hto hlapsed => exact absurd (hlapsed.mono hto) hfresh
  | adopted _ hnot => exact absurd hprot hnot
  | resting _ _ hready _ _ _ hobj' =>
      exact ⟨b, hobj', rfl, rfl, hlive, hprot, hready, .kept hready, hfresh⟩
  | @made b' _ _ hphase hmade hobj' =>
      exact ⟨b', hobj', hmade.updated.uid, hmade.updated.spec,
        hmade.updated.deletionTimestamp.trans hlive, hmade.updated.protected.mpr hprot,
        hmade.phase, .started hphase hmade.provided hmade.expiry,
        hmade.fresh (hnone hphase) hmax httl⟩

/-- Nobody else makes clones, and volumes and databases are where `serve` says. -/
def demoSurroundings : Surroundings demo where
  moves w w' := Env demo w w' ∧ Untouched w w' ∧ ∀ d, w.clones d = none → w'.clones d = none
  answers e r := ∀ w, (∃ c, e = .volume c) ∨ (∃ c, e = .database c) → r = (serveCalm demo e w).1
  env h := h.1
  untouched h := h.2.1

theorem cloneless_demo : demoSurroundings.Cloneless := fun _ _ d h => h.2.2 d

theorem answers_demoSurroundings (e : Call) (w : World) :
    demoSurroundings.answers e (serveCalm demo e w).1 := by
  rintro w' (⟨c, rfl⟩ | ⟨c, rfl⟩)
  · cases c with
    | createClone dbType snapshot cloneName =>
        have hvol : ∀ w, (serveVolume demo (.createClone dbType snapshot cloneName) w).1 =
            .ok ⟨cloneName, "nfs", "/tank/clones/" ++ cloneName⟩ := by
          intro w
          unfold serveVolume
          dsimp only
          split <;> rfl
        exact (hvol w).trans (hvol w').symm
    | deleteClone | takeSnapshot | deleteSnapshot | listSnapshots | listClones | gcSnapshots
    | resetDataset => rfl
  · cases c <;> rfl

theorem round_demoCalm (h : Readable w) :
    Round demoSurroundings "db.example.com" w (calm demo "db.example.com" w) :=
  round_calm h answers_demoSurroundings

/-- The branch `demo` after it was created and some Reconciles went well. -/
def demoRound (spec : DatabaseBranchSpec) : Nat → World
  | 0 => created demo spec .fresh
  | n + 1 => calm demo "db.example.com" (demoRound spec n)

theorem readable_demo (spec : DatabaseBranchSpec) (n : Nat) : Readable (demoRound spec n) := by
  induction n with
  | zero =>
      intro v hv
      cases Option.some.inj hv
      exact List.mem_cons_self
  | succ n ih => exact readable_calm ih

theorem round_demo (spec : DatabaseBranchSpec) (n : Nat) :
    Round demoSurroundings "db.example.com" (demoRound spec n) (demoRound spec (n + 1)) :=
  round_demoCalm (readable_demo spec n)

/-! ## Main results -/

/-- In any sequence of undisturbed Reconciles, however the first state came about, at most four
write anything, and from some point on none does: the CR is gone, or others keep it, or it is
Ready and has not expired. -/
theorem comes_to_rest {f : Nat → World} (hf : ∀ i, Round V externalHost (f i) (f (i + 1))) :
    (∀ steps : List Nat, steps.Pairwise (· < ·) →
      (∀ i ∈ steps, ¬ SameCR (f i) (f (i + 1))) → steps.length ≤ 4) ∧
    ∃ N, ∀ i, N ≤ i → SameCR (f i) (f (i + 1)) ∧ Rested (f i).clock (f (i + 1)) := by
  have hsettles : ∀ i, Settles rank SameCR (f i) (f (i + 1)) := fun i => (hf i).settles.1
  constructor
  · intro steps horder hbusy
    exact Nat.le_trans (busy_le hsettles horder (fun i _ => Nat.zero_le i) hbusy)
      (rank_le_four (f 0))
  · obtain ⟨N, hN⟩ := rests hsettles
    exact ⟨N, fun i hi => ⟨hN i hi, (hf i).settles.2 (hN i hi)⟩⟩

theorem comes_to_rest_demo :
    (∀ steps : List Nat, steps.Pairwise (· < ·) →
      (∀ i ∈ steps, ¬ SameCR (demoRound ⟨"base", 1, "mysql", ""⟩ i)
        (demoRound ⟨"base", 1, "mysql", ""⟩ (i + 1))) → steps.length ≤ 4) ∧
    ∃ N, ∀ i, N ≤ i → SameCR (demoRound ⟨"base", 1, "mysql", ""⟩ i)
        (demoRound ⟨"base", 1, "mysql", ""⟩ (i + 1)) ∧
      Rested (demoRound ⟨"base", 1, "mysql", ""⟩ i).clock
        (demoRound ⟨"base", 1, "mysql", ""⟩ (i + 1)) :=
  comes_to_rest fun i => round_demo ⟨"base", 1, "mysql", ""⟩ i

/-- The branch `demo` as it is Ready. -/
def demoStatus : DatabaseBranchStatus :=
  readyStatus ⟨"demo", 3306, 30000⟩ "db.example.com" (some (newTime hour))

/-- One that is being deleted is given up after one, and its clone is gone; one that has expired,
after two. -/
theorem reclaimed (hobj : w.crs.obj = some b) (hprot : b.Protected)
    (h₁ : Round V externalHost w w₁) (h₂ : Round V externalHost w₁ w₂) :
    (b.deletionTimestamp.isSome → GivenUp b w₁ ∧ NoClone V (S.dataset b.spec.databaseType) w₁) ∧
    (b.deletionTimestamp = none → Lapsed w.clock b →
      GivenUp b w₂ ∧ NoClone V (S.dataset b.spec.databaseType) w₂) := by
  constructor
  · intro hdel
    cases h₁.advance hobj with
    | released _ _ hgiven hnone => exact ⟨hgiven, hnone⟩
    | ignored _ hnot => exact absurd hprot hnot
    | expired hlive | adopted hlive | resting hlive | made hlive => simp [hlive] at hdel
  · intro hlive hlapsed
    cases h₁.advance hobj with
    | released hdel | ignored hdel => simp [hlive] at hdel
    | adopted _ hnot => exact absurd hprot hnot
    | resting _ _ _ hfrom _ hnot => exact absurd (hlapsed.mono hfrom) hnot
    | made _ _ hphase => exact absurd hlapsed.1 hphase
    | expired _ _ _ _ hmarked =>
        cases hmarked with
        | gone _ hnil =>
            rw [DatabaseBranch.Protected, hnil] at hprot
            cases hprot
        | @kept b₁ hobj₁ huid hdel hfin hspec =>
            have hprot₁ : b₁.Protected := by
              rw [DatabaseBranch.Protected, hfin]
              exact hprot
            have hrest : b₁.removeFinalizer.finalizers = b.removeFinalizer.finalizers := by
              unfold DatabaseBranch.removeFinalizer
              rw [hfin]
            cases h₂.advance hobj₁ with
            | released _ _ hgiven hnone =>
                refine ⟨?_, hspec ▸ hnone⟩
                cases hgiven with
                | gone hgone => exact .gone hgone
                | kept hobj₂ huid₂ hdel₂ hnot hne =>
                    exact .kept hobj₂ (huid₂.trans huid) hdel₂ hnot (hrest ▸ hne)
            | ignored _ hnot => exact absurd hprot₁ hnot
            | expired hlive₁ | adopted hlive₁ | resting hlive₁ | made hlive₁ =>
                simp [hlive₁] at hdel

/-- The branch `demo`, Ready and then marked for deletion. -/
def demoMarked : World := (serveDelete (demoRound ⟨"base", 1, "mysql", ""⟩ 2)).2

theorem readable_demoMarked : Readable demoMarked :=
  serveDelete_elim (P := Readable) (readable_demo _ 2) fun _ _ => (readable_demo _ 2).replace

theorem reclaimed_demo : demoMarked.clones "mysql" ≠ none ∧
    ∃ b, demoMarked.crs.obj = some b ∧ b.deletionTimestamp.isSome ∧
      GivenUp b (calm demo "db.example.com" demoMarked) ∧
      (calm demo "db.example.com" demoMarked).clones "mysql" = none := by
  obtain ⟨hgiven, hnone⟩ := (reclaimed rfl (by decide) (round_demoCalm readable_demoMarked)
    (round_demoCalm (readable_calm readable_demoMarked))).1 rfl
  exact ⟨nofun, _, rfl, rfl, hgiven, hnone.none cloneless_demo⟩

end BranchDB.Operator
