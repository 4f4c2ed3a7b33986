/-
# `BranchDB.Rest.Poll` — waiting for the port of a new branch

    deadline := now + timeout
    while now < deadline:  Get;  a port?  return;  wait for ctx.Done() or the interval
    Get;  return

What a poll finds does not depend on how long the waits are, so a `Script` says what the clock
shows each time it is read, what each Get answers, which arm each select takes, and how many
Gets have been issued when the context of the request is cancelled.

The first CR with a port is returned if there is one before the deadline, and otherwise what the
last Get finds.  But `break` leaves only the select: after the context was cancelled the loop
goes on without waiting, until the deadline (`poll_goes_on`).  And the error of the last Get is
thrown away, which leaves a response without a name (`polling_iff`).
-/
import BranchDB.Rest.Branches
import Mathlib.Data.Nat.Find

namespace BranchDB.Rest.Branches

open Concur

/-! ## What happens during a request -/

/-- The answers to the calls of a request for a branch called `name`. -/
structure Script (name : String) where
  listed : Except GoError (List DatedBranch) := .ok []
  volume : (c : VolumeCall) → c.Reply
  created : Except GoError Unit := .ok ()
  /-- What the clock shows, reading after reading. -/
  readings : Nat → Int
  /-- What the Gets answer, one after the other. -/
  gets : Nat → Except GoError DatedBranch
  arms : Nat → Arm
  /-- How many Gets have been issued when the context is cancelled, if it is. -/
  cancelled : Option Nat := none
  /-- A Get finds the CR it was asked for. -/
  gets_name : ∀ i cr, gets i = .ok cr → cr.name = name
  /-- Select `i` comes after the Gets up to `i`. -/
  arms_done : ∀ i, arms i = .done → ∃ c, cancelled = some c ∧ c ≤ i + 1

/-- How far a request has come: how often it read the clock, read the CR and waited. -/
structure Progress where
  read : Nat := 0
  got : Nat := 0
  waited : Nat := 0
deriving DecidableEq, Repr

variable {name : String} (s : Script name)

def Script.serve : (e : Call) → Progress → e.Reply × Progress
  | .client (.create _), p => (s.created, p)
  | .client (.get _), p => (s.gets p.got, { p with got := p.got + 1 })
  | .client .list, p => (s.listed, p)
  | .volume c, p => (s.volume c, p)
  | .now, p => (s.readings p.read, { p with read := p.read + 1 })
  | .select _, p => (s.arms p.waited, { p with waited := p.waited + 1 })

/-- Poll `i` begins before the deadline. -/
def InTime (deadline : Int) (i : Nat) : Prop := s.readings (i + 1) < deadline

instance (deadline : Int) (i : Nat) : Decidable (InTime s deadline i) :=
  inferInstanceAs (Decidable (_ < _))

/-- Poll `i` begins before the deadline and finds no port. -/
def Fruitless (deadline : Int) (i : Nat) : Prop :=
  InTime s deadline i ∧ withPort (s.gets i) = none

instance (deadline : Int) (i : Nat) : Decidable (Fruitless s deadline i) :=
  inferInstanceAs (Decidable (_ ∧ _))

/-- Before poll `i`. -/
def before (i : Nat) : Progress := ⟨i + 1, i, i⟩

/-! ## The loop -/

variable {s} {S : Setup} {deadline interval : Int} {fuel : Nat}

/-- One round of the loop, whichever arm the select takes. -/
theorem run_round (i : Nat) :
    (pollUntil (direct S) name deadline interval (fuel + 1)).run s.serve (before i) =
      if InTime s deadline i then
        match withPort (s.gets i) with
        | some cr => (some cr, ⟨i + 2, i + 1, i⟩)
        | none => (pollUntil (direct S) name deadline interval fuel).run s.serve (before (i + 1))
      else (some (received (s.gets i)), ⟨i + 2, i + 1, i⟩) := by
  rw [pollUntil]
  show Prog.run s.serve (if s.readings (i + 1) < deadline then _ else _) ⟨i + 2, i, i⟩ = _
  have hget : Prog.run s.serve ((direct S).k8sClient (.get name)) ⟨i + 2, i, i⟩ =
      (s.gets i, ⟨i + 2, i + 1, i⟩) := rfl
  have hselect : Prog.run s.serve ((direct S).select interval) ⟨i + 2, i + 1, i⟩ =
      (s.arms i, before (i + 1)) := rfl
  by_cases h : InTime s deadline i
  · have hlt : s.readings (i + 1) < deadline := h
    rw [if_pos hlt, if_pos h, Prog.run_bind, hget]
    dsimp only
    cases withPort (s.gets i) with
    | some cr => rfl
    | none =>
        dsimp only
        rw [Prog.run_bind, hselect]
        dsimp only
        cases s.arms i with
        | done => rfl
        | elapsed => rfl
  · have hnot : ¬ s.readings (i + 1) < deadline := h
    rw [if_neg hnot, if_neg h]
    rfl

/-- Rounds without a port lead from one to the next. -/
theorem run_rounds {n : Nat} (h : ∀ i < n, Fruitless s deadline i) :
    (pollUntil (direct S) name deadline interval (n + fuel)).run s.serve (before 0) =
      (pollUntil (direct S) name deadline interval fuel).run s.serve (before n) := by
  induction n generalizing fuel with
  | zero => rw [Nat.zero_add]
  | succ n ih =>
      have hfuel : n + 1 + fuel = n + (fuel + 1) := by omega
      obtain ⟨htime, hport⟩ := h n (Nat.lt_succ_self n)
      rw [hfuel, ih fun i hi => h i (Nat.lt_succ_of_lt hi), run_round, if_pos htime, hport]

/-- What comes of a number of polls: nothing yet, the CR that the last of them found with a
port, or, the deadline having passed, what one more Get finds.  The last number is that of the
Gets. -/
inductive Polled (s : Script name) (deadline : Int) : Nat → Option DatedBranch → Nat → Prop
  | waiting {n : Nat} : (∀ i < n, Fruitless s deadline i) → Polled s deadline n none n
  | port {n : Nat} {cr : DatedBranch} : (∀ i < n, Fruitless s deadline i) → InTime s deadline n →
      withPort (s.gets n) = some cr → Polled s deadline (n + 1) (some cr) (n + 1)
  | late {n : Nat} : (∀ i < n, Fruitless s deadline i) → ¬ InTime s deadline n →
      Polled s deadline n (some (received (s.gets n))) (n + 1)

theorem polled_pollUntil {n : Nat} (h : ∀ i < n, Fruitless s deadline i) :
    ∃ polls, Polled s deadline polls
      ((pollUntil (direct S) name deadline interval fuel).run s.serve (before n)).1
      ((pollUntil (direct S) name deadline interval fuel).run s.serve (before n)).2.got := by
  induction fuel generalizing n with
  | zero => exact ⟨n, .waiting h⟩
  | succ fuel ih =>
      rw [run_round]
      by_cases htime : InTime s deadline n
      · rw [if_pos htime]
        cases hport : withPort (s.gets n) with
        | some cr => exact ⟨n + 1, .port h htime hport⟩
        | none =>
            refine ih ?_
            intro i hi
            rcases Nat.lt_succ_iff_lt_or_eq.mp hi with hi | rfl
            · exact h i hi
            · exact ⟨htime, hport⟩
      · rw [if_neg htime]
        exact ⟨n, .late h htime⟩

/-! ## A request that gets as far as polling -/

variable {body : Body}

/-- What a body asks for. -/
def requestOf (body : Body) : CreateRequest := (decode createFields {} body).value

/-- The request is for the branch, nothing is wrong with it, and the CR is created. -/
structure Accepted (S : Setup) (body : Body) (s : Script name) : Prop where
  decoded : (decode createFields {} body).ok = true
  requested : (requestOf body).name = name
  named : name ≠ ""
  snapshot : S.configured = true → (requestOf body).snapshotRef ≠ "" ∧
    ∀ snaps, s.volume (.listSnapshots (requestOf body).databaseType) = .ok snaps →
      ∃ snap ∈ snaps, snap.name = (requestOf body).snapshotRef
  created : s.created = .ok ()

/-- `pollForPort` as `handleCreate` calls it: what it has returned after `fuel` checks of the
clock, and how far it has come. -/
def polling (S : Setup) (s : Script name) (fuel : Nat) : Option DatedBranch × Progress :=
  (pollForPort (direct S) name S.portWaitTimeout pollInterval fuel).run s.serve {}

/-- When polling ends. -/
def deadlineOf (S : Setup) (s : Script name) : Int := s.readings 0 + S.portWaitTimeout

theorem polling_eq : polling S s fuel =
    (pollUntil (direct S) name (deadlineOf S s) pollInterval fuel).run s.serve (before 0) :=
  rfl

theorem run_checkSnapshot (h : Accepted S body s) (p : Progress) :
    (checkSnapshot (direct S) (requestOf body)).run s.serve p = (none, p) := by
  cases hS : S.configured with
  | false => simp [checkSnapshot, direct, hS, Prog.pure_eq_ret, Prog.run]
  | true =>
      obtain ⟨href, hfound⟩ := h.snapshot hS
      simp only [checkSnapshot, direct, hS, if_true, if_neg href]
      rw [Prog.run_bind]
      cases hsnaps : s.volume (.listSnapshots (requestOf body).databaseType) with
      | error err =>
          have hreply : (Prog.run s.serve
            (Prog.perform (Call.volume (.listSnapshots (requestOf body).databaseType))) p).1 =
              .error err := hsnaps
          rw [hreply]
          rfl
      | ok snaps =>
          have hreply : (Prog.run s.serve
            (Prog.perform (Call.volume (.listSnapshots (requestOf body).databaseType))) p).1 =
              .ok snaps := hsnaps
          simp only [hreply, if_pos (hfound snaps hsnaps)]
          rfl

theorem run_handleCreate (h : Accepted S body s) :
    (handleCreate (direct S) body fuel).run s.serve {} =
      ((polling S s fuel).1.map fun cr => .json 202 (accepted S.externalHost cr),
        (polling S s fuel).2) := by
  have hname : (requestOf body).name ≠ "" := h.requested.symm ▸ h.named
  rw [handleCreate, if_neg (by simp [h.decoded]), ← requestOf, if_neg hname, Prog.run_bind,
    run_checkSnapshot h]
  show Prog.run s.serve (createBranch (direct S) (requestOf body) fuel) {} = _
  have hreply : (((direct S).k8sClient (.create (requested (requestOf body)))).run s.serve {}).1 =
      .ok () := h.created
  rw [createBranch, Prog.run_bind, hreply]
  show Prog.run s.serve (pollForPort _ _ _ _ _ >>= _) {} = _
  rw [Prog.run_bind, h.requested]
  rfl

/-! ## What the response is called -/

theorem name_accepted {host : String} {cr : DatedBranch} : (accepted host cr).name = cr.name := by
  unfold accepted toBranchResponse
  dsimp only
  split <;> split <;> rfl

theorem withPort_eq_some {r : Except GoError DatedBranch} {cr : DatedBranch}
    (h : withPort r = some cr) : r = .ok cr := by
  unfold withPort at h
  split at h
  · split at h
    · exact congrArg Except.ok (Option.some.inj h)
    · cases h
  · cases h

/-- All polls were made in time, and only the last can have shown a port. -/
theorem Polled.rounds {polls got : Nat} {res : Option DatedBranch}
    (h : Polled s deadline polls res got) {i : Nat} (hi : i < polls) :
    InTime s deadline i ∧ (i + 1 < polls → Fruitless s deadline i) := by
  cases h with
  | waiting hrounds => exact ⟨(hrounds i hi).1, fun _ => hrounds i hi⟩
  | late hrounds _ => exact ⟨(hrounds i hi).1, fun _ => hrounds i hi⟩
  | port hrounds htime _ =>
      rcases Nat.lt_succ_iff_lt_or_eq.mp hi with hi | rfl
      · exact ⟨(hrounds i hi).1, fun _ => hrounds i hi⟩
      · exact ⟨htime, fun hlt => absurd hlt (Nat.lt_irrefl _)⟩

/-- Without the port the last Get has to succeed. -/
theorem Polled.name_eq {polls got : Nat} {cr : DatedBranch}
    (h : Polled s deadline polls (some cr) got)
    (hlate : ∀ n, (∀ i < n, Fruitless s deadline i) → ¬ InTime s deadline n →
      (s.gets n).isOk = true) : cr.name = name := by
  cases h with
  | port _ _ hport => exact s.gets_name _ cr (withPort_eq_some hport)
  | late hrounds htime =>
      have hok := hlate polls hrounds htime
      cases hget : s.gets polls with
      | ok found => exact s.gets_name polls found hget
      | error err =>
          rw [hget] at hok
          cases hok

/-! ## When polling is right -/

/-- Polling returns once a poll shows a port or comes too late; what it has returned by then is
what the polls say, and at most one of them was made after the context was cancelled; and the
response has the name of the branch. -/
structure PollsRight (S : Setup) (body : Body) (s : Script name) : Prop where
  returns : (∃ i, ¬ Fruitless s (deadlineOf S s) i) →
    ∃ enough, ∀ fuel ≥ enough, (polling S s fuel).1 ≠ none
  polled : ∀ fuel, ∃ polls,
    Polled s (deadlineOf S s) polls (polling S s fuel).1 (polling S s fuel).2.got ∧
      ∀ c, s.cancelled = some c → polls ≤ c + 1
  named : ∀ fuel resp, ((handleCreate (direct S) body fuel).run s.serve {}).1 =
    some (.json 202 resp) → resp.name = name

theorem polled_polling : ∃ polls,
    Polled s (deadlineOf S s) polls (polling S s fuel).1 (polling S s fuel).2.got :=
  polled_pollUntil fun _ hi => absurd hi (Nat.not_lt_zero _)

theorem polling_returns (h : ∃ i, ¬ Fruitless s (deadlineOf S s) i) :
    ∃ enough, ∀ fuel ≥ enough, (polling S s fuel).1 ≠ none := by
  classical
  have hrounds : ∀ i < Nat.find h, Fruitless s (deadlineOf S s) i :=
    fun i hi => not_not.mp (Nat.find_min h hi)
  refine ⟨Nat.find h + 1, ?_⟩
  intro fuel hfuel
  obtain ⟨more, rfl⟩ := Nat.exists_eq_add_of_le hfuel
  rw [polling_eq, Nat.add_assoc, run_rounds hrounds, Nat.add_comm 1, run_round]
  by_cases htime : InTime s (deadlineOf S s) (Nat.find h)
  · rw [if_pos htime]
    cases hport : withPort (s.gets (Nat.find h)) with
    | some cr => exact Option.some_ne_none cr
    | none => exact absurd ⟨htime, hport⟩ (Nat.find_spec h)
  · rw [if_neg htime]
    exact Option.some_ne_none _

/-- A poll is made in every round that begins in time. -/
theorem got_polling {n : Nat} (hrounds : ∀ i < n, Fruitless s (deadlineOf S s) i)
    (htime : InTime s (deadlineOf S s) n) : (polling S s (n + 1)).2.got = n + 1 := by
  rw [polling_eq, run_rounds hrounds, run_round, if_pos htime]
  cases withPort (s.gets n) with
  | some cr => rfl
  | none => rfl

theorem polls_eq {n polls : Nat} {res : Option DatedBranch} (htime : InTime s deadline n)
    (h : Polled s deadline polls res (n + 1)) : polls = n + 1 := by
  generalize hgot : n + 1 = got at h
  cases h with
  | waiting _ => rfl
  | port _ _ _ => rfl
  | late _ hlate =>
      obtain rfl := Nat.succ_injective hgot
      exact absurd htime hlate

/-- Polling is right exactly if, when the context was cancelled, no more than one poll is left
to be made, and the last Get, if one is needed, succeeds. -/
theorem polling_iff (h : Accepted S body s) :
    PollsRight S body s ↔
      (∀ c, s.cancelled = some c → (∀ i ≤ c, Fruitless s (deadlineOf S s) i) →
        ¬ InTime s (deadlineOf S s) (c + 1)) ∧
      ∀ n, (∀ i < n, Fruitless s (deadlineOf S s) i) → ¬ InTime s (deadlineOf S s) n →
        (s.gets n).isOk = true := by
  constructor
  · intro hright
    constructor
    · intro c hc hrounds htime
      obtain ⟨polls, hpolled, hbound⟩ := hright.polled (c + 2)
      rw [got_polling (fun i hi => hrounds i (Nat.lt_succ_iff.mp hi)) htime] at hpolled
      have hle := hbound c hc
      rw [polls_eq htime hpolled] at hle
      omega
    · intro n hrounds htime
      cases hget : s.gets n with
      | ok cr => rfl
      | error err =>
          have hlast : (polling S s (n + 1)).1 = some zeroBranch := by
            rw [polling_eq, run_rounds hrounds, run_round, if_neg htime, hget]
            rfl
          have hname := hright.named (n + 1) (accepted S.externalHost zeroBranch) (by
            rw [run_handleCreate h, hlast]
            rfl)
          rw [name_accepted] at hname
          exact absurd hname.symm h.named
  · rintro ⟨hprompt, hlast⟩
    refine ⟨polling_returns, fun fuel => ?_, fun fuel resp hresp => ?_⟩
    · obtain ⟨polls, hpolled⟩ := @polled_polling _ s S fuel
      refine ⟨polls, hpolled, ?_⟩
      intro c hc
      by_contra hmore
      refine hprompt c hc (fun i hi => ?_) (hpolled.rounds (by omega)).1
      exact (hpolled.rounds (by omega)).2 (by omega)
    · rw [run_handleCreate h] at hresp
      obtain ⟨cr, hcr, heq⟩ := Option.map_eq_some_iff.mp hresp
      cases heq
      obtain ⟨polls, hpolled⟩ := @polled_polling _ s S fuel
      rw [hcr] at hpolled
      rw [name_accepted]
      exact hpolled.name_eq hlast

/-! ## A branch that gets its port, and one whose request is cancelled -/

def feature : DatedBranch where
  name := "feature"
  uid := 1
  resourceVersion := 1
  spec := { snapshotRef := "" }

def featureWithPort : DatedBranch :=
  { feature with status := { phase := .creating, externalPort := 30001 } }

/-- The API server of a request for it that is not answered until the third poll. -/
def slowPort : Script "feature" where
  volume c := listing [] (.volume c)
  readings i := i * second
  gets i := if i < 2 then .error ⟨.notFound, "not found"⟩ else .ok featureWithPort
  arms _ := .elapsed
  cancelled := some 2
  gets_name i cr h := by
    by_cases hi : i < 2
    · rw [if_pos hi] at h
      cases h
    · rw [if_neg hi] at h
      cases h
      rfl
  arms_done _ h := by cases h

abbrev featureBody : Body := some (.object [("name", .string "feature")])

theorem polling_slowPort : PollsRight demoSetup featureBody slowPort := by
  have hthird : ¬ Fruitless slowPort (deadlineOf demoSetup slowPort) 2 := by decide
  refine (polling_iff ⟨by decide, by decide, by decide, fun hS => (by cases hS), rfl⟩).mpr ⟨?_, ?_⟩
  · intro c hc hrounds
    cases hc
    exact absurd (hrounds 2 (Nat.le_refl 2)) hthird
  · intro n hrounds htime
    have htimes : ∀ n ≤ 2, InTime slowPort (deadlineOf demoSetup slowPort) n := by decide
    have hle : n ≤ 2 := Nat.le_of_not_lt fun hn => hthird (hrounds 2 hn)
    exact absurd (htimes n hle) htime

/-- It is cancelled at once, and nothing gets a port. -/
def cancelledAtOnce : Script "feature" where
  volume c := listing [] (.volume c)
  readings i := i * pollInterval
  gets _ := .ok feature
  arms _ := .done
  cancelled := some 0
  gets_name _ cr h := by
    cases h
    rfl
  arms_done i _ := ⟨0, rfl, Nat.zero_le _⟩

/-- Two polls have been made, and the third is to come. -/
theorem poll_goes_on : Accepted demoSetup featureBody cancelledAtOnce ∧
    ¬ PollsRight demoSetup featureBody cancelledAtOnce := by
  refine ⟨⟨by decide, by decide, by decide, fun hS => (by cases hS), rfl⟩, ?_⟩
  intro hright
  obtain ⟨polls, hpolled, hbound⟩ := hright.polled 2
  have hgot : (polling demoSetup cancelledAtOnce 2).2.got = 2 := by decide
  have htime : InTime cancelledAtOnce (deadlineOf demoSetup cancelledAtOnce) 1 := by decide
  rw [hgot] at hpolled
  have hle := hbound 0 rfl
  rw [polls_eq htime hpolled] at hle
  omega

end BranchDB.Rest.Branches
