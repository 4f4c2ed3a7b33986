/-
# `BranchDB.Zfs.Machine` — the host the provider runs on

A pool and the count of nfsd threads, and what the calls of the provider do to them.  Every
`zfs` command may fail, or do its work and fail (`Zfs.Served`); so may a read or a write of
the thread count.  A run of a method is `Ends exec`.

`Machine.serve` is one such host, on which the commands fail that `fault` picks; concrete
runs are computed with it (`serve_ends`).
-/
import BranchDB.Concur.Ends
import BranchDB.Zfs.Calls

namespace BranchDB

open Concur Strings Zfs

/-- The first call of a run is a command. -/
theorem ends_zfs_bind {σ α : Type} {exec : (e : OsCall) → σ → e.Reply → σ → Prop} {c : Command}
    {f : Output → Os α} {s s' : σ} {tr : List (Event OsCall OsCall.Reply σ)} {a : α} :
    (zfs c >>= f).Ends exec s tr a s' ↔ ∃ (out : Output) (s₁ : σ) (rest : _),
      exec (.zfs c) s out s₁ ∧ (f out).Ends exec s₁ rest a s' ∧ tr = ⟨.zfs c, s, out, s₁⟩ :: rest :=
  Prog.ends_call

theorem AgentProvider.deleteSnapshot_ends {σ : Type} {exec : (e : OsCall) → σ → e.Reply → σ → Prop}
    (p : AgentProvider) {name : String} {s s' : σ} {tr : List (Event OsCall OsCall.Reply σ)}
    {r : Except GoError Unit} :
    (p.deleteSnapshot name).Ends exec s tr r s' ↔ ∃ out : Output,
      exec (.zfs (.destroy false (p.snapshotPath name))) s out s' ∧ r = destroyed name out ∧
      tr = [⟨.zfs (.destroy false (p.snapshotPath name)), s, out, s'⟩] := by
  rw [deleteSnapshot_eq, ends_zfs_bind]
  constructor
  · rintro ⟨out, s₁, rest, hexec, hret, rfl⟩
    obtain ⟨rfl, rfl, rfl⟩ := Prog.ends_ret.mp hret
    exact ⟨out, hexec, rfl, rfl⟩
  · rintro ⟨out, hexec, rfl, rfl⟩
    exact ⟨out, s', [], hexec, .ret, rfl⟩

structure Machine where
  store : Store
  threads : Nat
  wf : store.WF
  /-- It is an `int` of the kernel. -/
  bounded : threads < 2 ^ 31

namespace Machine

/-- The file could not be read or written.  The errors that are told apart are others. -/
def FileError {α : Type} (r : Except GoError α) : Prop :=
  ∃ err, r = .error err ∧ err.reason = .other

/-- `exec c m r m'`: the call `c` in `m` may be answered `r` and leave `m'`. -/
def exec : (c : OsCall) → Machine → c.Reply → Machine → Prop
  | .zfs c, m, out, m' =>
    (∃ clock, Served clock c m.store out m'.store) ∧ m'.threads = m.threads
  | .hostname, m, _, m' | .now, m, _, m' => m' = m
  | .visit keys, m, order, m' => order.Perm keys ∧ m' = m
  | .readThreads, m, r, m' =>
    (r = .ok (toString m.threads ++ "\n") ∨ FileError r) ∧ m' = m
  | .writeThreads n, m, r, m' =>
    ((r = .ok () ∧ (m'.threads : Int) = n) ∨ (FileError r ∧ m'.threads = m.threads)) ∧
      m'.store = m.store

/-- A run of a method. -/
abbrev Runs {α : Type} (p : Os α) (m : Machine) (tr : List (Event OsCall OsCall.Reply Machine))
    (a : α) (m' : Machine) : Prop :=
  p.Ends exec m tr a m'

/-- The event is that command, and it failed. -/
def Failed (c : Command) : Event OsCall OsCall.Reply Machine → Prop
  | ⟨.zfs c', _, out, _⟩ => c' = c ∧ out.err ≠ none
  | _ => False

theorem Failed.call {c : Command} {ev : Event OsCall OsCall.Reply Machine} (h : Failed c ev) :
    ev.call = .zfs c := by
  obtain ⟨call, m, r, m'⟩ := ev
  cases call with
  | zfs c' => exact congrArg OsCall.zfs h.1
  | hostname | readThreads | writeThreads | now | visit => exact h.elim

theorem ext {m m' : Machine} (hstore : m.store = m'.store) (hthreads : m.threads = m'.threads) :
    m = m' := by
  cases m
  cases m'
  cases hstore
  cases hthreads
  rfl

/-- The host with another thread count. -/
def withThreads (m : Machine) (n : Nat) (hn : n < 2 ^ 31) : Machine :=
  { m with threads := n, bounded := hn }

theorem withThreads_ne {m : Machine} {n : Nat} {hn : n < 2 ^ 31} (h : m.threads ≠ n) :
    m.withThreads n hn ≠ m := by
  intro he
  have hthreads : n = m.threads := congrArg Machine.threads he
  exact h hthreads.symm

theorem exec_withThreads (m : Machine) {n : Nat} (hn : n < 2 ^ 31) :
    exec (.writeThreads n) m (.ok ()) (m.withThreads n hn) :=
  ⟨Or.inl ⟨rfl, rfl⟩, rfl⟩

/-! ## A host that can be computed -/

/-- Something that goes wrong with a command. -/
inductive Fault
  | fails (why : String)
  | breaks (why : String)
deriving DecidableEq, Repr

/-- What a fault says is not one of the known reasons. -/
def Fault.Of (c : Command) : Fault → Prop
  | .fails why | .breaks why => Other c why

/-- A command, with what goes wrong with it. -/
def command (fault : Command → Option Fault) (c : Command) (st : Store) : Output × Store :=
  match fault c with
  | none => Zfs.serve 0 c st
  | some (.fails why) => (.failed why "exit status 1", st)
  | some (.breaks why) =>
    if refusal st c = none then (.failed why "exit status 1", effect 0 st c)
    else Zfs.serve 0 c st

theorem served_command {fault : Command → Option Fault}
    (hfault : ∀ c f, fault c = some f → f.Of c) (c : Command) (st : Store) :
    Served 0 c st (command fault c st).1 (command fault c st).2 := by
  unfold command
  split
  · exact served_serve 0 c st
  · next why hf => exact .failed _ (hfault c _ hf)
  · next why hf =>
    split
    · next hr => exact .broke _ hr (hfault c _ hf)
    · exact served_serve 0 c st

/-- The faults of a host, and what its clock shows. -/
structure Host where
  fault : Command → Option Fault
  now : Time
  ok : ∀ c f, fault c = some f → f.Of c

def setThreads (n : Int) (m : Machine) : Except GoError Unit × Machine :=
  if hn : n.toNat < 2 ^ 31 ∧ 0 ≤ n then (.ok (), { m with threads := n.toNat, bounded := hn.1 })
  else (.error (errorf "invalid argument"), m)

def serve (h : Host) : (c : OsCall) → Machine → c.Reply × Machine
  | .zfs c, m => ((command h.fault c m.store).1,
      { m with store := (command h.fault c m.store).2
               wf := (served_command h.ok c m.store).wf m.wf })
  | .hostname, m => (.ok "10.0.0.1 \n", m)
  | .now, m => (h.now, m)
  | .visit keys, m => (keys, m)
  | .readThreads, m => (.ok (toString m.threads ++ "\n"), m)
  | .writeThreads n, m => setThreads n m

theorem serve_zfs (h : Host) (c : Command) (m : Machine) :
    (serve h (.zfs c) m).1 = (command h.fault c m.store).1 := rfl

theorem exec_serve (h : Host) (c : OsCall) (m : Machine) :
    exec c m (serve h c m).1 (serve h c m).2 := by
  cases c with
  | zfs c => exact ⟨⟨0, served_command h.ok c m.store⟩, rfl⟩
  | hostname | now => exact rfl
  | visit keys => exact ⟨List.Perm.refl _, rfl⟩
  | readThreads => exact ⟨Or.inl rfl, rfl⟩
  | writeThreads n =>
      show exec (.writeThreads n) m (setThreads n m).1 (setThreads n m).2
      unfold setThreads
      split
      · next hn => exact ⟨Or.inl ⟨rfl, Int.toNat_of_nonneg hn.2⟩, rfl⟩
      · exact ⟨Or.inr ⟨⟨_, rfl, rfl⟩, rfl⟩, rfl⟩

/-- What is computed is a run. -/
theorem serve_ends (h : Host) {α : Type} (p : Os α) (m : Machine) :
    ∃ tr, Runs p m tr (p.run (serve h) m).1 (p.run (serve h) m).2 :=
  Prog.ends_run (exec_serve h) p m

/-- A host on which nothing goes wrong. -/
def quiet : Host := ⟨fun _ => none, ⟨1780239845 * second, 0⟩, nofun⟩

/-- A dataset with a place for branches, and no snapshots. -/
def demo : Machine where
  store :=
    { snapshots := []
      filesystems := [⟨"tank/mysql", none, "rw=@10.0.0.0/8", true⟩,
        ⟨"tank/mysql/branches", none, "rw=@10.0.0.0/8", true⟩]
      next := 0 }
  threads := 8
  wf :=
    { names := by decide
      guids := by decide
      fresh := by decide
      valid := by decide
      filesystems := by decide
      origins := by simp
      validFilesystems := by decide }
  bounded := by decide

theorem demo_origin_ne {f : Filesystem} (hf : f ∈ demo.store.filesystems) (o : Nat) :
    f.origin ≠ some o := by
  have hall : ∀ f ∈ demo.store.filesystems, f.origin = none := by decide
  rw [hall f hf]
  nofun

def demoProvider : AgentProvider := ⟨"tank/mysql"⟩

/-- What a method leaves on a host. -/
def finish {α : Type} (h : Host) (p : Os α) (m : Machine) : Machine := (p.run (serve h) m).2

/-- What a computed method returns, it returns in a run. -/
theorem serve_runs (h : Host) {α : Type} (p : Os α) (m : Machine) {a : α}
    (ha : (p.run (serve h) m).1 = a) : ∃ tr, Runs p m tr a (finish h p m) :=
  ha ▸ serve_ends h p m

/-- A snapshot is taken of the dataset. -/
def demoTaken : Machine := finish quiet (demoProvider.takeSnapshot "base" false) demo

/-- A host on which one command is killed before it does anything, and one on which it is
killed after. -/
def failing (c : Command) : Host where
  fault c' := if c' = c then some (.fails "") else none
  now := quiet.now
  ok c' f hf := by
    split at hf
    · cases hf
      exact Or.inl rfl
    · cases hf

def breaking (c : Command) : Host where
  fault c' := if c' = c then some (.breaks "") else none
  now := quiet.now
  ok c' f hf := by
    split at hf
    · cases hf
      exact Or.inl rfl
    · cases hf

/-- A host on which a dataset is busy when it is to be destroyed. -/
def busy (force : Bool) (object : String) : Host where
  fault c := if c = .destroy force object
    then some (.fails (complaint "cannot destroy" object "dataset is busy")) else none
  now := quiet.now
  ok c f hf := by
    split at hf
    · next hc =>
      cases hf
      subst hc
      exact Or.inr ⟨"cannot destroy", object, "dataset is busy", List.mem_singleton_self _, rfl,
        by decide⟩
    · cases hf

/-! ## Runs of the parts -/

variable {c : Command} {m m' : Machine} {tr : List (Event OsCall OsCall.Reply Machine)}

theorem runs_os_bind {e : OsCall} {α : Type} {f : e.Reply → Os α} {a : α} :
    Runs (os e >>= f) m tr a m' ↔ ∃ r m₁ rest, exec e m r m₁ ∧
      Runs (f r) m₁ rest a m' ∧ tr = ⟨e, m, r, m₁⟩ :: rest :=
  Prog.ends_call

theorem runs_zfs_bind {α : Type} {f : Output → Os α} {a : α} :
    Runs (zfs c >>= f) m tr a m' ↔ ∃ out m₁ rest, exec (.zfs c) m out m₁ ∧
      Runs (f out) m₁ rest a m' ∧ tr = ⟨.zfs c, m, out, m₁⟩ :: rest :=
  ends_zfs_bind

/-- `run` tells only whether there was an error. -/
theorem runs_run {r : Except GoError Unit} (h : Runs (run c) m tr r m') :
    ∃ out, exec (.zfs c) m out m' ∧ tr = [⟨.zfs c, m, out, m'⟩] ∧
      (r = .ok () ↔ out.err = none) := by
  obtain ⟨out, m₁, rest, hexec, hrest, rfl⟩ := runs_zfs_bind.mp h
  cases herr : out.err with
  | none =>
      rw [herr] at hrest
      obtain ⟨rfl, rfl, rfl⟩ := Prog.ends_ret.mp hrest
      exact ⟨out, hexec, rfl, by simp [herr]⟩
  | some err =>
      rw [herr] at hrest
      obtain ⟨rfl, rfl, rfl⟩ := Prog.ends_ret.mp hrest
      exact ⟨out, hexec, rfl, by simp [herr]⟩

end Machine

end BranchDB
