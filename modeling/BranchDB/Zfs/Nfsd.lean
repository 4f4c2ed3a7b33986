/-
# `BranchDB.Zfs.Nfsd` — the thread count, with many clones deleted at once

Each `DeleteClone` that finds its clone busy runs

    prev := read;  write 0;  destroy;  write prev

on a count that all of them share, with nothing to keep them apart.  One that reads while
another has the count at 0 takes the default 8 for what it read, and writes that back.

If none does, then whatever is still to be written back is the count of the beginning
(`Restores`), and the count is that or 0; and 0 only while somebody has it to write back
(`Kept`).  So in the end it is what it was (`threads_restored`).
-/
import BranchDB.Concur.Pool
import BranchDB.Zfs.Calls
import BranchDB.Zfs.Machine

namespace BranchDB.Nfsd

open Concur Strings Zfs Machine AgentProvider

/-! ## The host -/

/-- The file can be read and written. -/
def Succeeds : (c : OsCall) → c.Reply → Prop
  | .readThreads, r => ∃ text, r = .ok text
  | .writeThreads _, r => r = .ok ()
  | .zfs _, _ | .hostname, _ | .now, _ | .visit _, _ => True

/-- Everything else on the host leaves the count alone. -/
def host : Pool OsCall OsCall.Reply Machine where
  exec c m r m' := exec c m r m' ∧ Succeeds c r
  env m m' := m'.threads = m.threads

/-! ## What is left of a call -/

/-- What is left of a program writes back `n`, if that is pending, and whatever it stops
later; provided that the count is `n` when it reads it. -/
inductive Restores (n : Nat) {α : Type} : Bool → Os α → Prop
  | ret {a : α} : Restores n false (.ret a)
  | zfs {c : Command} {k : Output → Os α} {pending : Bool} :
      (∀ out, Restores n pending (k out)) → Restores n pending (.call (.zfs c) k)
  | read {k : Except GoError String → Os α} :
      (∀ t : Nat, t = n ∨ (t = 0 ∧ n = 8) → Restores n false (k (.ok (toString t ++ "\n")))) →
      Restores n false (.call .readThreads k)
  | stop {k : Except GoError Unit → Os α} :
      Restores n true (k (.ok ())) → Restores n false (.call (.writeThreads 0) k)
  | restore {k : Except GoError Unit → Os α} :
      Restores n false (k (.ok ())) → Restores n true (.call (.writeThreads n) k)

variable {n : Nat}

theorem Restores.bind {α β : Type} {pending : Bool} {p : Os α} {f : α → Os β}
    (h : Restores n pending p) (hf : ∀ a, Restores n false (f a)) :
    Restores n pending (p >>= f) := by
  induction h with
  | ret => exact hf _
  | zfs _ ih => exact .zfs fun out => ih out
  | read _ ih => exact .read fun t ht => ih t ht
  | stop _ ih => exact .stop ih
  | restore _ ih => exact .restore ih

theorem Restores.command {α : Type} {pending : Bool} {c : Command} {f : Output → Os α}
    (h : ∀ out, Restores n pending (f out)) : Restores n pending (BranchDB.zfs c >>= f) :=
  .zfs h

theorem Restores.stopped {α : Type} {f : Except GoError Unit → Os α}
    (h : Restores n true (f (.ok ()))) : Restores n false (writeNFSDThreads 0 >>= f) :=
  .stop h

theorem Restores.restored {α : Type} {prev : Int} {f : Except GoError Unit → Os α}
    (hprev : prev = n) (h : Restores n false (f (.ok ()))) :
    Restores n true (writeNFSDThreads prev >>= f) :=
  hprev ▸ .restore h

theorem releaseNFSAndDestroy_restores (hpos : 0 < n) (hn : n < 2 ^ 31) (target : String) :
    Restores n false (releaseNFSAndDestroy target) := by
  unfold releaseNFSAndDestroy
  rw [readNFSDThreads_eq]
  refine .read ?_
  intro t ht
  have hcount : threadCount (.ok (toString t ++ "\n")) = n := by
    rw [threadCount_eq (by omega)]
    split <;> omega
  refine .stopped (.command fun out => .restored hcount (.command fun _ => ?_))
  cases out.err with
  | none => exact .ret
  | some err => exact .ret

theorem deleteClone_restores (hpos : 0 < n) (hn : n < 2 ^ 31) (p : AgentProvider)
    (cloneName : String) : Restores n false (p.deleteClone cloneName) := by
  refine .command fun _ => .command ?_
  intro out
  cases out.err with
  | none => exact .ret
  | some err =>
      dsimp only
      split
      · exact .ret
      · split
        · exact .ret
        · refine (releaseNFSAndDestroy_restores hpos hn _).bind ?_
          intro r
          cases r with
          | error err => exact .ret
          | ok => exact .ret

/-! ## Steps -/

/-- The count is not read while it is 0, unless the default is right. -/
def Undisturbed (n : Nat) : OsCall → Machine → Prop
  | .readThreads, m => m.threads ≠ 0 ∨ n = 8
  | .zfs _, _ | .hostname, _ | .writeThreads _, _ | .now, _ | .visit _, _ => True

variable {ι α : Type} [DecidableEq ι]

/-- Only `n` is ever written back, and it will be if the count is not `n`. -/
def Kept (n : Nat) (c : Pool.Config OsCall OsCall.Reply Machine α ι) : Prop :=
  ∃ pending : ι → Bool, (∀ i, Restores n (pending i) (c.threads i)) ∧
    (c.state.threads = n ∨ (c.state.threads = 0 ∧ ∃ i, pending i = true))

omit [DecidableEq ι] in
theorem Kept.of_forall {t : ι → Os α} {m : Machine} (h : ∀ i, Restores m.threads false (t i)) :
    Kept m.threads ⟨m, t⟩ :=
  ⟨fun _ => false, h, Or.inl rfl⟩

theorem restores_update {t : ι → Os α} {pending : ι → Bool} {i : ι} {b : Bool} {p : Os α}
    (h : ∀ j, Restores n (pending j) (t j)) (hp : Restores n b p) (j : ι) :
    Restores n (Function.update pending i b j) (Function.update t i p j) := by
  by_cases hj : j = i
  · subst hj
    simpa using hp
  · simpa [hj] using h j

theorem Kept.step {c c' : Pool.Config OsCall OsCall.Reply Machine α ι}
    (h : (host.restrict (Undisturbed n)).Step c c') (hc : Kept n c) : Kept n c' := by
  obtain ⟨pending, hall, hcount⟩ := hc
  cases h with
  | env he =>
      refine ⟨pending, hall, ?_⟩
      rwa [show _ = _ from he]
  | @call m m' t i e k r hi hexec =>
      obtain ⟨⟨hexec, hok⟩, hundisturbed⟩ := hexec
      have hleft : Restores n (pending i) (.call e k) := hi ▸ hall i
      have hsame : Restores n (pending i) (k r) → m'.threads = m.threads →
          Kept n ⟨m', Function.update t i (k r)⟩ := by
        intro hrest hthreads
        refine ⟨pending, ?_, hthreads ▸ hcount⟩
        intro j
        have hj := restores_update (i := i) hall hrest j
        rwa [Function.update_eq_self] at hj
      generalize hb : pending i = b at hleft hsame
      cases hleft with
      | zfs hrest => exact hsame (hrest r) hexec.2
      | read hrest =>
          obtain ⟨text, rfl⟩ := hok
          obtain ⟨hread | ⟨err, herr, -⟩, rfl⟩ := hexec
          · obtain rfl := Except.ok.inj hread
            refine hsame (hrest _ ?_) rfl
            rcases hcount with h | ⟨h, -⟩
            · exact Or.inl h
            · exact Or.inr ⟨h, hundisturbed.resolve_left fun hne => hne h⟩
          · cases herr
      | stop hrest =>
          obtain rfl : r = .ok () := hok
          obtain ⟨⟨-, hzero⟩ | ⟨⟨err, herr, -⟩, -⟩, -⟩ := hexec
          · exact ⟨_, restores_update hall hrest, Or.inr ⟨Int.natCast_eq_zero.mp hzero, i, by simp⟩⟩
          · cases herr
      | restore hrest =>
          obtain rfl : r = .ok () := hok
          obtain ⟨⟨-, hn⟩ | ⟨⟨err, herr, -⟩, -⟩, -⟩ := hexec
          · exact ⟨_, restores_update hall hrest, Or.inl (Int.ofNat.inj hn)⟩
          · cases herr

theorem Kept.run {c c' : Pool.Config OsCall OsCall.Reply Machine α ι}
    (h : (host.restrict (Undisturbed n)).Run c c') (hc : Kept n c) : Kept n c' := by
  induction h with
  | refl => exact hc
  | tail _ hstep ih => exact ih.step hstep

omit [DecidableEq ι] in
/-- When all have returned nothing is pending. -/
theorem Kept.count {c : Pool.Config OsCall OsCall.Reply Machine α ι} (hc : Kept n c)
    (hdone : ∀ i, ∃ a, c.threads i = .ret a) : c.state.threads = n := by
  obtain ⟨pending, hall, h | ⟨-, i, hi⟩⟩ := hc
  · exact h
  · obtain ⟨a, ha⟩ := hdone i
    have hleft := hall i
    rw [ha, hi] at hleft
    cases hleft

/-! ## Main result -/

/-- Any number of clones deleted at once leave the count as they found it, if none of the calls
reads it while another has it at 0. -/
theorem threads_restored {provider : ι → AgentProvider} {cloneName : ι → String} {m : Machine}
    {c : Pool.Config OsCall OsCall.Reply Machine (Except GoError Unit) ι} (hpos : 0 < m.threads)
    (hrun : (host.restrict (Undisturbed m.threads)).Run
      ⟨m, fun i => (provider i).deleteClone (cloneName i)⟩ c)
    (hdone : ∀ i, ∃ a, c.threads i = .ret a) : c.state.threads = m.threads :=
  ((Kept.of_forall fun i => deleteClone_restores hpos m.bounded (provider i) (cloneName i)).run
    hrun).count hdone

/-! ## Runs that are computed -/

/-- What is written is a thread count. -/
def Fits : OsCall → Machine → Prop
  | .writeThreads n, _ => n.toNat < 2 ^ 31 ∧ 0 ≤ n
  | .zfs _, _ | .hostname, _ | .readThreads, _ | .now, _ | .visit _, _ => True

instance : (c : OsCall) → (m : Machine) → Decidable (Fits c m)
  | .writeThreads _, _ => inferInstanceAs (Decidable (_ ∧ _))
  | .zfs _, _ | .hostname, _ | .readThreads, _ | .now, _ | .visit _, _ => isTrue trivial

instance : (c : OsCall) → (m : Machine) → Decidable (Undisturbed n c m)
  | .readThreads, _ => inferInstanceAs (Decidable (_ ∨ _))
  | .zfs _, _ | .hostname, _ | .writeThreads _, _ | .now, _ | .visit _, _ => isTrue trivial

theorem host_serve (h : Host) (c : OsCall) (m : Machine) (hfits : Fits c m) :
    host.exec c m (serve h c m).1 (serve h c m).2 := by
  refine ⟨exec_serve h c m, ?_⟩
  cases c with
  | zfs | hostname | now | visit => trivial
  | readThreads => exact ⟨_, rfl⟩
  | writeThreads n =>
      show (setThreads n m).1 = .ok ()
      unfold setThreads
      rw [dif_pos (show n.toNat < 2 ^ 31 ∧ 0 ≤ n from hfits)]

/-- Two branches, and sixteen threads. -/
def demoShared : Machine where
  store :=
    { snapshots := [⟨"tank/mysql@base", "tank/mysql@base", 0, 0⟩]
      filesystems := [⟨"tank/mysql", none, "rw=@10.0.0.0/8", true⟩,
        ⟨"tank/mysql/branches", none, "rw=@10.0.0.0/8", true⟩,
        ⟨"tank/mysql/branches/a", some 0, "rw=@10.0.0.0/8", true⟩,
        ⟨"tank/mysql/branches/b", some 0, "rw=@10.0.0.0/8", true⟩]
      next := 1 }
  threads := 16
  wf :=
    { names := by decide
      guids := by decide
      fresh := by decide
      valid := by decide
      filesystems := by decide
      origins := by simp
      validFilesystems := by decide }
  bounded := by decide

def two (i : Bool) : String := if i then "b" else "a"

/-- Each of the branches is deleted on a host that finds it busy. -/
abbrev deletion (i : Bool) : Os (Except GoError Unit) := demoProvider.deleteClone (two i)

abbrev deleting (i : Bool) : (c : OsCall) → Machine → c.Reply × Machine :=
  serve (busy true (demoProvider.clonePath (two i)))

/-- Both find their clone busy, and both read the count before either stops the threads; then
they stop them, destroy and write back what they read in turns. -/
def restoring : List (Bool × Nat) :=
  [(false, 3), (true, 3), (false, 1), (true, 1), (false, 1), (true, 1), (false, 2), (true, 2)]

theorem threads_restored_demo :
    (Pool.turns deleting restoring ⟨demoShared, deletion⟩).state.threads = 16 := by
  have hserve : ∀ i c m, Fits c m ∧ Undisturbed 16 c m →
      (host.restrict (Undisturbed 16)).exec c m (deleting i c m).1 (deleting i c m).2 :=
    fun i c m h => ⟨host_serve (busy true (demoProvider.clonePath (two i))) c m h.1, h.2⟩
  have hrun := Pool.Run.turns hserve restoring (c := ⟨demoShared, deletion⟩) (by decide +kernel)
  refine threads_restored (m := demoShared) (by decide) hrun ?_
  rintro (_ | _)
  · exact Prog.exists_of_isDone (by decide +kernel)
  · exact Prog.exists_of_isDone (by decide +kernel)

/-- What is left of the deletions, and the host, when the first has stopped the threads; when the
second has too; and when the first and then the second are over. -/
def lost₁ : Os (Except GoError Unit) × Machine :=
  (deletion false).advance (deleting false) 4 demoShared

def lost₂ : Os (Except GoError Unit) × Machine := (deletion true).advance (deleting true) 4 lost₁.2

def lost₃ : Os (Except GoError Unit) × Machine := lost₁.1.advance (deleting false) 3 lost₂.2

def lost₄ : Os (Except GoError Unit) × Machine := lost₂.1.advance (deleting true) 3 lost₃.2

theorem run_deleting (i : Bool) (k : Nat) {p : Os (Except GoError Unit)} {m : Machine}
    {t : Bool → Os (Except GoError Unit)} (hp : t i = p)
    (hfits : p.WithinFirst (deleting i) Fits k m) :
    host.Run ⟨m, t⟩ ⟨(p.advance (deleting i) k m).2,
      Function.update t i (p.advance (deleting i) k m).1⟩ := by
  subst hp
  exact Pool.Run.advance (host_serve (busy true (demoProvider.clonePath (two i)))) i k hfits

theorem both_done {t : Bool → Os (Except GoError Unit)} {p q : Os (Except GoError Unit)}
    (hp : p.isDone = true) (hq : q.isDone = true) (i : Bool) :
    ∃ a, Function.update (Function.update t false p) true q i = .ret a := by
  cases i with
  | false => simpa using Prog.exists_of_isDone hp
  | true => simpa using Prog.exists_of_isDone hq

/-- The second reads the count while the first has it at 0, and writes last. -/
theorem threads_lost : ∃ c : Pool.Config OsCall OsCall.Reply Machine (Except GoError Unit) Bool,
    host.Run ⟨demoShared, deletion⟩ c ∧ (∀ i, ∃ a, c.threads i = .ret a) ∧
      c.state.threads ≠ demoShared.threads := by
  have h₁ : host.Run ⟨demoShared, deletion⟩ ⟨lost₁.2, Function.update deletion false lost₁.1⟩ :=
    run_deleting false 4 rfl (by decide +kernel)
  have h₂ : host.Run ⟨lost₁.2, Function.update deletion false lost₁.1⟩ ⟨lost₂.2,
      Function.update (Function.update deletion false lost₁.1) true lost₂.1⟩ :=
    run_deleting true 4 (by simp) (by decide +kernel)
  have h₃ : host.Run
      ⟨lost₂.2, Function.update (Function.update deletion false lost₁.1) true lost₂.1⟩ ⟨lost₃.2,
      Function.update (Function.update (Function.update deletion false lost₁.1) true lost₂.1)
        false lost₃.1⟩ :=
    run_deleting false 3 (by simp) (by decide +kernel)
  have h₄ : host.Run
      ⟨lost₃.2, Function.update (Function.update (Function.update deletion false lost₁.1)
        true lost₂.1) false lost₃.1⟩
      ⟨lost₄.2, Function.update (Function.update (Function.update (Function.update deletion
        false lost₁.1) true lost₂.1) false lost₃.1) true lost₄.1⟩ :=
    run_deleting true 3 (by simp) (by decide +kernel)
  refine ⟨_, ((h₁.trans h₂).trans h₃).trans h₄, ?_, by decide +kernel⟩
  exact both_done (by decide +kernel) (by decide +kernel)

end BranchDB.Nfsd
