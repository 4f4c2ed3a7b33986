/-
# `Concur.Register` — an object under optimistic concurrency

A server keeps one object and stamps every version it stores with a fresh number.
A client may hold any version ever stored (its read was stale, or the object moved
on since), and a write is accepted only if the number it carries is that of the
version now stored.

`versions` remembers every version stored, newest first; it is what stale reads
draw from.  The point of the numbers is `WF.eq_of_ver`: a client whose number is
accepted holds the version that is stored, not merely one like it.

A request can also fail on the way.  `Outcome` lists the three ways it can end for
the caller: answered, lost before the server saw it, or served with the answer lost.
One that was given up is not served later.
-/
import Mathlib.Data.List.Basic

namespace Concur

universe u v w

/-- One object on a server, with the versions it has had. -/
structure Register (V : Type u) where
  obj : Option V
  versions : List V
  next : Nat

namespace Register

variable {V : Type u} (ver : V → Nat)

/-- The numbers are fresh and tell the versions apart. -/
structure WF (R : Register V) : Prop where
  mem : ∀ v, R.obj = some v → v ∈ R.versions
  lt : ∀ v ∈ R.versions, ver v < R.next
  inj : ∀ v ∈ R.versions, ∀ v' ∈ R.versions, ver v = ver v' → v = v'

/-- Store a new version, stamped with the next number. -/
def push (R : Register V) (v : Nat → V) : Register V where
  obj := some (v R.next)
  versions := v R.next :: R.versions
  next := R.next + 1

/-- Remove the object; its versions may still be read from a cache. -/
def clear (R : Register V) : Register V := { R with obj := none }

/-- Numbers may also be spent elsewhere. -/
def advance (R : Register V) (n : Nat) : Register V := { R with next := max R.next n }

variable {ver} {R : Register V}

@[simp] theorem obj_push (v : Nat → V) : (R.push v).obj = some (v R.next) := rfl

@[simp] theorem next_push (v : Nat → V) : (R.push v).next = R.next + 1 := rfl

theorem WF.push (h : WF ver R) {v : Nat → V} (hv : ∀ n, ver (v n) = n) : WF ver (R.push v) where
  mem := by
    intro w hw
    rw [obj_push, Option.some.injEq] at hw
    subst hw
    exact List.mem_cons_self
  lt := by
    intro w hw
    rcases List.mem_cons.mp hw with rfl | hw
    · rw [hv, next_push]
      exact Nat.lt_succ_self _
    · exact Nat.lt_succ_of_lt (h.lt w hw)
  inj := by
    intro w hw w' hw' he
    rcases List.mem_cons.mp hw with rfl | hw <;> rcases List.mem_cons.mp hw' with rfl | hw'
    · rfl
    · have := h.lt w' hw'
      rw [hv] at he
      omega
    · have := h.lt w hw
      rw [hv] at he
      omega
    · exact h.inj w hw w' hw' he

theorem WF.clear (h : WF ver R) : WF ver R.clear where
  mem := fun _ hw => nomatch hw
  lt := h.lt
  inj := h.inj

theorem WF.advance (h : WF ver R) (n : Nat) : WF ver (R.advance n) where
  mem := h.mem
  lt := fun v hv => Nat.lt_of_lt_of_le (h.lt v hv) (Nat.le_max_left _ _)
  inj := h.inj

/-- A version whose number is the stored one's is the stored one. -/
theorem WF.eq_of_ver (h : WF ver R) {v cur : V} (hv : v ∈ R.versions) (hcur : R.obj = some cur)
    (he : ver cur = ver v) : cur = v :=
  h.inj cur (h.mem cur hcur) v hv he

end Register

/-! ## Requests -/

/-- How a request can end for the caller, when serving it in `s` would answer
`served.1` and leave `served.2`; `transport e` are the errors of the way there and back. -/
inductive Outcome {σ : Type u} {ε : Type v} {β : Type w} (transport : ε → Prop) (s : σ)
    (served : Except ε β × σ) : Except ε β → σ → Prop
  | answered : Outcome transport s served served.1 served.2
  | dropped {e : ε} : transport e → Outcome transport s served (.error e) s
  | lost {e : ε} : transport e → Outcome transport s served (.error e) served.2

/-- Whatever holds if the request is not served and if it is, holds afterwards. -/
theorem Outcome.elim {σ : Type u} {ε : Type v} {β : Type w} {transport : ε → Prop} {s s' : σ}
    {served : Except ε β × σ} {r : Except ε β} (h : Outcome transport s served r s')
    {P : σ → Prop} (hs : P s) (hserved : P served.2) : P s' := by
  cases h with
  | answered => exact hserved
  | dropped _ => exact hs
  | lost _ => exact hserved

/-- A request answered without an error was served. -/
theorem Outcome.of_ok {σ : Type u} {ε : Type v} {β : Type w} {transport : ε → Prop} {s s' : σ}
    {served : Except ε β × σ} {b : β} (h : Outcome transport s served (.ok b) s') :
    served = (.ok b, s') := by
  generalize hr : (Except.ok b : Except ε β) = r at h
  cases h with
  | answered => rfl
  | dropped _ => cases hr
  | lost _ => cases hr

end Concur
