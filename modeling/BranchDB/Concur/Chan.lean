/-
# `Concur.Chan` — buffered channels

A channel as Go has it: it holds up to `cap` values, gives them out in the order they were
put in, and can be closed once.  An operation is done, or would have to wait, or panics: a
send on a closed channel, and a second close.

    send    open: room → appended, full → waits      closed: panic
    recv    the oldest value; none left → waits      closed: none left → `none`
    close   open → closed                            closed: panic
-/
import Mathlib.Data.List.Basic

namespace Concur

universe u

/-- What becomes of an operation on a channel. -/
inductive Chan.Outcome (β : Type u)
  | done (b : β)
  | waits
  | panics

/-- A channel with room for `cap` values. -/
structure Chan (cap : Nat) (α : Type u) where
  buf : List α
  closed : Bool
  bounded : buf.length ≤ cap

namespace Chan

variable {cap : Nat} {α : Type u}

/-- `make(chan α, cap)`. -/
def empty : Chan cap α := ⟨[], false, Nat.zero_le cap⟩

def send (c : Chan cap α) (a : α) : Outcome (Chan cap α) :=
  if c.closed then .panics
  else if h : c.buf.length < cap then
    .done ⟨c.buf ++ [a], false, by rw [List.length_append]; exact h⟩
  else .waits

def recv (c : Chan cap α) : Outcome (Option α × Chan cap α) :=
  match h : c.buf with
  | a :: rest => .done (some a, ⟨rest, c.closed, by
      have := c.bounded
      rw [h, List.length_cons] at this
      omega⟩)
  | [] => if c.closed then .done (none, c) else .waits

def close (c : Chan cap α) : Outcome (Chan cap α) :=
  if c.closed then .panics else .done { c with closed := true }

@[simp] theorem empty_buf : (empty : Chan cap α).buf = [] := rfl

@[simp] theorem empty_closed : (empty : Chan cap α).closed = false := rfl

/-- Only on a closed channel does a send panic. -/
theorem send_ne_panics {c : Chan cap α} (h : c.closed = false) (a : α) : c.send a ≠ .panics := by
  unfold send
  rw [h]
  intro hp
  split at hp
  · cases ‹false = true›
  · split at hp <;> cases hp

theorem send_done {c c' : Chan cap α} {a : α} (h : c.send a = .done c') :
    c.closed = false ∧ c'.closed = false ∧ c'.buf = c.buf ++ [a] := by
  unfold send at h
  split at h
  · cases h
  · next hopen =>
    split at h
    · cases h
      exact ⟨by simpa using hopen, rfl, rfl⟩
    · cases h

theorem recv_some {c c' : Chan cap α} {a : α} (h : c.recv = .done (some a, c')) :
    c.buf = a :: c'.buf ∧ c'.closed = c.closed := by
  unfold recv at h
  split at h
  · next hbuf =>
    cases h
    exact ⟨hbuf, rfl⟩
  · split at h <;> cases h

theorem recv_none {c c' : Chan cap α} (h : c.recv = .done (none, c')) :
    c' = c ∧ c.closed = true ∧ c.buf = [] := by
  unfold recv at h
  split at h
  · cases h
  · next hbuf =>
    split at h
    · next hclosed =>
      cases h
      exact ⟨rfl, hclosed, hbuf⟩
    · cases h

theorem send_of_room {c : Chan cap α} (hopen : c.closed = false) (hroom : c.buf.length < cap)
    (a : α) : ∃ c', c.send a = .done c' ∧ c'.closed = false ∧ c'.buf = c.buf ++ [a] := by
  unfold send
  rw [hopen, if_neg Bool.false_ne_true, dif_pos hroom]
  exact ⟨_, rfl, rfl, rfl⟩

theorem send_of_full {c : Chan cap α} (hopen : c.closed = false) (hfull : cap ≤ c.buf.length)
    (a : α) : c.send a = .waits := by
  unfold send
  rw [hopen, if_neg Bool.false_ne_true, dif_neg (Nat.not_lt.mpr hfull)]

theorem recv_of_cons {c : Chan cap α} {a : α} {rest : List α} (h : c.buf = a :: rest) :
    ∃ c', c.recv = .done (some a, c') ∧ c'.closed = c.closed ∧ c'.buf = rest := by
  unfold recv
  split
  · next a' rest' hbuf =>
    cases h.symm.trans hbuf
    exact ⟨_, rfl, rfl, rfl⟩
  · next hbuf =>
    cases h.symm.trans hbuf

theorem close_of_open {c : Chan cap α} (h : c.closed = false) :
    c.close = .done { c with closed := true } := by
  simp [close, h]

end Chan

end Concur
