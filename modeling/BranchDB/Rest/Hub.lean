/-
# `BranchDB.Rest.Hub` — delivery to the WebSocket clients

`internal/interface/api/ws_hub.go`.  One goroutine, `Run`, owns the map of clients; every
connection has a goroutine in `ServeWS` and later in `readPump`, which announces and
withdraws it, and one in `writePump`, which drains its buffer or stalls.

    ServeWS    idle ──upgrade──▶ registering ──▶ serving ──read error──▶ leaving ──▶ gone
    Run                          ╰─ register ─╯                          ╰ unregister ╯
    Run        select ──take──▶ broadcasting m [c₁, …] ──offer──▶ … ──done──▶ select

A client is removed in two places, when it withdraws and when its buffer is full, and both
close its channel.  What it was given is compared with what `Run` took from the queue
(`WSHub.delivery`); each connection carries its `Standing` towards the hub as the invariant.
-/
import BranchDB.Concur.Chan
import Mathlib.Data.List.Nodup
import Mathlib.Logic.Function.Basic

namespace BranchDB.Rest

open Concur

/-- Where the goroutine of `ServeWS` and `readPump` is. -/
inductive Stage
  | idle
  | registering
  | serving
  | leaving
  | gone
deriving DecidableEq, Repr

/-- `wsConn`, its goroutines, and what has happened to it. -/
structure Conn (Msg : Type) where
  send : Chan 256 Msg := .empty
  stage : Stage := .idle
  /-- `writePump` is running. -/
  writing : Bool := false
  /-- What `writePump` took out of the buffer. -/
  drained : List Msg := []
  /-- What was put into the buffer. -/
  given : List Msg := []
  /-- How many messages had been taken when it was registered. -/
  joined : Option Nat := none
  /-- How many had been taken when it was removed, and the message it had no room for, if
  that was the reason. -/
  removed : Option (Nat × Option Msg) := none

/-- Where `Run` is; while it broadcasts, the clients it has still to offer the message to. -/
inductive Loop (Id Msg : Type)
  | select
  | broadcasting (msg : Msg) (todo : List Id)
  | panicked

/-- `WSHub`, with the connections there are and the messages `Run` has taken. -/
structure WSHub (Id Msg : Type) where
  clients : List Id := []
  broadcast : Chan 256 Msg := .empty
  loop : Loop Id Msg := .select
  conns : Id → Conn Msg := fun _ => {}
  taken : List Msg := []

namespace WSHub

variable {Id Msg : Type} [DecidableEq Id]

def set (h : WSHub Id Msg) (c : Id) (k : Conn Msg) : WSHub Id Msg :=
  { h with conns := Function.update h.conns c k }

/-- `Publish`: a message the queue has no room for is dropped. -/
def publish (h : WSHub Id Msg) (msg : Msg) : WSHub Id Msg :=
  match h.broadcast.send msg with
  | .done b => { h with broadcast := b }
  | .waits => h
  | .panics => { h with loop := .panicked }

/-- The `register` branch of `Run`; the pumps start. -/
def register (h : WSHub Id Msg) (c : Id) : WSHub Id Msg :=
  { h with clients := if c ∈ h.clients then h.clients else c :: h.clients }.set c
    { h.conns c with stage := .serving, writing := true, joined := some h.taken.length }

/-- `close(c.send)` and `delete(h.clients, c)`. -/
def remove (h : WSHub Id Msg) (c : Id) (refused : Option Msg) : WSHub Id Msg :=
  match (h.conns c).send.close with
  | .done ch => { h with clients := h.clients.erase c }.set c
      { h.conns c with send := ch, removed := some (h.taken.length, refused) }
  | .waits => h
  | .panics => { h with loop := .panicked }

/-- The `unregister` branch of `Run`; `readPump` is through. -/
def unregister (h : WSHub Id Msg) (c : Id) : WSHub Id Msg :=
  let h := if c ∈ h.clients then h.remove c none else h
  h.set c { h.conns c with stage := .gone }

/-- One turn of the loop over the clients in the `broadcast` branch of `Run`. -/
def offer (h : WSHub Id Msg) (c : Id) (msg : Msg) : WSHub Id Msg :=
  match (h.conns c).send.send msg with
  | .done ch => h.set c { h.conns c with send := ch, given := (h.conns c).given ++ [msg] }
  | .waits => h.remove c (some msg)
  | .panics => { h with loop := .panicked }

/-- One step of one goroutine. -/
inductive Step (h : WSHub Id Msg) : WSHub Id Msg → Prop
  | publish (msg : Msg) : Step h (h.publish msg)
  | upgrade {c : Id} : (h.conns c).stage = .idle →
      Step h (h.set c { h.conns c with stage := .registering })
  | readError {c : Id} : (h.conns c).stage = .serving →
      Step h (h.set c { h.conns c with stage := .leaving })
  | write {c : Id} {msg : Msg} {ch : Chan 256 Msg} (ok : Bool) : (h.conns c).writing = true →
      (h.conns c).send.recv = .done (some msg, ch) →
      Step h (h.set c { h.conns c with
        send := ch, writing := ok, drained := (h.conns c).drained ++ [msg] })
  | written {c : Id} {ch : Chan 256 Msg} : (h.conns c).writing = true →
      (h.conns c).send.recv = .done (none, ch) →
      Step h (h.set c { h.conns c with send := ch, writing := false })
  | register {c : Id} : h.loop = .select → (h.conns c).stage = .registering →
      Step h (h.register c)
  | unregister {c : Id} : h.loop = .select → (h.conns c).stage = .leaving →
      Step h (h.unregister c)
  | take {msg : Msg} {b : Chan 256 Msg} {todo : List Id} : h.loop = .select →
      h.broadcast.recv = .done (some msg, b) → todo.Perm h.clients →
      Step h { h with broadcast := b, loop := .broadcasting msg todo, taken := h.taken ++ [msg] }
  | offer {msg : Msg} {c : Id} {todo : List Id} : h.loop = .broadcasting msg (c :: todo) →
      Step h ({ h with loop := .broadcasting msg todo }.offer c msg)
  | done {msg : Msg} : h.loop = .broadcasting msg [] → Step h { h with loop := .select }

/-- The states some run of a new hub reaches. -/
inductive Reach : WSHub Id Msg → Prop
  | new : Reach {}
  | step {h h' : WSHub Id Msg} : Reach h → Step h h' → Reach h'

/-! ## The invariant -/

/-- What is on its way to a client. -/
def pending (h : WSHub Id Msg) (c : Id) : List Msg :=
  match h.loop with
  | .broadcasting msg todo => if c ∈ todo then [msg] else []
  | .select | .panicked => []

@[simp] theorem set_conns_self (h : WSHub Id Msg) (c : Id) (k : Conn Msg) :
    (h.set c k).conns c = k :=
  Function.update_self ..

theorem set_conns_of_ne {h : WSHub Id Msg} {c d : Id} {k : Conn Msg} (hd : d ≠ c) :
    (h.set c k).conns d = h.conns d :=
  Function.update_of_ne hd ..

@[simp] theorem pending_set (h : WSHub Id Msg) (c d : Id) (k : Conn Msg) :
    (h.set c k).pending d = h.pending d := rfl

/-- How a connection stands towards the hub: not yet a client, a client, or removed. -/
inductive Standing (taken pending : List Msg) (member : Prop) (k : Conn Msg) : Prop
  | outside : ¬ member → k.joined = none → k.removed = none → k.send.closed = false →
      k.given = [] → k.stage = .idle ∨ k.stage = .registering → Standing taken pending member k
  | client (i : Nat) : member → k.joined = some i → k.removed = none → k.send.closed = false →
      k.given ++ pending = taken.drop i → i ≤ taken.length →
      k.stage = .serving ∨ k.stage = .leaving → Standing taken pending member k
  | removed (i j : Nat) (refused : Option Msg) : ¬ member → k.joined = some i →
      k.removed = some (j, refused) → k.send.closed = true →
      k.given ++ refused.toList = (taken.take j).drop i → i ≤ j → j ≤ taken.length →
      k.stage ≠ .idle → k.stage ≠ .registering → Standing taken pending member k

/-- The hub is in order, as far as the connections in `D` are concerned. -/
structure Inv (D : Id → Prop) (h : WSHub Id Msg) : Prop where
  queue : h.broadcast.closed = false
  running : h.loop ≠ .panicked
  nodup : h.clients.Nodup
  todo : ∀ msg todo, h.loop = .broadcasting msg todo → todo.Nodup ∧ ∀ c ∈ todo, c ∈ h.clients
  standing : ∀ c, D c → Standing h.taken (h.pending c) (c ∈ h.clients) (h.conns c)
  flow : ∀ c, D c → (h.conns c).drained ++ (h.conns c).send.buf = (h.conns c).given

variable {h h' : WSHub Id Msg} {c : Id}

theorem Inv.new : Inv (fun _ => True) ({} : WSHub Id Msg) where
  queue := rfl
  running := nofun
  nodup := List.nodup_nil
  todo := nofun
  standing _ _ := .outside List.not_mem_nil rfl rfl rfl rfl (Or.inl rfl)
  flow _ _ := rfl

theorem Inv.mono {D D' : Id → Prop} (hD : ∀ c, D' c → D c) (hI : Inv D h) : Inv D' h where
  queue := hI.queue
  running := hI.running
  nodup := hI.nodup
  todo := hI.todo
  standing c hc := hI.standing c (hD c hc)
  flow c hc := hI.flow c (hD c hc)

/-- A connection is put back in order. -/
theorem Inv.set (hI : Inv (· ≠ c) h) {k : Conn Msg}
    (hk : Standing h.taken (h.pending c) (c ∈ h.clients) k)
    (hflow : k.drained ++ k.send.buf = k.given) : Inv (fun _ => True) (h.set c k) where
  queue := hI.queue
  running := hI.running
  nodup := hI.nodup
  todo := hI.todo
  standing d _ := by
    by_cases hd : d = c
    · subst hd
      rw [pending_set, set_conns_self]
      exact hk
    · rw [pending_set, set_conns_of_ne hd]
      exact hI.standing d hd
  flow d _ := by
    by_cases hd : d = c
    · subst hd
      rw [set_conns_self]
      exact hflow
    · rw [set_conns_of_ne hd]
      exact hI.flow d hd

theorem remove_of_open (hopen : (h.conns c).send.closed = false) (refused : Option Msg) :
    h.remove c refused = { h with clients := h.clients.erase c }.set c
      { h.conns c with
        send := { (h.conns c).send with closed := true }
        removed := some (h.taken.length, refused) } := by
  rw [WSHub.remove, Chan.close_of_open hopen]

/-- A client is removed; what it was given is what it was owed until then. -/
theorem Inv.remove (hI : Inv (· ≠ c) h) {i : Nat} {refused : Option Msg}
    (htodo : ∀ msg todo, h.loop = .broadcasting msg todo → c ∉ todo)
    (hjoined : (h.conns c).joined = some i) (hopen : (h.conns c).send.closed = false)
    (hgiven : (h.conns c).given ++ refused.toList = h.taken.drop i) (hi : i ≤ h.taken.length)
    (hstage : (h.conns c).stage = .serving ∨ (h.conns c).stage = .leaving)
    (hflow : (h.conns c).drained ++ (h.conns c).send.buf = (h.conns c).given) :
    Inv (fun _ => True) (h.remove c refused) := by
  rw [remove_of_open hopen]
  have hI' : Inv (· ≠ c) { h with clients := h.clients.erase c } :=
    { queue := hI.queue
      running := hI.running
      nodup := hI.nodup.erase c
      todo := by
        intro msg todo hloop
        obtain ⟨hnodup, hmem⟩ := hI.todo msg todo hloop
        refine ⟨hnodup, fun d hd => (List.mem_erase_of_ne ?_).mpr (hmem d hd)⟩
        rintro rfl
        exact htodo msg todo hloop hd
      standing := by
        intro d hd
        have hmem : d ∈ h.clients.erase c ↔ d ∈ h.clients := List.mem_erase_of_ne hd
        simp only [hmem]
        exact hI.standing d hd
      flow := hI.flow }
  refine hI'.set (.removed i h.taken.length refused ?_ hjoined rfl rfl ?_ hi (Nat.le_refl _) ?_ ?_)
    hflow
  · exact hI.nodup.not_mem_erase
  · rw [List.take_length]
    exact hgiven
  · rcases hstage with hstage | hstage <;> simp [hstage]
  · rcases hstage with hstage | hstage <;> simp [hstage]

/-- What `writePump` does is no business of the hub. -/
theorem Standing.drain {taken pending : List Msg} {member : Prop} {k : Conn Msg}
    (hk : Standing taken pending member k) {ch : Chan 256 Msg}
    (hch : ch.closed = k.send.closed) (writing : Bool) (drained : List Msg) :
    Standing taken pending member
      { k with send := ch, writing := writing, drained := drained } := by
  cases hk with
  | outside hm hj hr hc hg hs => exact .outside hm hj hr (hch.trans hc) hg hs
  | client i hm hj hr hc hg hi hs => exact .client i hm hj hr (hch.trans hc) hg hi hs
  | removed i j refused hm hj hr hc hg hij hjt hs hs' =>
      exact .removed i j refused hm hj hr (hch.trans hc) hg hij hjt hs hs'

theorem Inv.publish (hI : Inv (fun _ => True) h) (msg : Msg) :
    Inv (fun _ => True) (h.publish msg) := by
  unfold WSHub.publish
  split
  · next b hb =>
    exact
      { queue := (Chan.send_done hb).2.1
        running := hI.running
        nodup := hI.nodup
        todo := hI.todo
        standing := hI.standing
        flow := hI.flow }
  · exact hI
  · next hb => exact absurd hb (Chan.send_ne_panics hI.queue msg)

theorem Inv.upgrade (hI : Inv (fun _ => True) h) (hidle : (h.conns c).stage = .idle) :
    Inv (fun _ => True) (h.set c { h.conns c with stage := .registering }) := by
  refine (hI.mono fun _ _ => trivial).set ?_ (hI.flow c trivial)
  cases hI.standing c trivial with
  | outside hm hj hr hc hg _ => exact .outside hm hj hr hc hg (Or.inr rfl)
  | client _ _ _ _ _ _ _ hs => simp [hidle] at hs
  | removed _ _ _ _ _ _ _ _ _ _ hs _ => exact absurd hidle hs

theorem Inv.readError (hI : Inv (fun _ => True) h) (hserving : (h.conns c).stage = .serving) :
    Inv (fun _ => True) (h.set c { h.conns c with stage := .leaving }) := by
  refine (hI.mono fun _ _ => trivial).set ?_ (hI.flow c trivial)
  cases hI.standing c trivial with
  | outside _ _ _ _ _ hs => simp [hserving] at hs
  | client i hm hj hr hc hg hi _ => exact .client i hm hj hr hc hg hi (Or.inr rfl)
  | removed i j refused hm hj hr hc hg hij hjt _ _ =>
      exact .removed i j refused hm hj hr hc hg hij hjt nofun nofun

theorem Inv.write (hI : Inv (fun _ => True) h) {msg : Msg} {ch : Chan 256 Msg} (ok : Bool)
    (hrecv : (h.conns c).send.recv = .done (some msg, ch)) :
    Inv (fun _ => True) (h.set c { h.conns c with
      send := ch, writing := ok, drained := (h.conns c).drained ++ [msg] }) := by
  obtain ⟨hbuf, hclosed⟩ := Chan.recv_some hrecv
  refine (hI.mono fun _ _ => trivial).set ((hI.standing c trivial).drain hclosed _ _) ?_
  have hflow := hI.flow c trivial
  rw [hbuf] at hflow
  simpa using hflow

theorem Inv.written (hI : Inv (fun _ => True) h) {ch : Chan 256 Msg}
    (hrecv : (h.conns c).send.recv = .done (none, ch)) :
    Inv (fun _ => True) (h.set c { h.conns c with send := ch, writing := false }) := by
  obtain ⟨rfl, -, -⟩ := Chan.recv_none hrecv
  exact (hI.mono fun _ _ => trivial).set ((hI.standing c trivial).drain rfl _ _)
    (hI.flow c trivial)

theorem Inv.register (hI : Inv (fun _ => True) h) (hloop : h.loop = .select)
    (hstage : (h.conns c).stage = .registering) : Inv (fun _ => True) (h.register c) := by
  have hpending : h.pending c = [] := by simp [WSHub.pending, hloop]
  cases hI.standing c trivial with
  | client _ _ _ _ _ _ _ hs => simp [hstage] at hs
  | removed _ _ _ _ _ _ _ _ _ _ _ hs => exact absurd hstage hs
  | outside hm hj hr hc hg _ =>
      have hI' : Inv (· ≠ c) { h with clients := c :: h.clients } :=
        { queue := hI.queue
          running := hI.running
          nodup := List.nodup_cons.mpr ⟨hm, hI.nodup⟩
          todo := fun msg todo he => nomatch hloop.symm.trans he
          standing := by
            intro d hd
            have hmem : d ∈ c :: h.clients ↔ d ∈ h.clients := by simp [hd]
            simp only [hmem]
            exact hI.standing d trivial
          flow := fun d _ => hI.flow d trivial }
      rw [WSHub.register, if_neg hm]
      refine hI'.set (.client h.taken.length List.mem_cons_self rfl hr hc ?_ (Nat.le_refl _)
        (Or.inl rfl)) (hI.flow c trivial)
      show (h.conns c).given ++ h.pending c = h.taken.drop h.taken.length
      rw [hg, hpending, List.drop_length, List.append_nil]

/-- `readPump` is through with a connection that is not a client any more. -/
theorem Inv.gone (hI : Inv (fun _ => True) h) (hmem : c ∉ h.clients)
    (hstage : (h.conns c).stage = .leaving) :
    Inv (fun _ => True) (h.set c { h.conns c with stage := .gone }) := by
  refine (hI.mono fun _ _ => trivial).set ?_ (hI.flow c trivial)
  cases hI.standing c trivial with
  | outside _ _ _ _ _ hs => simp [hstage] at hs
  | client _ hm => exact absurd hm hmem
  | removed i j refused hm hj hr hc hg hij hjt _ _ =>
      exact .removed i j refused hm hj hr hc hg hij hjt nofun nofun

theorem Inv.unregister (hI : Inv (fun _ => True) h) (hloop : h.loop = .select)
    (hstage : (h.conns c).stage = .leaving) : Inv (fun _ => True) (h.unregister c) := by
  have hpending : h.pending c = [] := by simp [WSHub.pending, hloop]
  unfold WSHub.unregister
  by_cases hmem : c ∈ h.clients
  · rw [if_pos hmem]
    cases hI.standing c trivial with
    | outside hm => exact absurd hmem hm
    | removed _ _ _ hm => exact absurd hmem hm
    | client i _ hj _ hc hg hi hs =>
        have hgiven : (h.conns c).given ++ (none : Option Msg).toList = h.taken.drop i := by
          rw [← hg, hpending]
          rfl
        have hI' := Inv.remove (hI.mono fun _ _ => trivial)
          (fun msg todo he => nomatch hloop.symm.trans he) hj hc hgiven hi hs (hI.flow c trivial)
        refine hI'.gone ?_ ?_
        · rw [remove_of_open hc]
          exact hI.nodup.not_mem_erase
        · rw [remove_of_open hc, set_conns_self]
          exact hstage
  · rw [if_neg hmem]
    exact hI.gone hmem hstage

/-- From here on every client is owed the message. -/
theorem Inv.take (hI : Inv (fun _ => True) h) {msg : Msg} {b : Chan 256 Msg} {todo : List Id}
    (hloop : h.loop = .select) (hrecv : h.broadcast.recv = .done (some msg, b))
    (htodo : todo.Perm h.clients) :
    Inv (fun _ => True)
      { h with broadcast := b, loop := .broadcasting msg todo, taken := h.taken ++ [msg] } where
  queue := (Chan.recv_some hrecv).2.trans hI.queue
  running := nofun
  nodup := hI.nodup
  todo := by
    rintro _ _ ⟨⟩
    exact ⟨htodo.nodup_iff.mpr hI.nodup, fun c hc => htodo.mem_iff.mp hc⟩
  standing c _ := by
    have hpending : h.pending c = [] := by simp [WSHub.pending, hloop]
    cases hI.standing c trivial with
    | outside hm hj hr hc hg hs => exact .outside hm hj hr hc hg hs
    | client i hm hj hr hc hg hi hs =>
        refine .client i hm hj hr hc ?_ (by simp; omega) hs
        have hnow : WSHub.pending
            { h with broadcast := b, loop := .broadcasting msg todo, taken := h.taken ++ [msg] } c =
              [msg] := by
          simp [WSHub.pending, htodo.mem_iff, hm]
        rw [hpending, List.append_nil] at hg
        rw [hnow, hg, List.drop_append_of_le_length hi]
    | removed i j refused hm hj hr hc hg hij hjt hs hs' =>
        refine .removed i j refused hm hj hr hc ?_ hij (by simp; omega) hs hs'
        rw [hg, List.take_append_of_le_length hjt]
  flow c _ := hI.flow c trivial

/-- A client is offered the message: it has room for it, or it is removed. -/
theorem Inv.offer (hI : Inv (fun _ => True) h) {msg : Msg} {todo : List Id}
    (hloop : h.loop = .broadcasting msg (c :: todo)) :
    Inv (fun _ => True) ({ h with loop := .broadcasting msg todo }.offer c msg) := by
  obtain ⟨hnodup, hmem⟩ := hI.todo msg _ hloop
  have hc : c ∉ todo := (List.nodup_cons.mp hnodup).1
  have hcm : c ∈ h.clients := hmem c List.mem_cons_self
  have hI' : Inv (· ≠ c) { h with loop := .broadcasting msg todo } :=
    { queue := hI.queue
      running := nofun
      nodup := hI.nodup
      todo := by
        rintro _ _ ⟨⟩
        exact ⟨(List.nodup_cons.mp hnodup).2, fun d hd => hmem d (List.mem_cons_of_mem c hd)⟩
      standing := by
        intro d hd
        have hpending :
            WSHub.pending { h with loop := .broadcasting msg todo } d = h.pending d := by
          simp [WSHub.pending, hloop, hd]
        rw [hpending]
        exact hI.standing d trivial
      flow := fun d _ => hI.flow d trivial }
  have hbefore : h.pending c = [msg] := by simp [WSHub.pending, hloop]
  have hafter : WSHub.pending { h with loop := .broadcasting msg todo } c = [] := by
    simp [WSHub.pending, hc]
  have hflow := hI.flow c trivial
  cases hI.standing c trivial with
  | outside hm => exact absurd hcm hm
  | removed _ _ _ hm => exact absurd hcm hm
  | client i _ hj hr hopen hg hi hs =>
      rw [hbefore] at hg
      unfold WSHub.offer
      split
      · next ch hsend =>
        obtain ⟨-, hopen', hbuf⟩ := Chan.send_done hsend
        refine hI'.set (.client i hcm hj hr hopen' ?_ hi hs) ?_
        · rw [hafter, List.append_nil]
          exact hg
        · show (h.conns c).drained ++ ch.buf = (h.conns c).given ++ [msg]
          rw [hbuf, ← hflow, List.append_assoc]
      · refine hI'.remove ?_ hj hopen hg hi hs hflow
        rintro _ _ ⟨⟩
        exact hc
      · next hsend => exact absurd hsend (Chan.send_ne_panics hopen msg)

theorem Inv.done (hI : Inv (fun _ => True) h) {msg : Msg} (hloop : h.loop = .broadcasting msg []) :
    Inv (fun _ => True) { h with loop := .select } where
  queue := hI.queue
  running := nofun
  nodup := hI.nodup
  todo := nofun
  standing c _ := by
    have hpending : WSHub.pending { h with loop := .select } c = h.pending c := by
      simp [WSHub.pending, hloop]
    rw [hpending]
    exact hI.standing c trivial
  flow c _ := hI.flow c trivial

theorem Inv.step (hI : Inv (fun _ => True) h) (hs : Step h h') : Inv (fun _ => True) h' := by
  cases hs with
  | publish msg => exact hI.publish msg
  | upgrade hidle => exact hI.upgrade hidle
  | readError hserving => exact hI.readError hserving
  | write ok _ hrecv => exact hI.write ok hrecv
  | written _ hrecv => exact hI.written hrecv
  | register hloop hstage => exact hI.register hloop hstage
  | unregister hloop hstage => exact hI.unregister hloop hstage
  | take hloop hrecv htodo => exact hI.take hloop hrecv htodo
  | offer hloop => exact hI.offer hloop
  | done hloop => exact hI.done hloop

theorem Reach.inv (hr : Reach h) : Inv (fun _ => True) h := by
  induction hr with
  | new => exact .new
  | step _ hs ih => exact ih.step hs

/-! ## Main result -/

/-- The messages taken while the connection was a client. -/
def owed (h : WSHub Id Msg) (c : Id) : List Msg :=
  match (h.conns c).joined, (h.conns c).removed with
  | none, _ => []
  | some i, none => h.taken.drop i
  | some i, some (j, _) => (h.taken.take j).drop i

/-- The one among them it has not been given: it is on its way, or there was no room for it. -/
def missing (h : WSHub Id Msg) (c : Id) : List Msg :=
  match (h.conns c).removed with
  | none => h.pending c
  | some (_, refused) => refused.toList

theorem Inv.given (hI : Inv (fun _ => True) h) (c : Id) :
    (h.conns c).given ++ h.missing c = h.owed c := by
  cases hI.standing c trivial with
  | outside hm hj hr hc hg hs =>
      have hpending : h.pending c = [] := by
        unfold pending
        split
        · next msg todo hloop =>
          exact if_neg fun hc => hm ((hI.todo msg todo hloop).2 c hc)
        · rfl
        · rfl
      simp [owed, missing, hj, hr, hg, hpending]
  | client i hm hj hr hc hg hi hs => simpa [owed, missing, hj, hr] using hg
  | removed i j refused hm hj hr hc hg hij hjt hs hs' => simpa [owed, missing, hj, hr] using hg

theorem given_of_removed {i j : Nat} {refused : Option Msg}
    (hgiven : (h.conns c).given ++ h.missing c = h.owed c) (hjoined : (h.conns c).joined = some i)
    (hremoved : (h.conns c).removed = some (j, refused)) :
    (h.conns c).given ++ refused.toList = (h.taken.take j).drop i := by
  unfold owed missing at hgiven
  rwa [hjoined, hremoved] at hgiven

theorem Inv.mem_iff (hI : Inv (fun _ => True) h) (c : Id) :
    c ∈ h.clients ↔ (h.conns c).joined ≠ none ∧ (h.conns c).send.closed = false := by
  cases hI.standing c trivial with
  | outside hm hj => simp [hm, hj]
  | client i hm hj hr hc => simp [hm, hj, hc]
  | removed i j refused hm hj hr hc => simp [hm, hc]

/-- In every run: no channel is closed twice or sent to when closed; the clients are the
connections registered whose channel is open; and what a connection was given, from its
registration to its removal, is what was taken meanwhile, in that order, but for a message
on its way or the one its buffer had no room for. -/
theorem delivery (hr : Reach h) :
    h.loop ≠ .panicked ∧
    (∀ c, c ∈ h.clients ↔ (h.conns c).joined ≠ none ∧ (h.conns c).send.closed = false) ∧
    ∀ c, (h.conns c).given ++ h.missing c = h.owed c ∧
      (h.conns c).drained ++ (h.conns c).send.buf = (h.conns c).given :=
  ⟨hr.inv.running, hr.inv.mem_iff, fun c => ⟨hr.inv.given c, hr.inv.flow c trivial⟩⟩

/-! ## Three clients -/

/-- The hub waits, having taken `n` messages.  The client 0 has written them all, the client 1 went
after the first, and the client 2 has written none. -/
structure Stalling (n : Nat) (h : WSHub Nat String) : Prop where
  reach : Reach h
  loop : h.loop = .select
  queue : h.broadcast.closed = false ∧ h.broadcast.buf = []
  clients : h.clients = [2, 0]
  taken : h.taken.length = n
  writes : (h.conns 0).joined ≠ none ∧ (h.conns 0).writing = true ∧
    (h.conns 0).send.closed = false ∧ (h.conns 0).send.buf = []
  left : (h.conns 1).joined = some 0 ∧ (h.conns 1).removed = some (1, none)
  stalls : (h.conns 2).joined = some 0 ∧ (h.conns 2).send.closed = false ∧
    (h.conns 2).send.buf.length = n

theorem Reach.offered {c : Id} {msg : Msg} {todo : List Id} {ch : Chan 256 Msg} (hr : Reach h)
    (hloop : h.loop = .broadcasting msg (c :: todo))
    (hsend : (h.conns c).send.send msg = .done ch) :
    Reach ({ h with loop := .broadcasting msg todo }.set c
      { h.conns c with send := ch, given := (h.conns c).given ++ [msg] }) := by
  have hstep := hr.step (.offer hloop)
  unfold offer at hstep
  dsimp only at hstep
  rwa [hsend] at hstep

theorem Reach.refused {c : Id} {msg : Msg} {todo : List Id} (hr : Reach h)
    (hloop : h.loop = .broadcasting msg (c :: todo)) (hopen : (h.conns c).send.closed = false)
    (hfull : 256 ≤ (h.conns c).send.buf.length) :
    Reach ({ h with loop := .broadcasting msg todo, clients := h.clients.erase c }.set c
      { h.conns c with
        send := { (h.conns c).send with closed := true }
        removed := some (h.taken.length, some msg) }) := by
  have hstep := hr.step (.offer hloop)
  unfold offer at hstep
  dsimp only at hstep
  rw [Chan.send_of_full hopen hfull] at hstep
  exact remove_of_open (h := { h with loop := .broadcasting msg todo }) hopen (some msg) ▸ hstep

/-- A message is published, and taken. -/
theorem Stalling.take {n : Nat} {h : WSHub Nat String} (hs : Stalling n h) : ∃ b,
    b.closed = false ∧ b.buf = [] ∧ Reach { h with
      broadcast := b, loop := .broadcasting "tick" [2, 0], taken := h.taken ++ ["tick"] } := by
  have hroom : h.broadcast.buf.length < 256 := by
    rw [hs.queue.2]
    decide
  obtain ⟨b₁, hsend, hopen, hbuf⟩ := Chan.send_of_room hs.queue.1 hroom "tick"
  rw [hs.queue.2, List.nil_append] at hbuf
  obtain ⟨b₂, hrecv, hopen₂, hbuf₂⟩ := Chan.recv_of_cons hbuf
  have hpublished := hs.reach.step (.publish "tick")
  unfold publish at hpublished
  rw [hsend] at hpublished
  refine ⟨b₂, hopen₂.trans hopen, hbuf₂, hpublished.step (.take hs.loop hrecv ?_)⟩
  exact .of_eq hs.clients.symm

/-- As long as there is room, a message more is kept for the client 2. -/
theorem Stalling.round {n : Nat} {h : WSHub Nat String} (hs : Stalling n h) (hn : n < 256) :
    ∃ h', Stalling (n + 1) h' := by
  obtain ⟨b, hopen, hbuf, htaken⟩ := hs.take
  obtain ⟨hjoined₀, hwriting, hopen₀, hbuf₀⟩ := hs.writes
  obtain ⟨hjoined₂, hopen₂, hlen₂⟩ := hs.stalls
  obtain ⟨ch₂, hsend₂, hopen₂', hbuf₂'⟩ := Chan.send_of_room hopen₂ (hlen₂ ▸ hn) "tick"
  have hoffered₂ := htaken.offered rfl hsend₂
  obtain ⟨ch₀, hsend₀, hopen₀', hbuf₀'⟩ :=
    Chan.send_of_room hopen₀ (show (h.conns 0).send.buf.length < 256 by simp [hbuf₀]) "tick"
  rw [hbuf₀, List.nil_append] at hbuf₀'
  have hoffered₀ := (hoffered₂.offered (c := 0) rfl hsend₀).step (.done rfl)
  obtain ⟨ch, hrecv, hclosed, hrest⟩ := Chan.recv_of_cons hbuf₀'
  have hwritten := hoffered₀.step (.write (c := 0) true hwriting hrecv)
  refine ⟨_, hwritten, rfl, ⟨hopen, hbuf⟩, hs.clients, ?_, ?_, hs.left, hjoined₂, hopen₂', ?_⟩
  · exact (List.length_append ..).trans (congrArg (· + 1) hs.taken)
  · exact ⟨hjoined₀, rfl, hclosed.trans hopen₀', hrest⟩
  · show ch₂.buf.length = n + 1
    rw [hbuf₂', List.length_append, hlen₂]
    rfl

/-- All three are given the first message; the client 0 writes it, and the client 1 goes. -/
theorem stalling_one : ∃ h, Stalling 1 h := by
  have hzero := (Reach.new.step (.upgrade (h := ({} : WSHub Nat String)) (c := 0) rfl)).step
    (.register (c := 0) rfl rfl)
  have hone := (hzero.step (.upgrade (c := 1) rfl)).step (.register (c := 1) rfl rfl)
  have htwo := (hone.step (.upgrade (c := 2) rfl)).step (.register (c := 2) rfl rfl)
  have htaken := (htwo.step (.publish "tick")).step (.take rfl rfl (List.Perm.refl _))
  have hoffered := ((htaken.step (.offer rfl)).step (.offer rfl)).step (.offer rfl)
  have hwritten := (hoffered.step (.done rfl)).step (.write (c := 0) true rfl rfl)
  have hleft := (hwritten.step (.readError (c := 1) rfl)).step (.unregister (c := 1) rfl rfl)
  exact ⟨_, hleft, rfl, ⟨rfl, rfl⟩, rfl, rfl, ⟨nofun, rfl, rfl, rfl⟩, ⟨rfl, rfl⟩, rfl, rfl, rfl⟩

theorem stalling (n : Nat) (hn : n < 256) : ∃ h, Stalling (n + 1) h := by
  induction n with
  | zero => exact stalling_one
  | succ n ih =>
      obtain ⟨h, hs⟩ := ih (by omega)
      exact hs.round hn

/-- The client 2 has no room for the 257th message, and is removed. -/
theorem delivery_demo : ∃ h : WSHub Nat String,
    h.loop ≠ .panicked ∧ 0 ∈ h.clients ∧ 1 ∉ h.clients ∧ 2 ∉ h.clients ∧
      (h.conns 1).given = h.taken.take 1 ∧ (h.conns 2).given ++ ["tick"] = h.taken := by
  obtain ⟨h, hs⟩ := stalling 255 (by decide)
  obtain ⟨b, hopen, hbuf, htaken⟩ := hs.take
  obtain ⟨hjoined₂, hopen₂, hlen₂⟩ := hs.stalls
  have hremoved := htaken.refused rfl hopen₂ (Nat.le_of_eq hlen₂.symm)
  obtain ⟨hrunning, hclients, hgiven⟩ := delivery hremoved
  refine ⟨_, hrunning, ?_, ?_, ?_, ?_, ?_⟩
  · exact (hclients 0).mpr ⟨hs.writes.1, hs.writes.2.2.1⟩
  · show 1 ∉ h.clients.erase 2
    rw [hs.clients]
    decide
  · exact fun hmem => nomatch ((hclients 2).mp hmem).2
  · have hleft := given_of_removed (hgiven 1).1 hs.left.1 hs.left.2
    exact (List.append_nil _).symm.trans hleft
  · have hstalled := given_of_removed (hgiven 2).1 hjoined₂ rfl
    exact hstalled.trans List.take_length

end WSHub

end BranchDB.Rest
