/-
# `BranchDB.ZfsAgent.Listed` — the snapshots of the host, as a client gets them

    zfs list ─▶ parseSnapshotLine ─▶ JSON, RFC 3339 ─▶ ListSnapshots

A time that is read of a listing is one that the wire keeps, so a listing that is answered is the
provider's own, marked with the type (`requested_list`), and the client and the provider see the
same of each snapshot: its label, if the name has no blanks in it, and the minute it was created
in (`entry_of_isWord`).
-/
import BranchDB.Zfs.Lossless
import BranchDB.Zfs.Overwrite
import BranchDB.ZfsAgent.Current

namespace BranchDB.AgentProvider

open Concur Machine Strings Zfs
open ZfsAgent (name_eq)

variable {st : Store} {d : String} {s : Snapshot} {e : SnapshotInfo}

/-! ## What is read of a line -/

/-- The minute a snapshot was created in. -/
def minuteOf (s : Snapshot) : Nat := s.creation.toNat / 60

theorem lineOf_eq (hs : s ∈ st.own d) (hat : '@' ∈ s.name.toList) :
    lineOf s = printedLine .blank d (s.label, minuteOf s) := by
  have htime : creationText s.creation.toNat = minuteText .blank (minuteOf s : Nat) := by
    rw [creationText_eq, minuteOf, Int.natCast_ediv]
    rfl
  rw [lineOf, printedLine, htime, name_eq hat, (mem_own.mp hs).2]

/-- A word is read as it is, and its minute if the year has four digits. -/
theorem entry_of_isWord (hs : s ∈ st.own d) (hat : '@' ∈ s.name.toList) (hword : IsWord s.name)
    (h : parseSnapshotLine d (lineOf s) = some e) : e.name = s.label ∧
      e.createdAt = if yearOf (minuteOf s) < 10000 then ⟨minuteOf s * 60 * second, 0⟩ else .zero := by
  rw [lineOf_eq hs hat] at h
  obtain ⟨fullName, more, hname, hparsed⟩ :=
    parseSnapshotLine_printed .blank d (s.label, minuteOf s)
  have hwhole : d ++ "@" ++ s.label = s.name := by rw [name_eq hat, (mem_own.mp hs).2]
  rw [hwhole, fields_of_isWord hword] at hname
  obtain ⟨rfl, rfl⟩ := List.cons.inj hname
  obtain rfl := Option.some.inj (hparsed.symm.trans h)
  have htrim : trimPrefix s.name (d ++ "@") = s.label := by
    rw [← hwhole]
    exact trimPrefix_self _ _
  exact ⟨htrim, if_congr (by simp) rfl rfl⟩

/-- A time that is read is one that the wire keeps. -/
theorem time_of_entry (hs : s ∈ st.own d) (hat : '@' ∈ s.name.toList)
    (h : parseSnapshotLine d (lineOf s) = some e) :
    parseRFC3339 e.createdAt.format = some e.createdAt := by
  rw [lineOf_eq hs hat] at h
  obtain ⟨fullName, more, -, hparsed⟩ := parseSnapshotLine_printed .blank d (s.label, minuteOf s)
  obtain rfl := Option.some.inj (hparsed.symm.trans h)
  dsimp only
  split
  · next hyear =>
    have hyear0 : 0 ≤ (Time.mk (minuteOf s * 60 * second) 0).year := by
      obtain ⟨-, -, -, -, -, year, -, -, -, -, -, -, -, hyear, -⟩ := minute_parts (minuteOf s)
      omega
    have hnew : newTime (minuteOf s * 60 * second) = minuteOf s * 60 :=
      Int.mul_ediv_cancel _ (by decide)
    rw [parseRFC3339_format ⟨hyear0, hyear.2⟩, hnew, Int.add_zero]
  · decide +kernel

/-! ## Taking a snapshot -/

variable {p : AgentProvider} {m m' : Machine} {tr : List (Event OsCall OsCall.Reply Machine)}

theorem next_exec {c : OsCall} {r : c.Reply} (h : Machine.exec c m r m') :
    m.store.next ≤ m'.store.next := by
  cases c with
  | zfs c =>
      obtain ⟨⟨clock, hserved⟩, -⟩ := h
      exact hserved.next_le
  | hostname | now => exact h ▸ Nat.le_refl _
  | readThreads | visit | writeThreads => exact h.2 ▸ Nat.le_refl _

theorem MadeRoom.next {name : String} {out : Output} {r : Except GoError Unit}
    (h : p.MadeRoom name out m tr r m') : m.store.next ≤ m'.store.next := by
  cases h with
  | destroyed | missing | stuck => exact Nat.le_refl _
  | renamed t _ _ _ hmoved | notRenamed t _ _ _ _ hmoved => exact next_exec hmoved

/-- A snapshot under the name, made since. -/
def Taken (path : String) (m m' : Machine) : Prop :=
  ∃ s ∈ m'.store.snapshots, s.name = path ∧ s.born = path ∧ ∀ t ∈ m.store.snapshots, t.guid ≠ s.guid

theorem taken_snapshot {name : String} {out : Output} {m₁ : Machine}
    (h : Machine.exec (p.snapshotCall name) m₁ out m') (herr : out.err = none)
    (hnext : m.store.next ≤ m₁.store.next) : Taken (p.snapshotPath name) m m' := by
  obtain ⟨-, -, -, clock, hsnapshots⟩ := p.exec_snapshot_ok h herr
  refine ⟨⟨p.snapshotPath name, p.snapshotPath name, m₁.store.next, clock⟩, ?_, rfl, rfl, ?_⟩
  · rw [hsnapshots]
    exact List.mem_append_right _ (List.mem_singleton.mpr rfl)
  · intro t ht
    exact Nat.ne_of_lt (Nat.lt_of_lt_of_le (m.wf.fresh t ht) hnext)

/-- Overwriting or not, a snapshot that is reported as taken is there, and new. -/
theorem taken_of_runs {name : String} {overwrite : Bool}
    (h : Runs (p.takeSnapshot name overwrite) m tr (.ok ()) m') :
    Taken (p.snapshotPath name) m m' := by
  cases overwrite with
  | false =>
      obtain ⟨out, hexec, -, hok⟩ := runs_run h
      exact taken_snapshot hexec (hok.mp rfl) (Nat.le_refl _)
  | true =>
      obtain ⟨out, m₁, room, result, m₂, rest, hdestroy, hroom, -, hlast⟩ := p.runs_takeSnapshot h
      rcases hlast with ⟨⟨err, -, herr⟩, -, -⟩ | ⟨rfl, taken, htaken, -, hok⟩
      · cases herr
      · exact taken_snapshot htaken (hok.mp rfl) ((next_exec hdestroy).trans hroom.next)

end BranchDB.AgentProvider

namespace BranchDB.ZfsAgent

open AgentProvider Concur Net Strings Zfs

/-! ## What a client is told -/

variable {B : Backend} {dbType key : String} {m m' : Machine}

/-- The listing of a provider, marked with the type. -/
def marked (B : Backend) (dbType key : String) (m : Machine) : List SnapshotInfo :=
  ((B.ds key).entries m.store).map fun e => { e with databaseType := shownType B.keys dbType }

theorem parseSnapshots_kept {l : List SnapshotInfo} (type : String)
    (h : ∀ e ∈ l, parseRFC3339 e.createdAt.format = some e.createdAt) :
    parseSnapshots (l.map (raw type)) = .ok (l.map fun e => { e with databaseType := type }) := by
  induction l with
  | nil => rfl
  | cons e rest ih =>
      have hfirst : parseRFC3339 (raw type e).createdAt = some e.createdAt :=
        h e List.mem_cons_self
      rw [List.map_cons, parseSnapshots, hfirst, ih fun e' he' => h e' (List.mem_cons_of_mem e he')]
      rfl

/-- A listing that is answered is what the provider reads, marked with the type. -/
theorem requested_list {snaps : List SnapshotInfo} (hserving : Serving B dbType key)
    (h : Requested B (.listSnapshots dbType) m (.ok snaps) m') :
    m' = m ∧ snaps = marked B dbType key m := by
  have htame : Tame (.listSnapshots dbType) := ⟨hserving.type, trivial⟩
  obtain ⟨reply, ⟨tr, hrun⟩, hanswer⟩ := h.ran htame hserving nofun
  obtain ⟨rfl, hlisted⟩ := (B.ds key).runs_listSnapshots hrun
  refine ⟨rfl, ?_⟩
  cases reply with
  | error err => cases hanswer
  | ok l =>
      obtain ⟨-, rfl⟩ := hlisted l rfl
      have htimes : ∀ e ∈ (B.ds key).entries m'.store,
          parseRFC3339 e.createdAt.format = some e.createdAt := by
        intro e he
        rw [entries, parseSnapshotList_answer m'.wf] at he
        obtain ⟨s, hs, hparsed⟩ := List.mem_filterMap.mp he
        exact time_of_entry hs (m'.wf.valid s (mem_own.mp hs).1).1 hparsed
      have hparse : parseSnapshots (((B.ds key).entries m'.store).map
          (raw (shownType B.keys dbType))) = .ok snaps := hanswer.symm
      rw [parseSnapshots_kept _ htimes] at hparse
      exact (Except.ok.inj hparse).symm

/-- A snapshot that a client is told was taken is there, and new. -/
theorem requested_take {name : String} {overwrite : Bool} (hserving : Serving B dbType key)
    (hname : name ≠ "") (h : Requested B (.takeSnapshot dbType name overwrite) m (.ok ()) m') :
    Taken ((B.ds key).snapshotPath name) m m' := by
  have htame : Tame (.takeSnapshot dbType name overwrite) := ⟨hserving.type, hname⟩
  obtain ⟨reply, ⟨tr, hrun⟩, hanswer⟩ := h.ran htame hserving nofun
  cases reply with
  | error err => cases hanswer
  | ok =>
      have hrun : Machine.Runs ((B.ds key).takeSnapshot (text (utf8 name)) overwrite) m tr
          (.ok ()) m' := hrun
      rw [text_utf8] at hrun
      exact taken_of_runs hrun

end BranchDB.ZfsAgent
