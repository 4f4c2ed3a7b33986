/-
# `BranchDB.ZfsAgent.Snapshots` — the listing of the snapshots on the wire

    handleListSnapshots   `2006-01-02T15:04:05Z` of the clock the time is expressed in
    ListSnapshots         RFC 3339, where `Z` says that the clock is that of UTC

The names arrive in their order.  The times arrive, to the second, exactly if they are expressed
in UTC, or in a zone that has its clock (`survives_iff`).
-/
import BranchDB.ZfsAgent.Client
import Mathlib.Data.List.Forall2

namespace BranchDB.ZfsAgent

open Net

/-- The same name, and the same instant truncated to the second. -/
def Survives (s s' : SnapshotInfo) : Prop :=
  s'.name = s.name ∧ s'.createdAt.nanos = newTime s.createdAt.nanos * second

/-- What is decoded of one snapshot. -/
def raw (dbType : String) (s : SnapshotInfo) : RawSnapshot :=
  ⟨s.name, s.createdAt.format, dbType⟩

/-- The keys that are written are told apart. -/
theorem foldName_keys : foldName "name" ≠ foldName "created_at" ∧
    foldName "name" ≠ foldName "database_type" ∧
    foldName "created_at" ≠ foldName "database_type" := by decide +kernel

theorem decode_snapshotResponse (dbType : String) (s : SnapshotInfo) :
    decode rawFields {} (some (snapshotResponse dbType s)) = ⟨raw dbType s, true⟩ := by
  obtain ⟨h₁, h₂, h₃⟩ := foldName_keys
  unfold snapshotResponse
  split
  · next hempty =>
    simp [decode, decodeMember, rawFields, Field.string, raw, h₁, hempty]
  · simp [decode, decodeMember, rawFields, Field.string, raw, h₁, h₂, h₃]

theorem decodeSlice_snapshots (dbType : String) (l : List SnapshotInfo) :
    decodeSlice rawFields {} (some (.array (l.map (snapshotResponse dbType)))) =
      ⟨l.map (raw dbType), true⟩ := by
  simp [decodeSlice, decode_snapshotResponse, Function.comp_def]

/-- A time is read back if its year has four digits and its clock is that of UTC. -/
theorem parse_format_iff (t : Time) :
    (∃ t', parseRFC3339 t.format = some t' ∧ t'.nanos = newTime t.nanos * second) ↔
      t.offset = 0 ∧ 0 ≤ t.year ∧ t.year < 10000 := by
  by_cases hyear : 0 ≤ t.year ∧ t.year < 10000
  · rw [parseRFC3339_format hyear]
    simp only [Option.some.injEq, exists_eq_left', hyear, and_true]
    rw [second]
    omega
  · rw [parseRFC3339_format_eq_none (by omega)]
    simp [hyear]

theorem parseSnapshots_iff (dbType : String) (l : List SnapshotInfo) :
    (∃ l', parseSnapshots (l.map (raw dbType)) = .ok l' ∧ List.Forall₂ Survives l l') ↔
      ∀ s ∈ l, s.createdAt.offset = 0 ∧ 0 ≤ s.createdAt.year ∧ s.createdAt.year < 10000 := by
  induction l with
  | nil => exact iff_of_true ⟨[], rfl, .nil⟩ nofun
  | cons s rest ih =>
      rw [List.forall_mem_cons, ← ih, ← parse_format_iff, List.map_cons, parseSnapshots]
      cases hparse : parseRFC3339 (raw dbType s).createdAt with
      | none => simp [show parseRFC3339 s.createdAt.format = none from hparse]
      | some t =>
          rw [show parseRFC3339 s.createdAt.format = some t from hparse]
          dsimp only
          cases parseSnapshots (rest.map (raw dbType)) with
          | error err => simp [Except.map]
          | ok more => simp [Except.map, Survives, raw]

/-! ## Main result -/

/-- What the handler answers is read as the same list. -/
def RoundTrips (l : List SnapshotInfo) (resp : Response) : Prop :=
  ∃ l', listedSnapshots resp = .ok l' ∧ List.Forall₂ Survives l l'

variable {h : Handler Id} {r : Request} {p : AgentVolumeProvider Id} {l : List SnapshotInfo}

theorem listed_handled (hp : pickProvider h r = some p) (hl : p .listSnapshots = .ok l) :
    listedSnapshots (handleListSnapshots h r) =
      parseSnapshots (l.map (raw (text (h.typeOf r)))) := by
  have hhandled : handleListSnapshots h r =
      writeJSON 200 (.array (l.map (snapshotResponse (text (h.typeOf r))))) := by
    rw [handleListSnapshots, invoke, hp]
    dsimp only
    rw [hl]
    rfl
  have hstatus : ¬ (200 ≥ 300) := by decide
  rw [hhandled, writeJSON, listedSnapshots, if_neg hstatus, decodeSlice_snapshots, if_pos rfl]

/-- The listing survives the wire exactly if every time is expressed in UTC, and in a year of four
digits. -/
theorem survives_iff (hp : pickProvider h r = some p) (hl : p .listSnapshots = .ok l) :
    RoundTrips l (handleListSnapshots h r) ↔
      ∀ s ∈ l, s.createdAt.offset = 0 ∧ 0 ≤ s.createdAt.year ∧ s.createdAt.year < 10000 := by
  rw [RoundTrips, listed_handled hp hl, parseSnapshots_iff]

/-- An agent that answers with a listing. -/
def demoLister (l : List SnapshotInfo) : AgentVolumeProvider Id
  | .listSnapshots => .ok l
  | .takeSnapshot .. | .deleteSnapshot _ | .resetDataset | .deleteClone _ => .ok ()
  | .gcSnapshots _ => .ok []
  | .createClone .. | .getClone _ => .ok ⟨"", "", ""⟩
  | .listClones => .ok []

def demoListing (l : List SnapshotInfo) : Handler Id := newHandler [("mysql", demoLister l)] "token"

def demoGet : Request where
  method := .get
  url := ⟨utf8 "/snapshots", [], [], false⟩
  authorization := utf8 "Bearer token"

theorem pickProvider_demo (l : List SnapshotInfo) :
    pickProvider (demoListing l) demoGet = some (demoLister l) := by
  have htype : demoGet.dbType = [] := by decide +kernel
  simp [pickProvider, Handler.typeOf, Handler.provider, demoListing, newHandler, htype]

/-- Taken at a whole second, within the next, and at no known time. -/
def demoTimes : List SnapshotInfo :=
  [⟨"base", ⟨1780239845 * second, 0⟩, ""⟩, ⟨"v1", ⟨1780239846 * second + 789, 0⟩, ""⟩,
    ⟨"old", .zero, ""⟩]

theorem survives_demo :
    RoundTrips demoTimes (handleListSnapshots (demoListing demoTimes) demoGet) :=
  (survives_iff (pickProvider_demo _) rfl).mpr (by decide +kernel)

/-- A time of a zone an hour east of UTC comes back an hour later. -/
theorem zone_lost : ∃ l : List SnapshotInfo,
    (∀ s ∈ l, 0 ≤ s.createdAt.year ∧ s.createdAt.year < 10000) ∧
      ¬ RoundTrips l (handleListSnapshots (demoListing l) demoGet) := by
  refine ⟨[⟨"base", ⟨1780239845 * second, 3600⟩, ""⟩], by decide +kernel, ?_⟩
  rintro ⟨l', hlisted, hall⟩
  rw [listed_handled (pickProvider_demo _) rfl] at hlisted
  have hutc := (parseSnapshots_iff _ _).mp ⟨l', hlisted, hall⟩ _ List.mem_cons_self
  exact absurd hutc.1 (by decide)

end BranchDB.ZfsAgent
