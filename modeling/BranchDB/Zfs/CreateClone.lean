/-
# `BranchDB.Zfs.CreateClone` — the runs of `CreateClone`

    clone ─ok──────────────▶ share ─ok─────────────────────▶ VolumeInfo
      ├─already exists─────▶   └─error─▶ get sharenfs ─value▶ VolumeInfo
      └─error─▶ error                      └─error, off─▶ [destroy -f if cloned just now] ─▶ error

Each run is one of these paths (`runs_createClone`, `runs_exportClone`).  On success something
is there under the path of the clone (`createClone_exists`).
-/
import BranchDB.Zfs.Calls
import BranchDB.Zfs.Machine

namespace BranchDB.AgentProvider

open Concur Strings Zfs Machine

variable (p : AgentProvider) {snapshot cloneName : String} {m m' : Machine}
  {tr : List (Event OsCall OsCall.Reply Machine)} {r : Except GoError VolumeInfo}

/-- The address of the host, if it answers so about its addresses. -/
def address : Except GoError String → String
  | .ok out => (fields out).head?.getD "127.0.0.1"
  | .error _ => "127.0.0.1"

/-- Where a clone is found. -/
def volume (cloneName : String) (addresses : Except GoError String) : VolumeInfo where
  cloneName := cloneName
  nfsServer := address addresses
  nfsPath := "/" ++ p.clonePath cloneName

theorem runs_shared (h : Runs (p.shared cloneName) m tr r m') :
    ∃ addresses, r = .ok (p.volume cloneName addresses) ∧ m' = m ∧
      tr = [⟨.hostname, m, addresses, m⟩] := by
  obtain ⟨addresses, m₁, rest, hexec, hrest, rfl⟩ := Prog.ends_call.mp h
  obtain rfl : m₁ = m := hexec
  cases addresses with
  | error err =>
      obtain ⟨rfl, rfl, rfl⟩ := Prog.ends_ret.mp hrest
      exact ⟨.error err, rfl, rfl, rfl⟩
  | ok out =>
      obtain ⟨rfl, rfl, rfl⟩ := Prog.ends_ret.mp hrest
      exact ⟨.ok out, rfl, rfl, rfl⟩

/-- The probe of a failed share says that the clone is shared all the same. -/
def Shared (out : Output) : Prop := out.err = none ∧ trimSpace out.stdout ≠ "off"

/-- How `zfs share` and what follows it may go. -/
inductive Exported (cloneName : String) (created : Bool) (m : Machine) :
    List (Event OsCall OsCall.Reply Machine) → Except GoError VolumeInfo → Machine → Prop
  | shared {out : Output} {m₁ : Machine} (addresses : Except GoError String) :
      exec (.zfs (.share (p.clonePath cloneName))) m out m₁ → out.err = none →
      Exported cloneName created m
        [⟨.zfs (.share (p.clonePath cloneName)), m, out, m₁⟩, ⟨.hostname, m₁, addresses, m₁⟩]
        (.ok (p.volume cloneName addresses)) m₁
  | wasShared {out probe : Output} {m₁ m₂ : Machine} (addresses : Except GoError String) :
      exec (.zfs (.share (p.clonePath cloneName))) m out m₁ → out.err ≠ none →
      exec (.zfs (.getSharenfs (p.clonePath cloneName))) m₁ probe m₂ → Shared probe →
      Exported cloneName created m
        [⟨.zfs (.share (p.clonePath cloneName)), m, out, m₁⟩,
          ⟨.zfs (.getSharenfs (p.clonePath cloneName)), m₁, probe, m₂⟩,
          ⟨.hostname, m₂, addresses, m₂⟩]
        (.ok (p.volume cloneName addresses)) m₂
  | left {out probe : Output} {m₁ m₂ : Machine} (err : GoError) :
      exec (.zfs (.share (p.clonePath cloneName))) m out m₁ → out.err ≠ none →
      exec (.zfs (.getSharenfs (p.clonePath cloneName))) m₁ probe m₂ → ¬ Shared probe →
      created = false →
      Exported cloneName created m
        [⟨.zfs (.share (p.clonePath cloneName)), m, out, m₁⟩,
          ⟨.zfs (.getSharenfs (p.clonePath cloneName)), m₁, probe, m₂⟩]
        (.error err) m₂
  | takenBack {out probe destroyed : Output} {m₁ m₂ m₃ : Machine} (err : GoError) :
      exec (.zfs (.share (p.clonePath cloneName))) m out m₁ → out.err ≠ none →
      exec (.zfs (.getSharenfs (p.clonePath cloneName))) m₁ probe m₂ → ¬ Shared probe →
      created = true → exec (.zfs (.destroy true (p.clonePath cloneName))) m₂ destroyed m₃ →
      Exported cloneName created m
        [⟨.zfs (.share (p.clonePath cloneName)), m, out, m₁⟩,
          ⟨.zfs (.getSharenfs (p.clonePath cloneName)), m₁, probe, m₂⟩,
          ⟨.zfs (.destroy true (p.clonePath cloneName)), m₂, destroyed, m₃⟩]
        (.error err) m₃

theorem runs_exportClone {created : Bool} (h : Runs (p.exportClone cloneName created) m tr r m') :
    p.Exported cloneName created m tr r m' := by
  obtain ⟨result, m₁, first, rest, hshare, hrest, rfl⟩ := Prog.ends_bind.mp h
  obtain ⟨out, hexec, rfl, hresult⟩ := runs_run hshare
  cases result with
  | ok =>
      obtain ⟨addresses, rfl, rfl, rfl⟩ := p.runs_shared hrest
      exact .shared addresses hexec (hresult.mp rfl)
  | error err =>
      have herr : out.err ≠ none := fun hnone => nomatch hresult.mpr hnone
      obtain ⟨probe, m₂, more, hget, hmore, rfl⟩ := runs_zfs_bind.mp hrest
      by_cases hoff : probe.err ≠ none ∨ trimSpace probe.stdout = "off"
      · have hnot : ¬ Shared probe := by
          rintro ⟨hnone, hon⟩
          rcases hoff with hoff | hoff
          · exact hoff hnone
          · exact hon hoff
        rw [if_pos hoff] at hmore
        cases created with
        | false =>
            obtain ⟨rfl, rfl, rfl⟩ := Prog.ends_ret.mp hmore
            exact .left _ hexec herr hget hnot rfl
        | true =>
            obtain ⟨_, m₃, first, last, htaken, hlast, rfl⟩ := Prog.ends_bind.mp hmore
            obtain ⟨destroyed, hdestroy, rfl, -⟩ := runs_run htaken
            obtain ⟨rfl, rfl, rfl⟩ := Prog.ends_ret.mp hlast
            exact .takenBack _ hexec herr hget hnot rfl hdestroy
      · have hshared : Shared probe := by
          rw [not_or, not_not] at hoff
          exact hoff
        rw [if_neg hoff] at hmore
        obtain ⟨addresses, rfl, rfl, rfl⟩ := p.runs_shared hmore
        exact .wasShared addresses hexec herr hget hshared

/-- The clone is taken to be there already. -/
def Reused (out : Output) : Prop := contains out.combined "dataset already exists" = true

/-- How `CreateClone` may go. -/
theorem runs_createClone (h : Runs (p.createClone snapshot cloneName) m tr r m') :
    ∃ out m₁ rest,
      exec (.zfs (.clone (p.snapshotPath snapshot) (p.clonePath cloneName))) m out m₁ ∧
      tr = ⟨.zfs (.clone (p.snapshotPath snapshot) (p.clonePath cloneName)), m, out, m₁⟩ :: rest ∧
      ((out.err = none ∧ p.Exported cloneName true m₁ rest r m') ∨
        (out.err ≠ none ∧ Reused out ∧ p.Exported cloneName false m₁ rest r m') ∨
        (out.err ≠ none ∧ ¬ Reused out ∧ (∃ err, r = .error err) ∧ m' = m₁ ∧ rest = [])) := by
  rw [createClone_eq] at h
  obtain ⟨out, m₁, rest, hexec, hrest, rfl⟩ := runs_zfs_bind.mp h
  refine ⟨out, m₁, rest, hexec, rfl, ?_⟩
  unfold afterClone at hrest
  cases herr : out.err with
  | none =>
      rw [herr] at hrest
      exact Or.inl ⟨rfl, p.runs_exportClone hrest⟩
  | some err =>
      rw [herr] at hrest
      dsimp only at hrest
      split at hrest
      · next hreused => exact Or.inr (Or.inl ⟨nofun, hreused, p.runs_exportClone hrest⟩)
      · next hreused =>
        obtain ⟨rfl, rfl, rfl⟩ := Prog.ends_ret.mp hrest
        exact Or.inr (Or.inr ⟨nofun, hreused, ⟨_, rfl⟩, rfl, rfl⟩)

/-- If it succeeds, the clone was exported. -/
theorem runs_createClone_ok {vol : VolumeInfo}
    (h : Runs (p.createClone snapshot cloneName) m tr (.ok vol) m') :
    ∃ out m₁ rest created,
      exec (.zfs (.clone (p.snapshotPath snapshot) (p.clonePath cloneName))) m out m₁ ∧
      tr = ⟨.zfs (.clone (p.snapshotPath snapshot) (p.clonePath cloneName)), m, out, m₁⟩ :: rest ∧
      p.Exported cloneName created m₁ rest (.ok vol) m' := by
  obtain ⟨out, m₁, rest, hclone, htr, hpath⟩ := p.runs_createClone h
  rcases hpath with ⟨-, hexported⟩ | ⟨-, -, hexported⟩ | ⟨-, -, ⟨err, hr⟩, -⟩
  · exact ⟨out, m₁, rest, true, hclone, htr, hexported⟩
  · exact ⟨out, m₁, rest, false, hclone, htr, hexported⟩
  · cases hr

/-! ## What is there afterwards -/

theorem exec_zfs_datasets {c : Command} {out : Output} (h : exec (.zfs c) m out m')
    (hc : c.Spares) : m'.store.datasets = m.store.datasets := by
  obtain ⟨⟨clock, hserved⟩, -⟩ := h
  exact hserved.datasets hc

/-- Of the filesystems, a successful export changes nothing. -/
theorem Exported.datasets {created : Bool} {vol : VolumeInfo}
    (h : p.Exported cloneName created m tr (.ok vol) m') :
    m'.store.datasets = m.store.datasets := by
  cases h with
  | shared addresses hshare => exact exec_zfs_datasets hshare trivial
  | wasShared addresses hshare _ hget =>
      exact (exec_zfs_datasets hget trivial).trans (exec_zfs_datasets hshare trivial)

/-- What was shared, or had its property read, is there. -/
theorem Exported.exists {created : Bool} {vol : VolumeInfo}
    (h : p.Exported cloneName created m tr (.ok vol) m') :
    m'.store.Exists (p.clonePath cloneName) := by
  cases h with
  | shared addresses hshare hok =>
      obtain ⟨⟨clock, hserved⟩, -⟩ := hshare
      obtain ⟨horigin, hmem⟩ := filesystem_ne_none.mp (exists_of_share (hserved.of_ok hok).1)
      exact Or.inl (filesystem_ne_none.mpr
        ⟨horigin, (hserved.datasets trivial).symm ▸ hmem⟩)
  | wasShared addresses _ _ hget hshared =>
      obtain ⟨⟨clock, hserved⟩, -⟩ := hget
      obtain ⟨hr, -, hst⟩ := hserved.of_ok hshared.1
      rw [hst]
      exact refusal_getSharenfs.mp hr

theorem createClone_exists {vol : VolumeInfo}
    (h : Runs (p.createClone snapshot cloneName) m tr (.ok vol) m') :
    m'.store.Exists (p.clonePath cloneName) := by
  obtain ⟨out, m₁, rest, created, -, -, hexported⟩ := p.runs_createClone_ok h
  exact hexported.exists

end BranchDB.AgentProvider
