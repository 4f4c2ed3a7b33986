/-
# `BranchDB.Zfs.Archives` — the archives of a prefix, newest first

A collection groups what looks like an archive by its prefix (`archivesOf`), sorts each group by
`CreatedAt`, and goes through what is behind the first `keepCount` (`surplus`).  The sort is two
loops that exchange elements.  Its result is in descending order (`sort_descending`), and what
is in descending order it leaves alone (`sort_of_descending`); but equals may change places.
-/
import BranchDB.Ranked
import BranchDB.Zfs.Machine

namespace BranchDB.AgentProvider

open Concur Ranked Strings Zfs

/-! ## The sort -/

/-- What the sort goes by. -/
def recent (s : SnapshotInfo) : Int := s.createdAt.nanos

theorem after_iff {s t : SnapshotInfo} :
    s.createdAt.after t.createdAt = true ↔ recent t < recent s := decide_eq_true_iff

/-- After the inner loop there is none newer than the one in front. -/
theorem exchange_max (front : SnapshotInfo) (snaps : List SnapshotInfo) :
    recent front ≤ recent (exchange front snaps).1 ∧
      ∀ t ∈ (exchange front snaps).2, recent t ≤ recent (exchange front snaps).1 := by
  induction snaps generalizing front with
  | nil => exact ⟨le_refl _, nofun⟩
  | cons s rest ih =>
      unfold exchange
      split
      · next hafter =>
        obtain ⟨hs, hrest⟩ := ih s
        have hfront : recent front ≤ recent (exchange s rest).1 :=
          le_trans (le_of_lt (after_iff.mp hafter)) hs
        refine ⟨hfront, ?_⟩
        intro t ht
        rcases List.mem_cons.mp ht with rfl | ht
        · exact hfront
        · exact hrest t ht
      · next hafter =>
        obtain ⟨hfront, hrest⟩ := ih front
        have hs : recent s ≤ recent front := not_lt.mp fun h => hafter (after_iff.mpr h)
        refine ⟨hfront, ?_⟩
        intro t ht
        rcases List.mem_cons.mp ht with rfl | ht
        · exact le_trans hs hfront
        · exact hrest t ht

theorem sortFrom_descending {n : Nat} {snaps : List SnapshotInfo} (h : snaps.length ≤ n) :
    Descending recent (sortFrom n snaps) := by
  induction n generalizing snaps with
  | zero =>
      obtain rfl := List.eq_nil_of_length_eq_zero (Nat.le_zero.mp h)
      exact .nil
  | succ n ih =>
      cases snaps with
      | nil => exact .nil
      | cons s rest =>
          have hlength := (exchange_perm s rest).length_eq
          simp only [List.length_cons] at h hlength
          refine List.pairwise_cons.mpr ⟨fun t ht => ?_, ih (by omega)⟩
          exact (exchange_max s rest).2 t ((sortFrom_perm n _).mem_iff.mp ht)

theorem sort_descending (snaps : List SnapshotInfo) :
    Descending recent (sortSnapshotsByCreatedAtDesc snaps) :=
  sortFrom_descending (le_refl _)

/-- Nothing changes places with one that is not older. -/
theorem exchange_of_max {front : SnapshotInfo} {snaps : List SnapshotInfo}
    (h : ∀ t ∈ snaps, recent t ≤ recent front) : exchange front snaps = (front, snaps) := by
  induction snaps with
  | nil => rfl
  | cons s rest ih =>
      have hafter : ¬ s.createdAt.after front.createdAt = true :=
        fun hafter => absurd (after_iff.mp hafter) (not_lt.mpr (h s List.mem_cons_self))
      rw [exchange, if_neg hafter, ih fun t ht => h t (List.mem_cons_of_mem s ht)]

theorem sortFrom_of_descending {snaps : List SnapshotInfo} (h : Descending recent snaps) (n : Nat) :
    sortFrom n snaps = snaps := by
  induction n generalizing snaps with
  | zero => rfl
  | succ n ih =>
      cases snaps with
      | nil => rfl
      | cons s rest =>
          obtain ⟨hmax, hrest⟩ := List.pairwise_cons.mp h
          rw [sortFrom, exchange_of_max hmax, ih hrest]

theorem sort_of_descending {snaps : List SnapshotInfo} (h : Descending recent snaps) :
    sortSnapshotsByCreatedAtDesc snaps = snaps :=
  sortFrom_of_descending h _

theorem sort_perm (snaps : List SnapshotInfo) :
    (sortSnapshotsByCreatedAtDesc snaps).Perm snaps :=
  sortFrom_perm _ _

/-! ## The keys -/

theorem mem_keys_addToGroup {groups : List (String × List SnapshotInfo)} {key k : String}
    {s : SnapshotInfo} :
    k ∈ (addToGroup groups key s).map (·.1) ↔ k ∈ groups.map (·.1) ∨ k = key := by
  induction groups with
  | nil =>
      rw [addToGroup, List.map_cons, List.map_nil, List.mem_singleton]
      exact (or_iff_right List.not_mem_nil).symm
  | cons g gs ih =>
      rw [addToGroup]
      split
      · next hg =>
        rw [List.map_cons, List.map_cons, hg]
        simp only [List.mem_cons, or_comm, or_self_left]
      · rw [List.map_cons, List.map_cons, List.mem_cons, List.mem_cons, ih, or_assoc]

theorem nodup_addToGroup {groups : List (String × List SnapshotInfo)} (key : String)
    (s : SnapshotInfo) (h : (groups.map (·.1)).Nodup) :
    ((addToGroup groups key s).map (·.1)).Nodup := by
  induction groups with
  | nil => exact List.nodup_singleton key
  | cons g gs ih =>
      obtain ⟨hnot, hgs⟩ := List.nodup_cons.mp h
      rw [addToGroup]
      split
      · next hg => exact hg ▸ h
      · next hg =>
        refine List.nodup_cons.mpr ⟨fun hin => ?_, ih hgs⟩
        rcases mem_keys_addToGroup.mp hin with hin | hkey
        · exact hnot hin
        · exact hg hkey

theorem nodup_keys (snaps : List SnapshotInfo) : ((archiveGroups snaps).map (·.1)).Nodup := by
  suffices hfold : ∀ (rest : List SnapshotInfo) (groups : List (String × List SnapshotInfo)),
      (groups.map (·.1)).Nodup → ((rest.foldl addArchive groups).map (·.1)).Nodup from
    hfold snaps [] List.nodup_nil
  intro rest
  induction rest with
  | nil => exact fun _ h => h
  | cons s rest ih =>
      intro groups h
      refine ih _ ?_
      unfold addArchive
      split
      · exact nodup_addToGroup _ s h
      · exact h

/-- There is a group for each prefix that has archives, and for no other. -/
theorem mem_keys {key : String} {snaps : List SnapshotInfo} :
    key ∈ (archiveGroups snaps).map (·.1) ↔ ∃ s ∈ snaps, archivePrefix s.name = some key := by
  suffices hfold : ∀ (rest : List SnapshotInfo) (groups : List (String × List SnapshotInfo)),
      key ∈ (rest.foldl addArchive groups).map (·.1) ↔
        key ∈ groups.map (·.1) ∨ ∃ s ∈ rest, archivePrefix s.name = some key from
    (hfold snaps []).trans (or_iff_right List.not_mem_nil)
  intro rest
  induction rest with
  | nil => exact fun groups => ⟨Or.inl, fun h => h.elim id fun ⟨_, hs, _⟩ => nomatch hs⟩
  | cons s rest ih =>
      intro groups
      have hkeys : key ∈ (addArchive groups s).map (·.1) ↔
          key ∈ groups.map (·.1) ∨ archivePrefix s.name = some key := by
        unfold addArchive
        split
        · next k harchive =>
          rw [mem_keys_addToGroup, harchive, Option.some.injEq, eq_comm (a := key)]
        · next hnone => simp [hnone]
      rw [List.foldl_cons, ih, hkeys, or_assoc, List.exists_mem_cons_iff]

/-! ## Which are too many -/

/-- The newest archives of a prefix. -/
def exempt (keep : Nat) (key : String) (snaps : List SnapshotInfo) : List SnapshotInfo :=
  (sortSnapshotsByCreatedAtDesc (archivesOf key snaps)).take keep

variable {keep : Nat} {key : String} {snaps : List SnapshotInfo} {s : SnapshotInfo}

theorem exempt_append_surplus (keep : Nat) (key : String) (snaps : List SnapshotInfo) :
    (exempt keep key snaps ++ surplus keep key snaps).Perm (archivesOf key snaps) := by
  rw [exempt, surplus, List.take_append_drop]
  exact sort_perm _

theorem length_exempt (keep : Nat) (key : String) (snaps : List SnapshotInfo) :
    (exempt keep key snaps).length = min keep (archivesOf key snaps).length := by
  rw [exempt, List.length_take, (sort_perm _).length_eq]

theorem mem_of_exempt (h : s ∈ exempt keep key snaps) :
    s ∈ snaps ∧ archivePrefix s.name = some key :=
  mem_archivesOf.mp (mem_sort.mp (List.mem_of_mem_take h))

/-- An archive is one of the newest or one of those behind. -/
theorem exempt_or_surplus (hs : s ∈ snaps) (hkey : archivePrefix s.name = some key) :
    s ∈ exempt keep key snaps ∨ s ∈ surplus keep key snaps :=
  List.mem_append.mp ((exempt_append_surplus keep key snaps).mem_iff.mpr
    (mem_archivesOf.mpr ⟨hs, hkey⟩))

/-- None of those behind is newer than one of the newest. -/
theorem recent_le_of_exempt {t : SnapshotInfo} (hs : s ∈ exempt keep key snaps)
    (ht : t ∈ surplus keep key snaps) : recent t ≤ recent s := by
  have hdesc := sort_descending (archivesOf key snaps)
  rw [Descending, ← List.take_append_drop keep (sortSnapshotsByCreatedAtDesc _)] at hdesc
  exact (List.pairwise_append.mp hdesc).2.2 s hs t ht

/-- Of those behind, more than `keep` of their prefix are not older. -/
theorem lt_rank_of_surplus (h : s ∈ surplus keep key snaps) :
    keep < rank recent (archivesOf key snaps) s := by
  rw [← rank_perm (sort_perm (archivesOf key snaps)) s]
  exact lt_rank_of_mem_drop (sort_descending _) h

/-! ## The loops -/

variable (p : AgentProvider)

/-- The probe shows clones. -/
def Shown (out : Output) : Prop := trimSpace out.stdout ≠ "" ∧ trimSpace out.stdout ≠ "-"

/-- One archive is passed over for its clones, or an attempt is made to destroy it. -/
theorem collect_ends {σ : Type} {exec : (e : OsCall) → σ → e.Reply → σ → Prop} {s₀ s' : σ}
    {rest : List SnapshotInfo} {tr : List (Event OsCall OsCall.Reply σ)} {deleted : List String}
    (h : (p.collect (s :: rest)).Ends exec s₀ tr deleted s') :
    ∃ (out : Output) (s₁ : σ) (tr' : _),
      exec (.zfs (.getClones (p.snapshotPath s.name))) s₀ out s₁ ∧
      tr = ⟨.zfs (.getClones (p.snapshotPath s.name)), s₀, out, s₁⟩ :: tr' ∧
      ((Shown out ∧ (p.collect rest).Ends exec s₁ tr' deleted s') ∨
        (¬ Shown out ∧ ∃ r s₂ tr₁ tr₂ more, (p.deleteSnapshot s.name).Ends exec s₁ tr₁ r s₂ ∧
          (p.collect rest).Ends exec s₂ tr₂ more s' ∧ tr' = tr₁ ++ tr₂ ∧
          ((r = .ok () ∧ deleted = s.name :: more) ∨
            ((∃ err, r = .error err) ∧ deleted = more)))) := by
  obtain ⟨out, s₁, tr', hprobe, hmore, rfl⟩ := ends_zfs_bind.mp h
  refine ⟨out, s₁, tr', hprobe, rfl, ?_⟩
  split at hmore
  · next hshown => exact Or.inl ⟨hshown, hmore⟩
  · next hshown =>
    obtain ⟨r, s₂, tr₁, tr₂, hdelete, hmore, rfl⟩ := Prog.ends_bind.mp hmore
    refine Or.inr ⟨hshown, r, s₂, tr₁, ?_⟩
    cases r with
    | error err => exact ⟨tr₂, deleted, hdelete, hmore, rfl, Or.inr ⟨⟨err, rfl⟩, rfl⟩⟩
    | ok =>
        obtain ⟨more, s₃, tr₃, tr₄, hcollect, hret, rfl⟩ := Prog.ends_bind.mp hmore
        obtain ⟨rfl, rfl, rfl⟩ := Prog.ends_ret.mp hret
        exact ⟨tr₃, more, hdelete, hcollect, by rw [List.append_nil], Or.inl ⟨rfl, rfl⟩⟩

section

variable {σ : Type} {exec : (e : OsCall) → σ → e.Reply → σ → Prop} {s₀ s' : σ}
  {tr : List (Event OsCall OsCall.Reply σ)}

/-- The groups are gone through one by one. -/
theorem collectGroups_ends {keys deleted : List String}
    (h : (p.collectGroups keep (archiveGroups snaps) (key :: keys)).Ends exec s₀ tr deleted s') :
    ∃ s₁ tr₁ tr₂ first more, (p.collect (surplus keep key snaps)).Ends exec s₀ tr₁ first s₁ ∧
      (p.collectGroups keep (archiveGroups snaps) keys).Ends exec s₁ tr₂ more s' ∧
      deleted = first ++ more ∧ tr = tr₁ ++ tr₂ := by
  rw [collectGroups_cons] at h
  obtain ⟨first, s₁, tr₁, rest, hfirst, hrest, rfl⟩ := Prog.ends_bind.mp h
  obtain ⟨more, s₂, tr₂, last, hmore, hret, rfl⟩ := Prog.ends_bind.mp hrest
  obtain ⟨rfl, rfl, rfl⟩ := Prog.ends_ret.mp hret
  exact ⟨s₁, tr₁, tr₂, first, more, hfirst, hmore, rfl, by rw [List.append_nil]⟩

/-- What is listed is grouped, and the groups are visited in some order. -/
theorem afterListing_ends {keepCount : Int} {r : Except GoError (List String)}
    (hkeep : 0 ≤ keepCount) (h : (p.afterListing keepCount (.ok snaps)).Ends exec s₀ tr r s') :
    ∃ (order : List String) (s₁ : σ) (tr₁ : _) (deleted : List String),
      exec (.visit ((archiveGroups snaps).map (·.1))) s₀ order s₁ ∧
      (p.collectGroups keepCount.toNat (archiveGroups snaps) order).Ends exec s₁ tr₁ deleted s' ∧
      r = .ok deleted ∧ tr = ⟨.visit ((archiveGroups snaps).map (·.1)), s₀, order, s₁⟩ :: tr₁ := by
  obtain ⟨order, s₁, rest, hvisit, hrest, rfl⟩ := Prog.ends_call.mp h
  have hnot : ¬ (keepCount < 0 ∧ archiveGroups snaps ≠ []) := fun hlt => by omega
  have hgroups : (p.collectGroups keepCount.toNat (archiveGroups snaps) order >>=
      fun deleted => pure (Except.ok deleted)).Ends exec s₁ rest r s' := by
    simp only [if_neg hnot] at hrest
    exact hrest
  obtain ⟨deleted, s₂, tr₁, last, hcollected, hret, rfl⟩ := Prog.ends_bind.mp hgroups
  obtain ⟨rfl, rfl, rfl⟩ := Prog.ends_ret.mp hret
  exact ⟨order, s₁, tr₁, deleted, hvisit, hcollected, rfl, by rw [List.append_nil]⟩

end

end BranchDB.AgentProvider
