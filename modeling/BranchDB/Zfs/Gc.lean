/-
# `BranchDB.Zfs.Gc` — which archives a collection destroys

The collection is run against a pool of which this much is assumed (`Fates`): the clones of a
snapshot are told truthfully or not at all, a snapshot with clones is not destroyed, and whether
one without is, does not depend on the others; a destroy that worked may be told as a failure.
Then what is destroyed is told by the listing alone, whatever the order of the prefixes
(`gc_exact`): of each prefix all but the exempt that have no clones and can be destroyed.  What
is returned is what was destroyed and told so; there may be more (`gc_untold`).

A second collection need not leave all that the first has left.  Archives that are kept for
their clones count, and where archives were made in the same minute, which of them come first
depends on what else is listed (`gc_again_moves`).  Nothing else is destroyed (`gc_again`).
-/
import BranchDB.Stamped
import BranchDB.Zfs.Archives

namespace BranchDB.AgentProvider

open Concur Ranked Strings Zfs
open Machine (demoProvider)

/-! ## Names of archives -/

/-- `{key}-YYYYMMDD-HHMMSS`, as far as the digits go. -/
def StampedOf (key name : String) : Prop :=
  ∃ date time : List Char, date.length = 8 ∧ time.length = 6 ∧
    (∀ c ∈ date ++ time, c.isDigit = true) ∧
    name.toList = key.toList ++ '-' :: (date ++ '-' :: time)

theorem stampedOf_iff {key name : String} :
    StampedOf key name ↔ Stamped.EndsIn '-' Char.isDigit key.toList name.toList := Iff.rfl

theorem isAllDigits_iff {s : List Char} (h : s ≠ []) :
    isAllDigits s = true ↔ ∀ c ∈ s, c.isDigit = true := by
  have hlength : 0 < s.length := List.length_pos_iff.mpr h
  simp only [isAllDigits, List.all_eq_true, decide_eq_true_eq, hlength, and_true, Char.isDigit,
    Bool.and_eq_true]
  rfl

theorem archivePrefix_eq_some {key name : String} :
    archivePrefix name = some key ↔ StampedOf key name := by
  have htest : 16 ≤ name.toList.length →
      ∀ i k, 0 < k → i + k ≤ 16 →
        ((name.toList.drop (name.toList.length - 16)).drop i).take k ≠ [] := by
    intro hlength i k hk hi hnil
    have hzero := congrArg List.length hnil
    rw [List.length_take, List.length_drop, List.length_drop, List.length_nil] at hzero
    omega
  have hkey : String.ofList (name.toList.take (name.toList.length - 16)) = key ↔
      name.toList.take (name.toList.length - 16) = key.toList := by
    rw [← String.toList_inj, String.toList_ofList]
  rw [stampedOf_iff, Stamped.endsIn_iff, Stamped.Test, ← hkey]
  simp only [archivePrefix]
  constructor
  · intro h
    split at h
    · next hend =>
      obtain ⟨hlength, h0, h9, hdate, htime⟩ := hend
      refine ⟨hlength, ⟨h0, h9, ?_, ?_⟩, Option.some.inj h⟩
      · exact (isAllDigits_iff (htest hlength 1 8 (by decide) (by decide))).mp hdate
      · exact (isAllDigits_iff (htest hlength 10 6 (by decide) (by decide))).mp htime
    · cases h
  · rintro ⟨hlength, ⟨h0, h9, hdate, htime⟩, hkey⟩
    rw [← hkey]
    refine if_pos ⟨hlength, h0, h9, ?_, ?_⟩
    · exact (isAllDigits_iff (htest hlength 1 8 (by decide) (by decide))).mpr hdate
    · exact (isAllDigits_iff (htest hlength 10 6 (by decide) (by decide))).mpr htime

/-! ## The pool -/

/-- A pool as the collection finds it. -/
structure Fates where
  /-- What `zfs list` prints. -/
  listing : String
  /-- The clones of each snapshot. -/
  clones : String → List String
  /-- Whether a snapshot can be destroyed, if it has no clones. -/
  falls : String → Bool
  /-- Whether it is told that it was: `zfs` may fail when its work is done. -/
  tells : String → Bool

/-- The clones of a snapshot are told, or the probe fails and says nothing. -/
def Told (clones : List String) (out : Output) : Prop :=
  (out.err = none ∧ (out.stdout = ",".intercalate clones ++ "\n" ∨
    (clones = [] ∧ out.stdout = "-\n"))) ∨ (out.err ≠ none ∧ out.stdout = "")

namespace Fates

/-- The snapshot is destroyed if it comes to that. -/
def Goes (f : Fates) (object : String) : Prop := f.clones object = [] ∧ f.falls object = true

instance (f : Fates) (object : String) : Decidable (f.Goes object) :=
  inferInstanceAs (Decidable (_ ∧ _))

/-- The calls of a collection; the state is what was destroyed so far. -/
def exec (f : Fates) : (c : OsCall) → List String → c.Reply → List String → Prop
  | .zfs (.listSnapshots _), gone, out, gone' =>
    (out.err = none ∧ out.stdout = f.listing) ∧ gone' = gone
  | .zfs (.getClones object), gone, out, gone' => Told (f.clones object) out ∧ gone' = gone
  | .zfs (.destroy _ object), gone, out, gone' =>
    (out.err = none ↔ f.Goes object ∧ f.tells object = true) ∧
      gone' = if f.Goes object then gone ++ [object] else gone
  | .visit keys, gone, order, gone' => order.Perm keys ∧ gone' = gone
  | .zfs _, gone, _, gone' | .hostname, gone, _, gone' | .readThreads, gone, _, gone'
  | .writeThreads _, gone, _, gone' | .now, gone, _, gone' => gone' = gone

end Fates

/-- An attempt was made to destroy it. -/
def Attempted (tr : List (Event OsCall OsCall.Reply (List String))) (object : String) : Prop :=
  ∃ ev ∈ tr, ev.call = .zfs (.destroy false object)

theorem Attempted.append_left {tr : List (Event OsCall OsCall.Reply (List String))}
    {object : String} (h : Attempted tr object)
    (tr' : List (Event OsCall OsCall.Reply (List String))) : Attempted (tr ++ tr') object := by
  obtain ⟨ev, hev, hcall⟩ := h
  exact ⟨ev, List.mem_append_left _ hev, hcall⟩

theorem Attempted.append_right {tr' : List (Event OsCall OsCall.Reply (List String))}
    {object : String} (h : Attempted tr' object)
    (tr : List (Event OsCall OsCall.Reply (List String))) : Attempted (tr ++ tr') object := by
  obtain ⟨ev, hev, hcall⟩ := h
  exact ⟨ev, List.mem_append_right _ hev, hcall⟩

theorem Attempted.cons {tr : List (Event OsCall OsCall.Reply (List String))} {object : String}
    (h : Attempted tr object) (ev : Event OsCall OsCall.Reply (List String)) :
    Attempted (ev :: tr) object :=
  h.append_right [ev]

/-! ## What a collection does -/

variable (p : AgentProvider) {f : Fates} {gone gone' : List String}
  {tr : List (Event OsCall OsCall.Reply (List String))}

theorem deleteSnapshot_fate {name : String} {r : Except GoError Unit}
    (h : (p.deleteSnapshot name).Ends f.exec gone tr r gone') :
    Attempted tr (p.snapshotPath name) ∧
      ((r = .ok () ∧ f.Goes (p.snapshotPath name) ∧ f.tells (p.snapshotPath name) = true) ∨
        ((∃ err, r = .error err) ∧
          ¬ (f.Goes (p.snapshotPath name) ∧ f.tells (p.snapshotPath name) = true))) ∧
      gone' = if f.Goes (p.snapshotPath name) then gone ++ [p.snapshotPath name] else gone := by
  obtain ⟨out, ⟨htold, hgone⟩, rfl, rfl⟩ := p.deleteSnapshot_ends.mp h
  refine ⟨⟨_, List.mem_cons_self, rfl⟩, ?_, hgone⟩
  by_cases herr : out.err = none
  · exact Or.inl ⟨destroyed_ok.mpr herr, htold.mp herr⟩
  · exact Or.inr ⟨exists_of_not_destroyed herr, fun h => herr (htold.mpr h)⟩

/-- A snapshot without clones is never passed over. -/
theorem Told.nil {out : Output} (h : Told [] out) : ¬ Shown out := by
  rintro ⟨hempty, hdash⟩
  rcases h with ⟨-, h | ⟨-, h⟩⟩ | ⟨-, h⟩
  · exact hempty (by rw [h]; decide)
  · exact hdash (by rw [h]; decide)
  · exact hempty (by rw [h]; decide)

/-- The names of those that are destroyed. -/
def felled (f : Fates) (l : List SnapshotInfo) : List String :=
  (l.filter fun s => f.Goes (p.snapshotPath s.name)).map (·.name)

/-- The names of which it is told. -/
def returned (f : Fates) (names : List String) : List String :=
  names.filter fun name => f.tells (p.snapshotPath name)

theorem felled_cons (f : Fates) (s : SnapshotInfo) (l : List SnapshotInfo) : p.felled f (s :: l) =
    if f.Goes (p.snapshotPath s.name) then s.name :: p.felled f l else p.felled f l := by
  split
  · next hgoes => simp [felled, hgoes]
  · next hgoes => simp [felled, hgoes]

theorem collect_fate {l : List SnapshotInfo} {deleted : List String}
    (h : (p.collect l).Ends f.exec gone tr deleted gone') :
    deleted = p.returned f (p.felled f l) ∧
      gone' = gone ++ (p.felled f l).map p.snapshotPath ∧
      ∀ s ∈ l, f.clones (p.snapshotPath s.name) = [] → Attempted tr (p.snapshotPath s.name) := by
  induction l generalizing gone tr deleted with
  | nil =>
      obtain ⟨-, rfl, rfl⟩ := Prog.ends_ret.mp h
      exact ⟨rfl, (List.append_nil _).symm, nofun⟩
  | cons s rest ih =>
      obtain ⟨out, gone₁, tr₁, ⟨htold, rfl⟩, rfl, hrest⟩ := p.collect_ends h
      rcases hrest with ⟨hshown, hrest⟩ | ⟨-, r, gone₂, tr₂, tr₃, more, hdelete, hmore, rfl, hr⟩
      · obtain ⟨hdeleted, hgone, hattempted⟩ := ih hrest
        have hclones : f.clones (p.snapshotPath s.name) ≠ [] := by
          intro hnil
          rw [hnil] at htold
          exact htold.nil hshown
        rw [felled_cons, if_neg (fun hgoes => hclones hgoes.1)]
        refine ⟨hdeleted, hgone, ?_⟩
        intro t ht hnil
        rcases List.mem_cons.mp ht with rfl | ht
        · exact absurd hnil hclones
        · exact (hattempted t ht hnil).cons _
      · obtain ⟨hattempt, hfate, rfl⟩ := p.deleteSnapshot_fate hdelete
        obtain ⟨rfl, rfl, hattempted⟩ := ih hmore
        have hall : ∀ ev, ∀ t ∈ s :: rest, f.clones (p.snapshotPath t.name) = [] →
            Attempted (ev :: (tr₂ ++ tr₃)) (p.snapshotPath t.name) := by
          intro ev t ht hnil
          rcases List.mem_cons.mp ht with rfl | ht
          · exact (hattempt.append_left _).cons ev
          · exact ((hattempted t ht hnil).append_right _).cons ev
        rw [felled_cons]
        refine ⟨?_, ?_, hall _⟩
        · rcases hfate with ⟨rfl, hgoes, htells⟩ | ⟨⟨err, rfl⟩, hnot⟩
          · obtain ⟨-, rfl⟩ := hr.resolve_right nofun
            simp [returned, hgoes, htells]
          · obtain ⟨-, rfl⟩ := hr.resolve_left nofun
            split
            · next hgoes =>
              have htells : f.tells (p.snapshotPath s.name) ≠ true := fun h => hnot ⟨hgoes, h⟩
              simp [returned, htells]
            · rfl
        · split
          · rw [List.map_cons, List.append_assoc, List.singleton_append]
          · rfl

/-- Of the archives of a prefix, those that are destroyed. -/
def fallen (f : Fates) (keep : Nat) (snaps : List SnapshotInfo) (key : String) : List String :=
  p.felled f (surplus keep key snaps)

theorem collectGroups_fate {keep : Nat} {snaps : List SnapshotInfo} {order deleted : List String}
    (h : (p.collectGroups keep (archiveGroups snaps) order).Ends f.exec gone tr deleted gone') :
    deleted = p.returned f (order.flatMap (p.fallen f keep snaps)) ∧
      gone' = gone ++ (order.flatMap (p.fallen f keep snaps)).map p.snapshotPath ∧
      ∀ key ∈ order, ∀ s ∈ surplus keep key snaps,
        f.clones (p.snapshotPath s.name) = [] → Attempted tr (p.snapshotPath s.name) := by
  induction order generalizing gone tr deleted with
  | nil =>
      obtain ⟨-, rfl, rfl⟩ := Prog.ends_ret.mp h
      exact ⟨rfl, (List.append_nil _).symm, nofun⟩
  | cons key order ih =>
      obtain ⟨gone₁, tr₁, tr₂, first, more, hfirst, hmore, rfl, rfl⟩ := p.collectGroups_ends h
      obtain ⟨rfl, rfl, hattempted⟩ := p.collect_fate hfirst
      obtain ⟨rfl, rfl, hattempted'⟩ := ih hmore
      rw [List.flatMap_cons]
      refine ⟨(List.filter_append _ _).symm, ?_, ?_⟩
      · rw [List.map_append, List.append_assoc]
        rfl
      · intro k hk s hs hnil
        rcases List.mem_cons.mp hk with rfl | hk
        · exact (hattempted s hs hnil).append_left _
        · exact (hattempted' k hk s hs hnil).append_right _

theorem afterListing_fate {keepCount : Int} {snaps : List SnapshotInfo}
    {r : Except GoError (List String)} (hkeep : 0 ≤ keepCount)
    (h : (p.afterListing keepCount (.ok snaps)).Ends f.exec gone tr r gone') :
    ∃ order : List String, order.Perm ((archiveGroups snaps).map (·.1)) ∧
      r = .ok (p.returned f (order.flatMap (p.fallen f keepCount.toNat snaps))) ∧
      gone' = gone ++ (order.flatMap (p.fallen f keepCount.toNat snaps)).map p.snapshotPath ∧
      ∀ key ∈ order, ∀ s ∈ surplus keepCount.toNat key snaps,
        f.clones (p.snapshotPath s.name) = [] → Attempted tr (p.snapshotPath s.name) := by
  obtain ⟨order, gone₁, tr₁, deleted, ⟨horder, rfl⟩, hgroups, rfl, rfl⟩ :=
    p.afterListing_ends hkeep h
  obtain ⟨rfl, rfl, hattempted⟩ := p.collectGroups_fate hgroups
  exact ⟨order, horder, rfl, rfl, fun key hkey s hs hnil => (hattempted key hkey s hs hnil).cons _⟩

/-- The snapshots that are listed. -/
def listed (f : Fates) : List SnapshotInfo := parseSnapshotList f.listing p.dataset

theorem gcSnapshots_fate {keepCount : Int} {r : Except GoError (List String)}
    (hkeep : 0 ≤ keepCount) (h : (p.gcSnapshots keepCount).Ends f.exec [] tr r gone') :
    ∃ order : List String, order.Perm ((archiveGroups (p.listed f)).map (·.1)) ∧
      r = .ok (p.returned f (order.flatMap (p.fallen f keepCount.toNat (p.listed f)))) ∧
      gone' = (order.flatMap (p.fallen f keepCount.toNat (p.listed f))).map p.snapshotPath ∧
      ∀ key ∈ order, ∀ s ∈ surplus keepCount.toNat key (p.listed f),
        f.clones (p.snapshotPath s.name) = [] → Attempted tr (p.snapshotPath s.name) := by
  rw [gcSnapshots_eq] at h
  obtain ⟨r₁, gone₁, tr₁, rest, hlist, hrest, rfl⟩ := Prog.ends_bind.mp h
  obtain ⟨out, gone₂, tr₂, ⟨⟨hok, hlisting⟩, rfl⟩, hret, rfl⟩ := ends_zfs_bind.mp hlist
  rw [hok] at hret
  obtain ⟨rfl, rfl, rfl⟩ := Prog.ends_ret.mp hret
  rw [hlisting] at hrest
  obtain ⟨order, horder, hr, hgone, hattempted⟩ := p.afterListing_fate hkeep hrest
  exact ⟨order, horder, hr, hgone, fun key hkey s hs hnil =>
    (hattempted key hkey s hs hnil).append_right _⟩

/-! ## What is destroyed -/

variable {p} {keep : Nat} {snaps : List SnapshotInfo} {name : String}

theorem mem_fallen {key : String} : name ∈ p.fallen f keep snaps key ↔
    ∃ s ∈ surplus keep key snaps, f.Goes (p.snapshotPath s.name) ∧ s.name = name := by
  simp only [fallen, felled, List.mem_map, List.mem_filter, decide_eq_true_eq, and_assoc]

theorem archivePrefix_of_fallen {key : String} (h : name ∈ p.fallen f keep snaps key) :
    archivePrefix name = some key := by
  obtain ⟨s, hs, -, rfl⟩ := mem_fallen.mp h
  exact (mem_of_surplus hs).2

/-- Whatever the order of the prefixes, the same archives are destroyed. -/
theorem mem_destroyed {order : List String}
    (horder : order.Perm ((archiveGroups snaps).map (·.1))) :
    name ∈ order.flatMap (p.fallen f keep snaps) ↔
      ∃ key, ∃ s ∈ surplus keep key snaps, f.Goes (p.snapshotPath s.name) ∧ s.name = name := by
  rw [List.mem_flatMap]
  constructor
  · rintro ⟨key, -, hname⟩
    exact ⟨key, mem_fallen.mp hname⟩
  · rintro ⟨key, s, hs, h⟩
    refine ⟨key, horder.mem_iff.mpr (mem_keys.mpr ⟨s, mem_of_surplus hs⟩), ?_⟩
    exact mem_fallen.mpr ⟨s, hs, h⟩

theorem nodup_surplus_names (hnames : (snaps.map (·.name)).Nodup) (key : String) :
    ((surplus keep key snaps).map (·.name)).Nodup := by
  have harchives : ((archivesOf key snaps).map (·.name)).Nodup :=
    hnames.sublist (List.filter_sublist.map _)
  have hsorted := ((sort_perm (archivesOf key snaps)).map (·.name)).nodup_iff.mpr harchives
  exact hsorted.sublist ((List.drop_sublist _ _).map _)

/-- Each is destroyed once. -/
theorem nodup_destroyed (hnames : (snaps.map (·.name)).Nodup) {order : List String}
    (horder : order.Perm ((archiveGroups snaps).map (·.1))) :
    (order.flatMap (p.fallen f keep snaps)).Nodup := by
  refine List.nodup_flatMap.mpr ⟨?_, ?_⟩
  · intro key _
    exact (nodup_surplus_names hnames key).sublist (List.filter_sublist.map _)
  · refine (horder.nodup_iff.mpr (nodup_keys snaps)).imp fun hne name hleft hright => hne ?_
    exact Option.some.inj
      ((archivePrefix_of_fallen hleft).symm.trans (archivePrefix_of_fallen hright))

theorem eq_of_name (hnames : (snaps.map (·.name)).Nodup) {s t : SnapshotInfo} (hs : s ∈ snaps)
    (ht : t ∈ snaps) (h : s.name = t.name) : s = t :=
  List.inj_on_of_nodup_map hnames hs ht h

/-- What is exempt is not behind as well. -/
theorem not_exempt_of_surplus (hnames : (snaps.map (·.name)).Nodup) {key : String}
    {s : SnapshotInfo} (h : s ∈ surplus keep key snaps) : s ∉ exempt keep key snaps := by
  intro hs
  have hnodup : (exempt keep key snaps ++ surplus keep key snaps).Nodup :=
    (exempt_append_surplus keep key snaps).nodup_iff.mpr (hnames.of_map.filter _)
  exact (List.nodup_append.mp hnodup).2.2 s hs s h rfl

/-! ## Main result -/

variable (p)

/-- What a collection is to do: `deleted` is what it returns, `gone` the names of what is
destroyed. -/
structure Exact (f : Fates) (keep : Nat) (deleted gone : List String) : Prop where
  /-- Of what is destroyed, that is returned of which `zfs destroy` did not fail. -/
  returned : deleted = gone.filter fun name => f.tells (p.snapshotPath name)
  once : gone.Nodup
  stamped : ∀ name ∈ gone, ∃ s ∈ p.listed f, s.name = name ∧ ∃ key, StampedOf key name
  free : ∀ name ∈ gone, f.clones (p.snapshotPath name) = []
  /-- Of each prefix so many are exempt, and the others are destroyed if they can be. -/
  rest : ∀ key, ∃ kept : List SnapshotInfo, kept.Nodup ∧ kept ⊆ archivesOf key (p.listed f) ∧
    kept.length = min keep (archivesOf key (p.listed f)).length ∧
    ∀ s ∈ p.listed f, StampedOf key s.name →
      (s.name ∈ gone ↔ s ∉ kept ∧ f.clones (p.snapshotPath s.name) = [] ∧
        f.falls (p.snapshotPath s.name) = true)

variable {p} in
theorem exact_destroyed (hnames : ((p.listed f).map (·.name)).Nodup) {order : List String}
    (horder : order.Perm ((archiveGroups (p.listed f)).map (·.1))) :
    p.Exact f keep (p.returned f (order.flatMap (p.fallen f keep (p.listed f))))
      (order.flatMap (p.fallen f keep (p.listed f))) where
  returned := rfl
  once := nodup_destroyed hnames horder
  stamped name hname := by
    obtain ⟨key, s, hs, -, rfl⟩ := (mem_destroyed horder).mp hname
    obtain ⟨hmem, hkey⟩ := mem_of_surplus hs
    exact ⟨s, hmem, rfl, key, archivePrefix_eq_some.mp hkey⟩
  free name hname := by
    obtain ⟨key, s, -, hgoes, rfl⟩ := (mem_destroyed horder).mp hname
    exact hgoes.1
  rest key := by
    refine ⟨exempt keep key (p.listed f), ?_, fun s hs => mem_archivesOf.mpr (mem_of_exempt hs),
      length_exempt keep key _, fun s hs hstamped => ?_⟩
    · have hnodup := (exempt_append_surplus keep key (p.listed f)).nodup_iff.mpr
        (hnames.of_map.filter _)
      exact (List.nodup_append.mp hnodup).1
    · rw [mem_destroyed horder]
      constructor
      · rintro ⟨k, t, ht, hgoes, hname⟩
        obtain rfl := eq_of_name hnames (mem_of_surplus ht).1 hs hname
        obtain rfl : k = key :=
          Option.some.inj ((mem_of_surplus ht).2.symm.trans (archivePrefix_eq_some.mpr hstamped))
        exact ⟨not_exempt_of_surplus hnames ht, hgoes⟩
      · rintro ⟨hnot, hgoes⟩
        have hsurplus :=
          (exempt_or_surplus hs (archivePrefix_eq_some.mpr hstamped)).resolve_left hnot
        exact ⟨key, s, hsurplus, hgoes, rfl⟩

/-- A collection destroys what it should, whatever the pool and the order of the prefixes, and
in another order it destroys the same. -/
theorem gc_exact {keepCount : Int} {r : Except GoError (List String)} (hkeep : 1 ≤ keepCount)
    (hnames : ((p.listed f).map (·.name)).Nodup)
    (hrun : (p.gcSnapshots keepCount).Ends f.exec [] tr r gone) :
    (∃ deleted destroyed, r = .ok deleted ∧ gone = destroyed.map p.snapshotPath ∧
      p.Exact f keepCount.toNat deleted destroyed) ∧
      ∀ tr' r' gone', (p.gcSnapshots keepCount).Ends f.exec [] tr' r' gone' → gone'.Perm gone := by
  obtain ⟨order, horder, rfl, rfl, -⟩ := p.gcSnapshots_fate (by omega) hrun
  refine ⟨⟨_, _, rfl, rfl, exact_destroyed hnames horder⟩, ?_⟩
  intro tr' r' gone' hrun'
  obtain ⟨order', horder', -, rfl, -⟩ := p.gcSnapshots_fate (by omega) hrun'
  exact ((horder'.trans horder.symm).flatMap_right _).map _

/-! ## A pool that can be computed -/

namespace Fates

/-- The clones are told, and the prefixes visited in their order. -/
def serve (f : Fates) : (c : OsCall) → List String → c.Reply × List String
  | .zfs (.listSnapshots _), gone => (.ok f.listing, gone)
  | .zfs (.getClones object), gone => (.ok (",".intercalate (f.clones object) ++ "\n"), gone)
  | .zfs (.destroy _ object), gone =>
    (if f.Goes object ∧ f.tells object = true then .ok "" else .failed "" "exit status 1",
      if f.Goes object then gone ++ [object] else gone)
  | .visit keys, gone => (keys, gone)
  | .zfs _, gone => (.ok "", gone)
  | .hostname, gone | .readThreads, gone => (.ok "", gone)
  | .writeThreads _, gone => (.ok (), gone)
  | .now, gone => (.zero, gone)

theorem exec_serve (f : Fates) (c : OsCall) (gone : List String) :
    f.exec c gone (f.serve c gone).1 (f.serve c gone).2 := by
  cases c with
  | zfs c =>
      cases c with
      | listSnapshots => exact ⟨⟨rfl, rfl⟩, rfl⟩
      | getClones => exact ⟨Or.inl ⟨rfl, Or.inl rfl⟩, rfl⟩
      | destroy force object =>
          refine ⟨?_, rfl⟩
          by_cases htold : f.Goes object ∧ f.tells object = true
          · simp [serve, htold, Output.ok]
          · simp [serve, htold, Output.failed]
      | snapshot | rename | clone | share | shareAll | unshare | getSharenfs | listTree | list =>
        rfl
  | visit keys => exact ⟨.refl _, rfl⟩
  | hostname | readThreads | writeThreads | now => rfl

end Fates

/-- A collection can be computed from the listing on. -/
theorem ends_gc (f : Fates) (keepCount : Int) {snaps : List SnapshotInfo}
    (hlisted : p.listed f = snaps) :
    ∃ tr, (p.gcSnapshots keepCount).Ends f.exec [] tr
        ((p.afterListing keepCount (.ok snaps)).run f.serve []).1
        ((p.afterListing keepCount (.ok snaps)).run f.serve []).2 ∧
      tr.map (·.call) = .zfs (.listSnapshots p.dataset) ::
        (p.afterListing keepCount (.ok snaps)).issued f.serve [] := by
  obtain ⟨tr, hrun, hcalls⟩ :=
    Prog.ends_issued f.exec_serve (p.afterListing keepCount (.ok snaps)) []
  have hlist : p.listSnapshots.Ends f.exec []
      [⟨.zfs (.listSnapshots p.dataset), [], .ok f.listing, []⟩] (.ok snaps) [] :=
    ends_zfs_bind.mpr ⟨.ok f.listing, [], [], ⟨⟨rfl, rfl⟩, rfl⟩, hlisted ▸ .ret, rfl⟩
  rw [gcSnapshots_eq]
  refine ⟨_, Prog.ends_bind.mpr ⟨.ok snaps, [], _, tr, hlist, hrun, rfl⟩, ?_⟩
  exact congrArg (OsCall.zfs (.listSnapshots p.dataset) :: ·) hcalls

/-- Archives, by what is in their names, and the minute that is listed. -/
def demoTimes : List (String × Nat) := [("150405", 4), ("150415", 4), ("150425", 4), ("150505", 5)]

def demoLine (time : String × Nat) : String :=
  "tank/mysql@base-20260531-" ++ time.1 ++ "\tSun May 31 15:0" ++ toString time.2 ++ " 2026"

def demoArchive (time : String × Nat) : SnapshotInfo :=
  { name := "base-20260531-" ++ time.1
    createdAt := ⟨(1780239600 + 60 * time.2) * second, 0⟩
    databaseType := "" }

/-- The third of the archives has a clone, if it is there. -/
def demoPool (times : List (String × Nat)) : Fates where
  listing := String.join ((times.map demoLine).map (· ++ "\n"))
  clones object := if object = "tank/mysql@base-20260531-150425" then
    ["tank/mysql/branches/feature"] else []
  falls _ := true
  tells _ := true

theorem demoLine_read : ∀ time ∈ demoTimes, IsLine (demoLine time) ∧
    parseSnapshotLine "tank/mysql" (demoLine time) = some (demoArchive time) := by
  unfold IsLine
  decide +kernel

theorem listed_demoPool {times : List (String × Nat)} (h : times ⊆ demoTimes) :
    demoProvider.listed (demoPool times) = times.map demoArchive := by
  have hlines : ∀ l ∈ times.map demoLine, IsLine l := by
    intro l hl
    obtain ⟨time, htime, rfl⟩ := List.mem_map.mp hl
    exact (demoLine_read time (h htime)).1
  have hread : ∀ time ∈ times, (parseSnapshotLine "tank/mysql" ∘ demoLine) time =
      (some ∘ demoArchive) time := by
    intro time htime
    rw [Function.comp_apply, Function.comp_apply, (demoLine_read time (h htime)).2]
  rw [listed, demoPool, parseSnapshotList, scanLines_join hlines, List.filterMap_map,
    demoProvider, List.filterMap_congr hread, List.filterMap_eq_map]

theorem nodup_demoPool {times : List (String × Nat)} (h : times ⊆ demoTimes)
    (hnodup : (times.map fun time => (demoArchive time).name).Nodup) :
    ((demoProvider.listed (demoPool times)).map (·.name)).Nodup := by
  rw [listed_demoPool h, List.map_map]
  exact hnodup

/-- The same, but `zfs destroy` fails when it has destroyed the oldest. -/
def untoldPool : Fates :=
  { demoPool demoTimes with tells := fun object => object ≠ "tank/mysql@base-20260531-150405" }

/-- Of the two that go the first is returned. -/
theorem untold_runs : ∃ tr, (demoProvider.gcSnapshots 1).Ends untoldPool.exec [] tr
    (.ok ["base-20260531-150415"])
    ["tank/mysql@base-20260531-150415", "tank/mysql@base-20260531-150405"] := by
  have hlisted : demoProvider.listed untoldPool = demoTimes.map demoArchive :=
    listed_demoPool (List.Subset.refl demoTimes)
  obtain ⟨tr, hrun, -⟩ := demoProvider.ends_gc untoldPool 1 hlisted
  have hends : ((demoProvider.afterListing 1 (.ok (demoTimes.map demoArchive))).run
      untoldPool.serve []) = (.ok ["base-20260531-150415"],
        ["tank/mysql@base-20260531-150415", "tank/mysql@base-20260531-150405"]) := by
    decide +kernel
  rw [hends] at hrun
  exact ⟨tr, hrun⟩

theorem gc_exact_demo : ∃ destroyed,
    ["tank/mysql@base-20260531-150415", "tank/mysql@base-20260531-150405"] =
      destroyed.map demoProvider.snapshotPath ∧
    demoProvider.Exact untoldPool 1 ["base-20260531-150415"] destroyed := by
  have hnames : ((demoProvider.listed untoldPool).map (·.name)).Nodup :=
    nodup_demoPool (List.Subset.refl demoTimes) (by decide +kernel)
  obtain ⟨tr, hrun⟩ := untold_runs
  obtain ⟨⟨deleted, destroyed, hr, hgone, hexact⟩, -⟩ :=
    demoProvider.gc_exact (by decide) hnames hrun
  obtain rfl := Except.ok.inj hr
  exact ⟨destroyed, hgone, hexact⟩

/-- A snapshot is destroyed and not returned. -/
theorem gc_untold : ∃ tr deleted gone,
    (demoProvider.gcSnapshots 1).Ends untoldPool.exec [] tr (.ok deleted) gone ∧
      demoProvider.snapshotPath "base-20260531-150405" ∈ gone ∧
      "base-20260531-150405" ∉ deleted := by
  obtain ⟨tr, hrun⟩ := untold_runs
  exact ⟨tr, _, _, hrun, List.mem_cons_of_mem _ List.mem_cons_self, by decide⟩

/-! ## A second collection -/

variable {p}

theorem archivesOf_filter (key : String) (q : SnapshotInfo → Bool) (snaps : List SnapshotInfo) :
    archivesOf key (snaps.filter q) = (archivesOf key snaps).filter q := by
  simp only [archivesOf, List.filter_filter, Bool.and_comm]

/-- What was not behind before is behind now: then one that was, and is still there, is as new. -/
theorem surplus_again {q : SnapshotInfo → Bool} {key : String} {s : SnapshotInfo}
    (hs : s ∈ surplus keep key (snaps.filter q)) (hbefore : s ∈ exempt keep key snaps) :
    ∃ t ∈ surplus keep key snaps, q t = true ∧ recent t = recent s := by
  have hrank := lt_rank_of_surplus hs
  have hsplit : (archivesOf key (snaps.filter q)).Perm
      ((exempt keep key snaps).filter q ++ (surplus keep key snaps).filter q) := by
    rw [archivesOf_filter, ← List.filter_append]
    exact (exempt_append_surplus keep key snaps).symm.filter q
  rw [rank_perm hsplit, rank_append] at hrank
  have hexempt : rank recent ((exempt keep key snaps).filter q) s ≤ keep :=
    calc rank recent ((exempt keep key snaps).filter q) s
        ≤ ((exempt keep key snaps).filter q).length := rank_le_length _ _
      _ ≤ (exempt keep key snaps).length := List.length_filter_le _ _
      _ ≤ keep := by
        rw [length_exempt]
        exact Nat.min_le_left _ _
  obtain ⟨t, ht, hle⟩ := exists_of_rank_pos (f := recent) (x := s)
    (l := (surplus keep key snaps).filter q) (by omega)
  obtain ⟨hsurplus, hq⟩ := List.mem_filter.mp ht
  exact ⟨t, hsurplus, hq, le_antisymm (recent_le_of_exempt hbefore hsurplus) hle⟩

variable (p)

/-- The second listing is the first without what was destroyed. -/
def Remain (f f' : Fates) (gone : List String) : Prop :=
  p.listed f' = (p.listed f).filter fun s => p.snapshotPath s.name ∉ gone

/-- Everything the first collection tried to destroy was destroyed.  Then the second destroys
at most what the first exempted, as old as one it passed over for its clones. -/
theorem gc_again {f' : Fates} {keepCount : Int} {r r' : Except GoError (List String)}
    {tr' : List (Event OsCall OsCall.Reply (List String))} (hkeep : 1 ≤ keepCount)
    (hrun : (p.gcSnapshots keepCount).Ends f.exec [] tr r gone)
    (hall : ∀ object, Attempted tr object → object ∈ gone)
    (hclones : f'.clones = f.clones) (hremain : p.Remain f f' gone)
    (hrun' : (p.gcSnapshots keepCount).Ends f'.exec [] tr' r' gone') :
    ∀ object ∈ gone', ∃ key, ∃ s ∈ exempt keepCount.toNat key (p.listed f),
      ∃ t ∈ surplus keepCount.toNat key (p.listed f), object = p.snapshotPath s.name ∧
        f.clones (p.snapshotPath t.name) ≠ [] ∧ s.createdAt.nanos = t.createdAt.nanos := by
  obtain ⟨order, horder, -, -, hattempted⟩ := p.gcSnapshots_fate (by omega) hrun
  obtain ⟨order', horder', -, rfl, -⟩ := p.gcSnapshots_fate (by omega) hrun'
  -- whatever was behind and had no clones is gone
  have hgone : ∀ key, ∀ s ∈ surplus keepCount.toNat key (p.listed f),
      f.clones (p.snapshotPath s.name) = [] → p.snapshotPath s.name ∈ gone :=
    fun key s hs hnil => hall _ (hattempted key
      (horder.mem_iff.mpr (mem_keys.mpr ⟨s, mem_of_surplus hs⟩)) s hs hnil)
  intro object hobject
  obtain ⟨name, hname, rfl⟩ := List.mem_map.mp hobject
  obtain ⟨key, s, hs, hgoes, rfl⟩ := (mem_destroyed horder').mp hname
  rw [hremain] at hs
  obtain ⟨hmem, hkey⟩ := mem_of_surplus hs
  obtain ⟨hmem, hleft⟩ := List.mem_filter.mp hmem
  have hleft : p.snapshotPath s.name ∉ gone := of_decide_eq_true hleft
  have hnil : f.clones (p.snapshotPath s.name) = [] := hclones ▸ hgoes.1
  rcases exempt_or_surplus hmem hkey with hexempt | hsurplus
  · obtain ⟨t, ht, hthere, hrecent⟩ := surplus_again hs hexempt
    refine ⟨key, s, hexempt, t, ht, rfl, fun hnone => ?_, hrecent.symm⟩
    exact of_decide_eq_true hthere (hgone key t ht hnone)
  · exact absurd (hgone key s hsurplus hnil) hleft

theorem attempted_iff {object : String} :
    Attempted tr object ↔ OsCall.zfs (.destroy false object) ∈ tr.map (·.call) :=
  List.mem_map.symm

/-- The first collection destroys the oldest, and tries to destroy nothing else. -/
theorem demo_runs : ∃ tr r, (demoProvider.gcSnapshots 2).Ends (demoPool demoTimes).exec [] tr r
    ["tank/mysql@base-20260531-150405"] ∧
      ∀ object, Attempted tr object → object ∈ ["tank/mysql@base-20260531-150405"] := by
  have hgone : ((demoProvider.afterListing 2 (.ok (demoTimes.map demoArchive))).run
      (demoPool demoTimes).serve []).2 = ["tank/mysql@base-20260531-150405"] := by decide +kernel
  have hissued : (demoProvider.afterListing 2 (.ok (demoTimes.map demoArchive))).issued
      (demoPool demoTimes).serve [] = [.visit ["base"],
        .zfs (.getClones "tank/mysql@base-20260531-150425"),
        .zfs (.getClones "tank/mysql@base-20260531-150405"),
        .zfs (.destroy false "tank/mysql@base-20260531-150405")] := by decide +kernel
  obtain ⟨tr, hrun, hcalls⟩ := demoProvider.ends_gc (demoPool demoTimes) 2
    (listed_demoPool (List.Subset.refl _))
  rw [hgone] at hrun
  refine ⟨tr, _, hrun, ?_⟩
  intro object hattempted
  rw [attempted_iff, hcalls, hissued] at hattempted
  simpa using hattempted

/-- The second collection destroys another. -/
theorem demo_runs_again : ∃ tr r,
    (demoProvider.gcSnapshots 2).Ends (demoPool demoTimes.tail).exec [] tr r
      ["tank/mysql@base-20260531-150415"] := by
  have hgone : ((demoProvider.afterListing 2 (.ok (demoTimes.tail.map demoArchive))).run
      (demoPool demoTimes.tail).serve []).2 = ["tank/mysql@base-20260531-150415"] := by
    decide +kernel
  obtain ⟨tr, hrun, -⟩ := demoProvider.ends_gc (demoPool demoTimes.tail) 2
    (listed_demoPool (List.tail_subset _))
  rw [hgone] at hrun
  exact ⟨tr, _, hrun⟩

theorem demo_remain : demoProvider.Remain (demoPool demoTimes) (demoPool demoTimes.tail)
    ["tank/mysql@base-20260531-150405"] := by
  rw [Remain, listed_demoPool (List.Subset.refl _), listed_demoPool (List.tail_subset _)]
  decide +kernel

/-- The archive that is destroyed next was exempt, and is as old as the one with a clone. -/
theorem gc_again_demo : ∃ key, ∃ s ∈ exempt 2 key (demoProvider.listed (demoPool demoTimes)),
    ∃ t ∈ surplus 2 key (demoProvider.listed (demoPool demoTimes)),
      "tank/mysql@base-20260531-150415" = demoProvider.snapshotPath s.name ∧
        (demoPool demoTimes).clones (demoProvider.snapshotPath t.name) ≠ [] ∧
        s.createdAt.nanos = t.createdAt.nanos := by
  obtain ⟨tr, r, hrun, hall⟩ := demo_runs
  obtain ⟨tr', r', hrun'⟩ := demo_runs_again
  have hclones : (demoPool demoTimes.tail).clones = (demoPool demoTimes).clones := rfl
  have hmoves := demoProvider.gc_again (by decide) hrun hall hclones demo_remain hrun'
  exact hmoves _ (List.mem_singleton_self _)

/-- All that was attempted was destroyed, and the next collection destroys another. -/
theorem gc_again_moves : ∃ (f f' : Fates) (tr tr' : _) (r r' : _) (gone gone' : List String),
    (demoProvider.gcSnapshots 2).Ends f.exec [] tr r gone ∧
      (∀ object, Attempted tr object → object ∈ gone) ∧ f'.clones = f.clones ∧
      demoProvider.Remain f f' gone ∧
      (demoProvider.gcSnapshots 2).Ends f'.exec [] tr' r' gone' ∧ gone' ≠ [] := by
  obtain ⟨tr, r, hrun, hall⟩ := demo_runs
  obtain ⟨tr', r', hrun'⟩ := demo_runs_again
  have hclones : (demoPool demoTimes.tail).clones = (demoPool demoTimes).clones := rfl
  exact ⟨_, _, tr, tr', r, r', _, _, hrun, hall, hclones, demo_remain, hrun',
    List.cons_ne_nil _ _⟩

end BranchDB.AgentProvider
