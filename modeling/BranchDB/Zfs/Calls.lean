/-
# `BranchDB.Zfs.Calls` — which calls the methods issue

For each method of the provider: whatever holds of the calls listed holds of every call it
may issue, whatever these are answered.
-/
import BranchDB.Zfs.AgentProvider

namespace BranchDB

open Concur Zfs

namespace AgentProvider

variable (p : AgentProvider) {P : OsCall → Prop}

theorem at_mem_snapshotPath (name : String) : '@' ∈ (p.snapshotPath name).toList := by
  simp [snapshotPath]

theorem run_only {c : Command} (h : P (.zfs c)) : (run c).Only P := by
  refine .bind (.perform h) ?_
  intro out
  cases out.err with
  | none => exact .ret
  | some err => exact .ret

/-! ## Snapshots -/

theorem archive_only {name : String} (hnow : P .now)
    (hrename : ∀ t : Time, P (.zfs (.rename (p.snapshotPath name)
      (p.snapshotPath (name ++ "-" ++ t.stamp))))) :
    (p.archive name).Only P := by
  refine .bind (.perform hnow) fun t => .bind (run_only (hrename t)) ?_
  intro r
  cases r with
  | error err => exact .ret
  | ok => exact .ret

theorem makeRoom_only {name : String}
    (hdestroy : P (.zfs (.destroy false (p.snapshotPath name)))) (hnow : P .now)
    (hrename : ∀ t : Time, P (.zfs (.rename (p.snapshotPath name)
      (p.snapshotPath (name ++ "-" ++ t.stamp))))) :
    (p.makeRoom name).Only P := by
  refine .bind (.perform hdestroy) ?_
  intro out
  cases out.err with
  | none => exact .ret
  | some err =>
      dsimp only
      split
      · exact .ret
      · split
        · exact p.archive_only hnow hrename
        · exact .ret

theorem takeSnapshot_only {name : String} {overwrite : Bool}
    (hdestroy : P (.zfs (.destroy false (p.snapshotPath name)))) (hnow : P .now)
    (hrename : ∀ t : Time, P (.zfs (.rename (p.snapshotPath name)
      (p.snapshotPath (name ++ "-" ++ t.stamp)))))
    (hsnapshot : P (.zfs (.snapshot (p.snapshotPath name)))) :
    (p.takeSnapshot name overwrite).Only P := by
  cases overwrite with
  | false => exact run_only hsnapshot
  | true =>
      refine .bind (p.makeRoom_only hdestroy hnow hrename) ?_
      intro r
      cases r with
      | error err => exact .ret
      | ok => exact run_only hsnapshot

/-- What `DeleteSnapshot` makes of what `zfs destroy` answered. -/
def destroyed (name : String) (out : Output) : Except GoError Unit :=
  match out.err with
  | none => .ok ()
  | some err =>
    let outStr := Strings.trimSpace out.combined
    if Strings.contains outStr "dataset does not exist" then .error errNotFound
    else if Strings.contains outStr "has dependent clones" then
      .error (errorf ("snapshot " ++ quote name ++
        " has dependent clones (delete all branches using this snapshot first)"))
    else .error (errDestroy err outStr)

theorem deleteSnapshot_eq (name : String) : p.deleteSnapshot name =
    zfs (.destroy false (p.snapshotPath name)) >>= fun out => Prog.ret (destroyed name out) := by
  refine congrArg (zfs (.destroy false (p.snapshotPath name)) >>= ·) (funext fun out => ?_)
  unfold destroyed
  cases out.err with
  | none => rfl
  | some err =>
      dsimp only
      split
      · rfl
      · split
        · rfl
        · rfl

theorem destroyed_ok {name : String} {out : Output} :
    destroyed name out = .ok () ↔ out.err = none := by
  unfold destroyed
  cases out.err with
  | none => exact iff_of_true rfl rfl
  | some err =>
      dsimp only
      split
      · exact iff_of_false nofun nofun
      · split
        · exact iff_of_false nofun nofun
        · exact iff_of_false nofun nofun

theorem exists_of_not_destroyed {name : String} {out : Output} (h : out.err ≠ none) :
    ∃ err, destroyed name out = .error err := by
  cases hr : destroyed name out with
  | ok => exact absurd (destroyed_ok.mp hr) h
  | error err => exact ⟨err, rfl⟩

theorem deleteSnapshot_only {name : String}
    (hdestroy : P (.zfs (.destroy false (p.snapshotPath name)))) :
    (p.deleteSnapshot name).Only P := by
  rw [deleteSnapshot_eq]
  exact .bind (.perform hdestroy) fun _ => .ret

theorem listSnapshots_only (hlist : P (.zfs (.listSnapshots p.dataset))) :
    p.listSnapshots.Only P := by
  refine .bind (.perform hlist) ?_
  intro out
  cases out.err with
  | none => exact .ret
  | some err => exact .ret

/-! ## Clones -/

theorem shared_only {cloneName : String} (hhostname : P .hostname) :
    (p.shared cloneName).Only P := by
  refine .bind (.bind (.perform hhostname) fun out => ?_) fun _ => .ret
  cases out with
  | error err => exact .ret
  | ok out => exact .ret

theorem unshared_only {target : String} {created : Bool} {err : GoError}
    (hdestroy : created = true → P (.zfs (.destroy true target))) :
    (p.unshared target created err).Only P := by
  cases created with
  | false => exact .ret
  | true => exact .bind (run_only (hdestroy rfl)) fun _ => .ret

theorem exportClone_only {cloneName : String} {created : Bool} (hhostname : P .hostname)
    (hshare : P (.zfs (.share (p.clonePath cloneName))))
    (hget : P (.zfs (.getSharenfs (p.clonePath cloneName))))
    (hdestroy : created = true → P (.zfs (.destroy true (p.clonePath cloneName)))) :
    (p.exportClone cloneName created).Only P := by
  refine .bind (run_only hshare) ?_
  intro r
  cases r with
  | ok => exact p.shared_only hhostname
  | error err =>
      refine .bind (.perform hget) ?_
      intro out
      split
      · exact p.unshared_only hdestroy
      · exact p.shared_only hhostname

/-- What `CreateClone` does once `zfs clone` has answered. -/
def afterClone (snapshot cloneName : String) (out : Output) : Os (Except GoError VolumeInfo) :=
  match out.err with
  | none => p.exportClone cloneName true
  | some err =>
    if Strings.contains out.combined "dataset already exists" then p.exportClone cloneName false
    else return .error (errClone (p.snapshotPath snapshot) (p.clonePath cloneName) err out.combined)

theorem createClone_eq (snapshot cloneName : String) :
    p.createClone snapshot cloneName =
      zfs (.clone (p.snapshotPath snapshot) (p.clonePath cloneName)) >>=
        p.afterClone snapshot cloneName := rfl

theorem afterClone_only {snapshot cloneName : String} {out : Output} (hhostname : P .hostname)
    (hshare : P (.zfs (.share (p.clonePath cloneName))))
    (hget : P (.zfs (.getSharenfs (p.clonePath cloneName))))
    (hdestroy : out.err = none → P (.zfs (.destroy true (p.clonePath cloneName)))) :
    (p.afterClone snapshot cloneName out).Only P := by
  unfold afterClone
  cases herr : out.err with
  | none => exact p.exportClone_only hhostname hshare hget fun _ => hdestroy herr
  | some err =>
      dsimp only
      split
      · exact p.exportClone_only hhostname hshare hget nofun
      · exact .ret

/-- What `readNFSDThreads` makes of the file. -/
def threadCount : Except GoError String → Int
  | .error _ => 8
  | .ok b =>
    match Strings.atoi (Strings.trimSpace b) with
    | none => 8
    | some n => if n ≤ 0 then 8 else n

theorem readNFSDThreads_eq :
    readNFSDThreads = os .readThreads >>= fun b => Prog.ret (threadCount b) := by
  refine congrArg (os .readThreads >>= ·) (funext fun b => ?_)
  cases b with
  | error err => rfl
  | ok b =>
      dsimp only [threadCount]
      cases Strings.atoi (Strings.trimSpace b) with
      | none => rfl
      | some n => rfl

theorem threadCount_eq {t : Nat} (ht : t < 2 ^ 31) :
    threadCount (.ok (toString t ++ "\n")) = if t = 0 then 8 else (t : Int) := by
  have hread : Strings.atoi (Strings.trimSpace (toString t ++ "\n")) = some (t : Int) :=
    Strings.atoi_toString (by omega)
  unfold threadCount
  dsimp only
  rw [hread]
  dsimp only
  by_cases hzero : t = 0
  · rw [if_pos hzero, if_pos (by omega)]
  · rw [if_neg hzero, if_neg (by omega)]

/-- It is never taken for none. -/
theorem threadCount_ne_zero (b : Except GoError String) : threadCount b ≠ 0 := by
  cases b with
  | error err => exact nofun
  | ok b =>
      dsimp only [threadCount]
      cases Strings.atoi (Strings.trimSpace b) with
      | none => exact nofun
      | some n =>
          dsimp only
          split
          · exact nofun
          · omega

theorem releaseNFSAndDestroy_only {target : String} (hread : P .readThreads)
    (hwrite : ∀ n, P (.writeThreads n)) (hdestroy : P (.zfs (.destroy true target)))
    (hshare : P (.zfs .shareAll)) : (releaseNFSAndDestroy target).Only P := by
  refine .bind (.bind (.perform hread) fun b => ?_) fun prev =>
    .bind (.perform (hwrite 0)) fun r => ?_
  · cases b with
    | error err => exact .ret
    | ok b =>
        dsimp only
        split
        · exact .ret
        · exact .ret
  · cases r with
    | error err => exact .ret
    | ok =>
        refine .bind (.perform hdestroy) fun out => .bind (.perform (hwrite prev)) fun _ =>
          .bind (.perform hshare) fun _ => ?_
        cases out.err with
        | none => exact .ret
        | some err => exact .ret

theorem deleteClone_only {cloneName : String}
    (hunshare : P (.zfs (.unshare (p.clonePath cloneName)))) (hread : P .readThreads)
    (hwrite : ∀ n, P (.writeThreads n))
    (hdestroy : P (.zfs (.destroy true (p.clonePath cloneName)))) (hshare : P (.zfs .shareAll)) :
    (p.deleteClone cloneName).Only P := by
  refine .bind (.perform hunshare) fun _ => .bind (.perform hdestroy) ?_
  intro out
  cases out.err with
  | none => exact .ret
  | some err =>
      dsimp only
      split
      · exact .ret
      · split
        · exact .ret
        · refine .bind (releaseNFSAndDestroy_only hread hwrite hdestroy hshare) ?_
          intro r
          cases r with
          | error err => exact .ret
          | ok => exact .ret

/-! ## Garbage collection -/

theorem collect_only {snaps : List SnapshotInfo}
    (hget : ∀ s ∈ snaps, P (.zfs (.getClones (p.snapshotPath s.name))))
    (hdestroy : ∀ s ∈ snaps, P (.zfs (.destroy false (p.snapshotPath s.name)))) :
    (p.collect snaps).Only P := by
  induction snaps with
  | nil => exact .ret
  | cons s rest ih =>
      have hrest := ih (fun t ht => hget t (List.mem_cons_of_mem _ ht))
        (fun t ht => hdestroy t (List.mem_cons_of_mem _ ht))
      refine .bind (.perform (hget s List.mem_cons_self)) ?_
      intro out
      split
      · exact hrest
      · refine .bind (p.deleteSnapshot_only (hdestroy s List.mem_cons_self)) ?_
        intro r
        cases r with
        | error err => exact hrest
        | ok => exact .bind hrest fun _ => .ret

theorem exchange_perm (front : SnapshotInfo) (snaps : List SnapshotInfo) :
    ((exchange front snaps).1 :: (exchange front snaps).2).Perm (front :: snaps) := by
  induction snaps generalizing front with
  | nil => exact .refl _
  | cons s rest ih =>
      unfold exchange
      split
      · exact (List.Perm.swap _ _ _).trans ((ih s).cons front)
      · exact ((List.Perm.swap _ _ _).trans ((ih front).cons s)).trans (List.Perm.swap _ _ _)

theorem sortFrom_perm (n : Nat) (snaps : List SnapshotInfo) : (sortFrom n snaps).Perm snaps := by
  induction n generalizing snaps with
  | zero => exact .refl _
  | succ n ih =>
      cases snaps with
      | nil => exact .refl _
      | cons s rest => exact ((ih _).cons _).trans (exchange_perm s rest)

theorem mem_sort {snaps : List SnapshotInfo} {s : SnapshotInfo} :
    s ∈ sortSnapshotsByCreatedAtDesc snaps ↔ s ∈ snaps :=
  (sortFrom_perm _ _).mem_iff

/-! ## The groups -/

/-- The archives of a prefix, in the order of the listing. -/
def archivesOf (key : String) (snaps : List SnapshotInfo) : List SnapshotInfo :=
  snaps.filter fun s => archivePrefix s.name = some key

theorem mem_archivesOf {key : String} {snaps : List SnapshotInfo} {s : SnapshotInfo} :
    s ∈ archivesOf key snaps ↔ s ∈ snaps ∧ archivePrefix s.name = some key := by
  rw [archivesOf, List.mem_filter, decide_eq_true_iff]

theorem lookup_cons_if (g : String × List SnapshotInfo) (gs : List (String × List SnapshotInfo))
    (k : String) : (g :: gs).lookup k = if k = g.1 then some g.2 else gs.lookup k := by
  rw [List.lookup_cons]
  split
  · next h => rw [if_pos (eq_of_beq h)]
  · next h => rw [if_neg (ne_of_beq_false h)]

theorem lookup_addToGroup (groups : List (String × List SnapshotInfo)) (key k : String)
    (s : SnapshotInfo) : ((addToGroup groups key s).lookup k).getD [] =
      (groups.lookup k).getD [] ++ if key = k then [s] else [] := by
  induction groups with
  | nil =>
      rw [addToGroup, lookup_cons_if]
      by_cases hk : key = k
      · rw [if_pos hk.symm, if_pos hk]
        rfl
      · rw [if_neg (Ne.symm hk), if_neg hk]
        rfl
  | cons g gs ih =>
      rw [addToGroup]
      split
      · next hg =>
        rw [lookup_cons_if, lookup_cons_if, hg]
        by_cases hk : key = k
        · rw [if_pos hk.symm, if_pos hk.symm, if_pos hk]
          rfl
        · rw [if_neg (Ne.symm hk), if_neg (Ne.symm hk), if_neg hk, List.append_nil]
      · next hg =>
        rw [lookup_cons_if, lookup_cons_if]
        by_cases hk : k = g.1
        · rw [if_pos hk, if_pos hk, if_neg fun h => hg (hk ▸ h).symm, List.append_nil]
        · rw [if_neg hk, if_neg hk, ih]

theorem lookup_addArchive (groups : List (String × List SnapshotInfo)) (s : SnapshotInfo)
    (key : String) : ((addArchive groups s).lookup key).getD [] =
      (groups.lookup key).getD [] ++ archivesOf key [s] := by
  unfold addArchive
  split
  · next k harchive =>
    rw [lookup_addToGroup, archivesOf, List.filter_cons, List.filter_nil, harchive]
    simp only [Option.some.injEq, decide_eq_true_eq]
  · next hnone =>
    rw [archivesOf, List.filter_cons, hnone]
    exact (List.append_nil _).symm

/-- The group of a prefix is its archives. -/
theorem lookup_archiveGroups (key : String) (snaps : List SnapshotInfo) :
    ((archiveGroups snaps).lookup key).getD [] = archivesOf key snaps := by
  suffices hfold : ∀ (rest : List SnapshotInfo) (groups : List (String × List SnapshotInfo)),
      ((rest.foldl addArchive groups).lookup key).getD [] =
        (groups.lookup key).getD [] ++ archivesOf key rest from
    hfold snaps []
  intro rest
  induction rest with
  | nil => exact fun groups => (List.append_nil _).symm
  | cons s rest ih =>
      intro groups
      rw [List.foldl_cons, ih, lookup_addArchive, List.append_assoc]
      exact congrArg _ (List.filter_append [s] rest).symm

/-- The archives that are behind. -/
def surplus (keep : Nat) (key : String) (snaps : List SnapshotInfo) : List SnapshotInfo :=
  (sortSnapshotsByCreatedAtDesc (archivesOf key snaps)).drop keep

theorem mem_of_surplus {keep : Nat} {key : String} {snaps : List SnapshotInfo}
    {s : SnapshotInfo} (h : s ∈ surplus keep key snaps) :
    s ∈ snaps ∧ archivePrefix s.name = some key :=
  mem_archivesOf.mp (mem_sort.mp (List.mem_of_mem_drop h))

theorem collectGroups_cons (keep : Nat) (key : String) (keys : List String)
    (snaps : List SnapshotInfo) : p.collectGroups keep (archiveGroups snaps) (key :: keys) = (do
      let deleted ← p.collect (surplus keep key snaps)
      let more ← p.collectGroups keep (archiveGroups snaps) keys
      return deleted ++ more) := by
  rw [collectGroups, lookup_archiveGroups]
  rfl

theorem collectGroups_only {keep : Nat} {snaps : List SnapshotInfo}
    (hget : ∀ key, ∀ s ∈ surplus keep key snaps, P (.zfs (.getClones (p.snapshotPath s.name))))
    (hdestroy : ∀ key, ∀ s ∈ surplus keep key snaps,
      P (.zfs (.destroy false (p.snapshotPath s.name)))) (keys : List String) :
    (p.collectGroups keep (archiveGroups snaps) keys).Only P := by
  induction keys with
  | nil => exact .ret
  | cons key keys ih =>
      rw [collectGroups_cons]
      exact .bind (p.collect_only (hget key) (hdestroy key)) fun _ => .bind ih fun _ => .ret

/-- What `GCSnapshots` does once the snapshots are listed. -/
def afterListing (keepCount : Int) :
    Except GoError (List SnapshotInfo) → Os (Except GoError (List String))
  | .error err => return .error err
  | .ok snaps => do
    let groups := archiveGroups snaps
    let keys : List String ← os (.visit (groups.map (·.1)))
    if keepCount < 0 ∧ groups ≠ [] then return .error errBounds
    else do
      let deleted ← p.collectGroups keepCount.toNat groups keys
      return .ok deleted

theorem gcSnapshots_eq (keepCount : Int) :
    p.gcSnapshots keepCount = p.listSnapshots >>= p.afterListing keepCount := by
  refine congrArg (p.listSnapshots >>= ·) (funext fun r => ?_)
  cases r with
  | error err => rfl
  | ok snaps => rfl

/-- The collection destroys only archives that are behind. -/
theorem afterListing_only {keepCount : Int} {snaps : List SnapshotInfo}
    (hvisit : ∀ keys, P (.visit keys))
    (hget : ∀ key, ∀ s ∈ surplus keepCount.toNat key snaps,
      P (.zfs (.getClones (p.snapshotPath s.name))))
    (hdestroy : ∀ key, ∀ s ∈ surplus keepCount.toNat key snaps,
      P (.zfs (.destroy false (p.snapshotPath s.name)))) :
    (p.afterListing keepCount (.ok snaps)).Only P := by
  refine .bind (.perform (hvisit _)) ?_
  intro keys
  split
  · exact .ret
  · exact .bind (p.collectGroups_only hget hdestroy keys) fun _ => .ret

theorem gcSnapshots_only {keepCount : Int} (hlist : P (.zfs (.listSnapshots p.dataset)))
    (hvisit : ∀ keys, P (.visit keys))
    (hget : ∀ name, archivePrefix name ≠ none → P (.zfs (.getClones (p.snapshotPath name))))
    (hdestroy : ∀ name, archivePrefix name ≠ none →
      P (.zfs (.destroy false (p.snapshotPath name)))) :
    (p.gcSnapshots keepCount).Only P := by
  rw [gcSnapshots_eq]
  refine .bind (p.listSnapshots_only hlist) ?_
  intro r
  cases r with
  | error err => exact .ret
  | ok snaps =>
      have harchive : ∀ key, ∀ s ∈ surplus keepCount.toNat key snaps,
          archivePrefix s.name ≠ none :=
        fun key s hs => (mem_of_surplus hs).2 ▸ Option.some_ne_none key
      exact p.afterListing_only hvisit (fun key s hs => hget s.name (harchive key s hs))
        fun key s hs => hdestroy s.name (harchive key s hs)

/-! ## Reset -/

theorem listClones_only (htree : P (.zfs (.listTree (p.dataset ++ "/branches"))))
    (hhostname : P .hostname) : p.listClones.Only P := by
  refine .bind (.perform htree) ?_
  intro out
  cases out.err with
  | some err => exact .ret
  | none =>
      refine .bind (.bind (.perform hhostname) fun out => ?_) fun _ => .ret
      cases out with
      | error err => exact .ret
      | ok out => exact .ret

theorem resetClones_only {clones : List VolumeInfo} (hread : P .readThreads)
    (hwrite : ∀ n, P (.writeThreads n)) (hshare : P (.zfs .shareAll))
    (hunshare : ∀ name, P (.zfs (.unshare (p.clonePath name))))
    (hdestroy : ∀ name, P (.zfs (.destroy true (p.clonePath name)))) :
    (p.resetClones clones).Only P := by
  induction clones with
  | nil => exact .ret
  | cons c rest ih =>
      refine .bind (p.deleteClone_only (hunshare c.cloneName) hread hwrite (hdestroy c.cloneName)
        hshare) fun r => ?_
      cases r with
      | error err => exact .ret
      | ok => exact ih

theorem resetSnapshots_only {snaps : List SnapshotInfo}
    (hdestroy : ∀ name, P (.zfs (.destroy false (p.snapshotPath name)))) :
    (p.resetSnapshots snaps).Only P := by
  induction snaps with
  | nil => exact .ret
  | cons s rest ih =>
      refine .bind (p.deleteSnapshot_only (hdestroy s.name)) ?_
      intro r
      cases r with
      | error err => exact .ret
      | ok => exact ih

theorem resetDataset_only (htree : P (.zfs (.listTree (p.dataset ++ "/branches"))))
    (hhostname : P .hostname) (hread : P .readThreads) (hwrite : ∀ n, P (.writeThreads n))
    (hshare : P (.zfs .shareAll)) (hlist : P (.zfs (.listSnapshots p.dataset)))
    (hunshare : ∀ name, P (.zfs (.unshare (p.clonePath name))))
    (hclone : ∀ name, P (.zfs (.destroy true (p.clonePath name))))
    (hsnapshot : ∀ name, P (.zfs (.destroy false (p.snapshotPath name)))) :
    p.resetDataset.Only P := by
  refine .bind (p.listClones_only htree hhostname) ?_
  intro r
  cases r with
  | error err => exact .ret
  | ok clones =>
      refine .bind (p.resetClones_only hread hwrite hshare hunshare hclone) ?_
      intro r
      cases r with
      | error err => exact .ret
      | ok =>
          refine .bind (p.listSnapshots_only hlist) ?_
          intro r
          cases r with
          | error err => exact .ret
          | ok snaps => exact p.resetSnapshots_only hsnapshot

end AgentProvider

end BranchDB
