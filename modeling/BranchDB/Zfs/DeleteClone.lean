/-
# `BranchDB.Zfs.DeleteClone` — what a deletion leaves

    unshare ─▶ destroy -f ─ok──────────────▶ nil
                 ├─does not exist──────────▶ ErrNotFound
                 ├─busy─▶ threads 0 ─▶ destroy -f ─▶ threads back ─▶ share -a ─▶ nil, error
                 └─else────────────────────▶ error

After nil the clone is gone.  That a clone does not exist is read out of the complaint of
`zfs destroy`, in which stand its name and the names of whatever is below it; a clone with
that phrase in one of these names may be taken for one that is missing (`Misread`), and is
there all the same (`deleteClone_gone`, `deleteClone_misread`).
-/
import BranchDB.Zfs.Calls
import BranchDB.Zfs.Machine

namespace Zfs

open Strings

/-! ## What a complaint contains -/

theorem contains_join {names : List String} :
    contains (String.join (names.map (· ++ "\n"))) missingText = true ↔
      ∃ name ∈ names, contains name missingText = true := by
  induction names with
  | nil => simp [show contains "" missingText = false by decide]
  | cons name names ih =>
      have hline : String.join ((name :: names).map (· ++ "\n")) =
          name ++ (String.singleton '\n' ++ String.join (names.map (· ++ "\n"))) := by
        rw [List.map_cons, String.join_cons, String.append_assoc]
        rfl
      rw [hline, contains_separated (by decide), ih]
      simp

/-- In a complaint with advice the phrase is in the name, or in one of those that are listed. -/
theorem contains_children {name : String} {names : List String} :
    contains (complaint "cannot destroy" name "filesystem has children" ++ advice "-r" names)
      missingText = true ↔
      contains name missingText = true ∨ ∃ child ∈ names, contains child missingText = true := by
  have hsplit : complaint "cannot destroy" name "filesystem has children" ++ advice "-r" names =
      ("cannot destroy '" ++ name ++ "': filesystem has children") ++ (String.singleton '\n' ++
        ("use '-r' to destroy the following datasets:" ++ (String.singleton '\n' ++
          String.join (names.map (· ++ "\n"))))) := by
    rw [← String.toList_inj]
    simp [complaint, advice]
  have hline : complaint "cannot destroy" name "filesystem has children" =
      ("cannot destroy '" ++ name ++ "': filesystem has children") ++
        (String.singleton '\n' ++ "") := by
    rw [← String.toList_inj]
    simp [complaint]
  have hcomplaint : contains (complaint "cannot destroy" name "filesystem has children")
      missingText = contains name missingText :=
    contains_complaint_object List.mem_cons_self (by decide) (by decide)
  have hempty : contains "" missingText = false := by decide
  have huse : contains "use '-r' to destroy the following datasets:" missingText = false := by
    decide +kernel
  rw [hline, Bool.eq_iff_iff, contains_separated (by decide), hempty] at hcomplaint
  rw [hsplit, contains_separated (by decide), contains_separated (by decide), contains_join, huse]
  simpa using or_congr_left (by simpa using hcomplaint)

/-! ## What is left of a filesystem -/

/-- The complaint that a filesystem cannot be destroyed may pass for one that it does not exist. -/
def Misread (st : Store) (path : String) : Prop :=
  st.filesystem path ≠ none ∧
    (contains path missingText = true ∨
      ∃ child ∈ st.children path, contains child missingText = true)

variable {clock : UInt64} {c : Command} {st st' : Store} {out : Output} {force : Bool}
  {path : String}

theorem children_eq (hdatasets : st'.datasets = st.datasets)
    (hsnapshots : st'.snapshots = st.snapshots) : st'.children path = st.children path := by
  have hnames : ∀ st : Store, st.filesystems.map (·.name) = st.datasets.map (·.1) := by
    intro st
    simp [Store.datasets]
  rw [Store.children, Store.children, hnames, hnames, hdatasets, hsnapshots]

theorem filesystem_eq_none_iff (hdatasets : st'.datasets = st.datasets) :
    st'.filesystem path = none ↔ st.filesystem path = none := by
  rw [← not_iff_not]
  exact filesystem_ne_none.trans (hdatasets ▸ filesystem_ne_none.symm)

theorem Misread.of_eq (h : Misread st' path) (hdatasets : st'.datasets = st.datasets)
    (hsnapshots : st'.snapshots = st.snapshots) : Misread st path :=
  ⟨fun hnone => h.1 ((filesystem_eq_none_iff hdatasets).mpr hnone),
    children_eq hdatasets hsnapshots ▸ h.2⟩

/-- A filesystem with an `@` in its name is not there. -/
theorem Store.WF.filesystem_eq_none (h : st.WF) (hat : '@' ∈ path.toList) :
    st.filesystem path = none := by
  refine Zfs.filesystem_eq_none.mpr ?_
  intro f hf hname
  exact (h.validFilesystems f hf).not_mem (hname ▸ hat)

theorem filesystem_effect (h : st.WF) (hr : refusal st (.destroy force path) = none) :
    (effect clock st (.destroy force path)).filesystem path = none := by
  by_cases hat : '@' ∈ path.toList
  · exact (h.effect hr).filesystem_eq_none hat
  · rw [effect, if_neg hat]
    refine Zfs.filesystem_eq_none.mpr ?_
    intro f hf hname
    simpa [hname] using (List.mem_filter.mp hf).2

/-- A destroy without an error did it. -/
theorem Served.gone (h : Served clock (.destroy force path) st out st') (hst : st.WF)
    (herr : out.err = none) : st'.filesystem path = none := by
  obtain ⟨hr, -, rfl⟩ := h.of_ok herr
  exact filesystem_effect hst hr

theorem contains_failed {why err : String} :
    contains (Output.failed why err).combined missingText = contains why missingText := by
  rw [Output.combined, Output.failed, String.empty_append]

/-- A complaint with the phrase in it is about something that is not there, or is misread. -/
theorem Served.missing (h : Served clock (.destroy force path) st out st') (hst : st.WF)
    (hout : contains out.combined missingText = true) :
    st'.filesystem path = none ∨ Misread st path := by
  by_cases hpath : st.filesystem path = none
  · left
    rcases h.cases_effect with rfl | ⟨hr, rfl⟩
    · exact hpath
    · exact filesystem_effect hst hr
  · have hat : '@' ∉ path.toList := fun hat => hpath (hst.filesystem_eq_none hat)
    cases h with
    | done hr => exact Or.inl (filesystem_effect hst hr)
    | broke _ hr => exact Or.inl (filesystem_effect hst hr)
    | refused _ hr =>
        rw [contains_failed] at hout
        simp only [refusal, if_neg hat, refuseFilesystem, if_neg hpath] at hr
        split at hr
        · cases hr
        · cases hr
          exact Or.inr ⟨hpath, contains_children.mp hout⟩
    | failed _ hother =>
        rw [contains_failed] at hout
        rcases hother.destroy with rfl | hsame
        · exact absurd hout (by decide)
        · rw [hsame missingText List.mem_cons_self] at hout
          exact Or.inr ⟨hpath, Or.inl hout⟩

end Zfs

namespace BranchDB.AgentProvider

open Concur Strings Zfs Machine

variable (p : AgentProvider)

/-! ## How a deletion goes -/

/-- What `DeleteClone` does once the first `zfs destroy` has answered. -/
def afterDestroy (cloneName : String) (out : Output) : Os (Except GoError Unit) :=
  match out.err with
  | none => return .ok ()
  | some err =>
    if contains out.combined "dataset does not exist" then return .error errNotFound
    else if ¬ contains out.combined "busy" then
      return .error (errorf ("zfs destroy " ++ p.clonePath cloneName ++ ": " ++ err ++ "\n" ++
        out.combined))
    else do
      match ← releaseNFSAndDestroy (p.clonePath cloneName) with
      | .error rerr =>
        return .error (rerr.wrap ("zfs destroy " ++ p.clonePath cloneName ++ " (nfsd release)"))
      | .ok () => return .ok ()

theorem deleteClone_eq (cloneName : String) :
    p.deleteClone cloneName = zfs (.unshare (p.clonePath cloneName)) >>= fun _ =>
      zfs (.destroy true (p.clonePath cloneName)) >>= p.afterDestroy cloneName := rfl

section

variable {σ : Type} (exec : (c : OsCall) → σ → c.Reply → σ → Prop)

/-- The ways on from the first `zfs destroy`, on whatever host. -/
inductive Judged (cloneName : String) (out : Output) (s : σ) :
    List (Event OsCall OsCall.Reply σ) → Except GoError Unit → σ → Prop
  | destroyed : out.err = none → Judged cloneName out s [] (.ok ()) s
  | missing : out.err ≠ none → contains out.combined missingText = true →
      Judged cloneName out s [] (.error errNotFound) s
  | refused (err : String) : out.err = some err → contains out.combined missingText = false →
      contains out.combined "busy" = false →
      Judged cloneName out s [] (.error (errorf ("zfs destroy " ++ p.clonePath cloneName ++ ": " ++
        err ++ "\n" ++ out.combined))) s
  | released {tr : List (Event OsCall OsCall.Reply σ)} {r : Except GoError Unit} {s' : σ} :
      out.err ≠ none → contains out.combined missingText = false →
      contains out.combined "busy" = true →
      (releaseNFSAndDestroy (p.clonePath cloneName)).Ends exec s tr r s' →
      Judged cloneName out s tr (r.mapError (·.wrap
        ("zfs destroy " ++ p.clonePath cloneName ++ " (nfsd release)"))) s'

variable {exec} {cloneName : String} {out : Output} {s s' : σ}
  {tr : List (Event OsCall OsCall.Reply σ)} {r : Except GoError Unit}

theorem afterDestroy_ends :
    (p.afterDestroy cloneName out).Ends exec s tr r s' ↔ p.Judged exec cloneName out s tr r s' := by
  constructor
  · intro h
    cases herr : out.err with
    | none =>
        simp only [afterDestroy, herr] at h
        obtain ⟨rfl, rfl, rfl⟩ := Prog.ends_ret.mp h
        exact .destroyed herr
    | some err =>
        have hne : out.err ≠ none := herr ▸ nofun
        simp only [afterDestroy, herr] at h
        split at h
        · next hmissing =>
          obtain ⟨rfl, rfl, rfl⟩ := Prog.ends_ret.mp h
          exact .missing hne hmissing
        · next hmissing =>
          have hmissing := Bool.eq_false_iff.mpr hmissing
          split at h
          · next hbusy =>
            obtain ⟨rfl, rfl, rfl⟩ := Prog.ends_ret.mp h
            exact .refused err herr hmissing (Bool.eq_false_iff.mpr hbusy)
          · next hbusy =>
            obtain ⟨released, s₁, first, last, hrelease, hlast, rfl⟩ := Prog.ends_bind.mp h
            have hjudged := Judged.released (p := p) hne hmissing (not_not.mp hbusy) hrelease
            cases released with
            | error err =>
                obtain ⟨rfl, rfl, rfl⟩ := Prog.ends_ret.mp hlast
                rwa [List.append_nil]
            | ok =>
                obtain ⟨rfl, rfl, rfl⟩ := Prog.ends_ret.mp hlast
                rwa [List.append_nil]
  · intro h
    unfold afterDestroy
    cases h with
    | destroyed herr =>
        rw [herr]
        exact .ret
    | missing hne hmissing =>
        obtain ⟨err, herr⟩ := Option.ne_none_iff_exists'.mp hne
        rw [herr]
        dsimp only
        rw [if_pos (show contains out.combined "dataset does not exist" = true from hmissing)]
        exact .ret
    | refused err herr hmissing hbusy =>
        have hmissing : ¬ contains out.combined "dataset does not exist" = true :=
          Bool.eq_false_iff.mp hmissing
        rw [herr]
        dsimp only
        rw [if_neg hmissing, if_pos (Bool.eq_false_iff.mp hbusy)]
        exact .ret
    | @released _ released _ hne hmissing hbusy hrelease =>
        obtain ⟨err, herr⟩ := Option.ne_none_iff_exists'.mp hne
        have hmissing : ¬ contains out.combined "dataset does not exist" = true :=
          Bool.eq_false_iff.mp hmissing
        rw [herr]
        dsimp only
        rw [if_neg hmissing, if_neg (not_not.mpr hbusy)]
        refine Prog.ends_bind.mpr ⟨released, s', tr, [], hrelease, ?_, (List.append_nil tr).symm⟩
        cases released with
        | error err => exact .ret
        | ok => exact .ret

/-- A clone is unshared and destroyed, and then it depends on what `zfs` said. -/
theorem deleteClone_ends :
    (p.deleteClone cloneName).Ends exec s tr r s' ↔
      ∃ reply s₁ out s₂ rest, exec (.zfs (.unshare (p.clonePath cloneName))) s reply s₁ ∧
        exec (.zfs (.destroy true (p.clonePath cloneName))) s₁ out s₂ ∧
        p.Judged exec cloneName out s₂ rest r s' ∧
        tr = ⟨.zfs (.unshare (p.clonePath cloneName)), s, reply, s₁⟩ ::
          ⟨.zfs (.destroy true (p.clonePath cloneName)), s₁, out, s₂⟩ :: rest := by
  rw [deleteClone_eq]
  constructor
  · intro h
    obtain ⟨reply, s₁, _, hunshare, hthen, rfl⟩ := Prog.ends_call.mp h
    obtain ⟨out, s₂, rest, hdestroy, hrest, rfl⟩ := Prog.ends_call.mp hthen
    exact ⟨reply, s₁, out, s₂, rest, hunshare, hdestroy, p.afterDestroy_ends.mp hrest, rfl⟩
  · rintro ⟨reply, s₁, out, s₂, rest, hunshare, hdestroy, hjudged, rfl⟩
    exact .call hunshare (.call hdestroy (p.afterDestroy_ends.mpr hjudged))

theorem readNFSDThreads_ends {prev : Int} :
    readNFSDThreads.Ends exec s tr prev s' ↔
      ∃ b, exec .readThreads s b s' ∧ prev = threadCount b ∧ tr = [⟨.readThreads, s, b, s'⟩] := by
  rw [readNFSDThreads_eq]
  constructor
  · intro h
    obtain ⟨b, s₁, rest, hexec, hrest, rfl⟩ := Prog.ends_call.mp h
    obtain ⟨rfl, rfl, rfl⟩ := Prog.ends_ret.mp hrest
    exact ⟨b, hexec, rfl, rfl⟩
  · rintro ⟨b, hexec, rfl, rfl⟩
    exact Prog.ends_call.mpr ⟨b, s', [], hexec, .ret, rfl⟩

variable (exec) in
/-- Either the threads cannot be stopped, or the clone is destroyed without them. -/
inductive Released (target : String) (s : σ) :
    List (Event OsCall OsCall.Reply σ) → Except GoError Unit → σ → Prop
  | stuck {b : Except GoError String} {err : GoError} {s₁ s₂ : σ} : exec .readThreads s b s₁ →
      exec (.writeThreads 0) s₁ (.error err) s₂ →
      Released target s [⟨.readThreads, s, b, s₁⟩, ⟨.writeThreads 0, s₁, .error err, s₂⟩]
        (.error (err.wrap "stop nfsd threads")) s₂
  | tried {b : Except GoError String} {out reply : Output} {back : Except GoError Unit}
      {s₁ s₂ s₃ s₄ s₅ : σ} : exec .readThreads s b s₁ → exec (.writeThreads 0) s₁ (.ok ()) s₂ →
      exec (.zfs (.destroy true target)) s₂ out s₃ →
      exec (.writeThreads (threadCount b)) s₃ back s₄ → exec (.zfs .shareAll) s₄ reply s₅ →
      Released target s [⟨.readThreads, s, b, s₁⟩, ⟨.writeThreads 0, s₁, .ok (), s₂⟩,
        ⟨.zfs (.destroy true target), s₂, out, s₃⟩, ⟨.writeThreads (threadCount b), s₃, back, s₄⟩,
        ⟨.zfs .shareAll, s₄, reply, s₅⟩]
        (match out.err with | none => .ok () | some err => .error (errorf err)) s₅

theorem releaseNFSAndDestroy_ends {target : String}
    (h : (releaseNFSAndDestroy target).Ends exec s tr r s') : Released exec target s tr r s' := by
  obtain ⟨prev, s₁, first, rest, hcount, hwrite, rfl⟩ := Prog.ends_bind.mp h
  obtain ⟨b, hread, rfl, rfl⟩ := readNFSDThreads_ends.mp hcount
  obtain ⟨stopped, s₂, rest, hstop, hrest, rfl⟩ := Prog.ends_call.mp hwrite
  cases stopped with
  | error err =>
      obtain ⟨rfl, rfl, rfl⟩ := Prog.ends_ret.mp hrest
      exact .stuck hread hstop
  | ok =>
      obtain ⟨out, s₃, _, hdestroy, hback, rfl⟩ := Prog.ends_call.mp hrest
      obtain ⟨back, s₄, _, hrestore, hall, rfl⟩ := Prog.ends_call.mp hback
      obtain ⟨reply, s₅, _, hshare, hend, rfl⟩ := Prog.ends_call.mp hall
      have hreleased := Released.tried hread hstop hdestroy hrestore hshare
      cases herr : out.err with
      | none =>
          rw [herr] at hend hreleased
          obtain ⟨rfl, rfl, rfl⟩ := Prog.ends_ret.mp hend
          exact hreleased
      | some err =>
          rw [herr] at hend hreleased
          obtain ⟨rfl, rfl, rfl⟩ := Prog.ends_ret.mp hend
          exact hreleased

end

variable {cloneName target : String} {m m' : Machine}
  {tr : List (Event OsCall OsCall.Reply Machine)} {r : Except GoError Unit}

/-! ## What a deletion leaves -/

/-- `share` and `unshare` do not touch what there is. -/
theorem exec_sharing {c : Command} {out : Output} (hc : c.Spares)
    (hsnapshots : ∀ clock st, (effect clock st c).snapshots = st.snapshots)
    (h : exec (.zfs c) m out m') :
    m'.store.datasets = m.store.datasets ∧ m'.store.snapshots = m.store.snapshots := by
  obtain ⟨⟨clock, hserved⟩, -⟩ := h
  refine ⟨hserved.datasets hc, ?_⟩
  rcases hserved.cases_effect with he | ⟨-, he⟩
  · rw [he]
  · rw [he, hsnapshots]

theorem releaseNFSAndDestroy_gone (h : Runs (releaseNFSAndDestroy target) m tr r m') :
    (r = .ok () → m'.store.filesystem target = none) ∧
      ∀ err, r = .error err → err.reason = .other := by
  cases releaseNFSAndDestroy_ends h with
  | stuck _ hstop =>
      obtain ⟨⟨hok, -⟩ | ⟨⟨err', herr, hreason⟩, -⟩, -⟩ := hstop
      · cases hok
      · cases herr
        exact ⟨nofun, fun err he => by cases he; exact hreason⟩
  | @tried b out _ _ _ _ _ _ _ _ _ hdestroy hrestore hshare =>
      cases herr : out.err with
      | some err => exact ⟨nofun, fun err he => by cases he; rfl⟩
      | none =>
          refine ⟨fun _ => ?_, nofun⟩
          obtain ⟨⟨clock, hserved⟩, -⟩ := hdestroy
          have hgone := hserved.gone (Machine.wf _) herr
          rw [← hrestore.2] at hgone
          have hsharing := exec_sharing (c := .shareAll) trivial (fun _ _ => rfl) hshare
          exact (filesystem_eq_none_iff hsharing.1).mpr hgone

/-- After nil or `ErrNotFound` the clone is gone, unless it was misread. -/
theorem deleteClone_gone (h : Runs (p.deleteClone cloneName) m tr r m')
    (hr : ∀ err, r = .error err → err.reason = .notFound) :
    m'.store.filesystem (p.clonePath cloneName) = none ∨
      Misread m.store (p.clonePath cloneName) := by
  obtain ⟨_, m₁, out, m₂, _, hunshare, ⟨⟨clock, hserved⟩, -⟩, hjudged, -⟩ :=
    p.deleteClone_ends.mp h
  cases hjudged with
  | destroyed herr => exact Or.inl (hserved.gone m₁.wf herr)
  | missing _ hmissing =>
      obtain ⟨hdatasets, hsnapshots⟩ :=
        exec_sharing (c := .unshare (p.clonePath cloneName)) trivial (fun _ _ => rfl) hunshare
      exact (hserved.missing m₁.wf hmissing).imp_right (·.of_eq hdatasets hsnapshots)
  | refused => exact absurd (hr _ rfl) nofun
  | @released _ released _ _ _ _ hrelease =>
      obtain ⟨hgone, hreason⟩ := releaseNFSAndDestroy_gone hrelease
      cases released with
      | error err =>
          have hnot : err.reason = .notFound := hr (err.wrap _) rfl
          rw [hreason err rfl] at hnot
          cases hnot
      | ok => exact Or.inl (hgone rfl)

/-! ## What may go wrong -/

theorem exec_failed (c : Command) (m : Machine) :
    exec (.zfs c) m (.failed "" "exit status 1") m :=
  ⟨⟨0, .failed _ (Or.inl rfl)⟩, rfl⟩

/-- What `zfs destroy` says when the dataset is in use. -/
def busyOutput (path : String) : Output :=
  .failed (complaint "cannot destroy" path "dataset is busy") "exit status 1"

theorem exec_busy (force : Bool) (path : String) (m : Machine) :
    exec (.zfs (.destroy force path)) m (busyOutput path) m :=
  ⟨⟨0, .failed _ (Or.inr ⟨"cannot destroy", path, "dataset is busy", List.mem_singleton_self _, rfl,
    by decide⟩)⟩, rfl⟩

theorem contains_busyOutput (path : String) :
    contains (busyOutput path).combined missingText = contains path missingText := by
  rw [busyOutput, contains_failed]
  exact contains_complaint_object List.mem_cons_self (by decide) (by decide)

theorem runs_deleteClone_missing {out : Output} {err : String}
    (hexec : exec (.zfs (.destroy true (p.clonePath cloneName))) m out m)
    (herr : out.err = some err) (hout : contains out.combined missingText = true) :
    ∃ tr, Runs (p.deleteClone cloneName) m tr (.error errNotFound) m :=
  ⟨_, p.deleteClone_ends.mpr ⟨_, m, out, m, [], exec_failed _ m, hexec,
    .missing (herr ▸ nofun) hout, rfl⟩⟩

theorem runs_deleteClone_busy {out : Output} {err : String} {rerr : GoError}
    (hexec : exec (.zfs (.destroy true (p.clonePath cloneName))) m out m)
    (herr : out.err = some err) (hmissing : ¬ contains out.combined missingText = true)
    (hbusy : contains out.combined "busy" = true)
    (hrelease : Runs (releaseNFSAndDestroy (p.clonePath cloneName)) m tr (.error rerr) m') :
    ∃ tr err, Runs (p.deleteClone cloneName) m tr (.error err) m' :=
  ⟨_, _, p.deleteClone_ends.mpr ⟨_, m, out, m, tr, exec_failed _ m, hexec,
    .released (herr ▸ nofun) (Bool.eq_false_iff.mpr hmissing) hbusy hrelease, rfl⟩⟩

/-- What is misread is reported as missing. -/
theorem deleteClone_misread (h : Misread m.store (p.clonePath cloneName)) :
    ∃ tr, Runs (p.deleteClone cloneName) m tr (.error errNotFound) m := by
  obtain ⟨hthere, hpath | ⟨child, hchild, htext⟩⟩ := h
  · exact p.runs_deleteClone_missing (exec_busy _ _ m) rfl ((contains_busyOutput _).trans hpath)
  · have hat : '@' ∉ (p.clonePath cloneName).toList :=
      fun hat => hthere (m.wf.filesystem_eq_none hat)
    have hchildren : m.store.children (p.clonePath cloneName) ≠ [] := List.ne_nil_of_mem hchild
    have hrefused : refusal m.store (.destroy true (p.clonePath cloneName)) =
        some (complaint "cannot destroy" (p.clonePath cloneName) "filesystem has children" ++
          advice "-r" (m.store.children (p.clonePath cloneName))) := by
      simp only [refusal, if_neg hat, refuseFilesystem, if_neg hthere, if_neg hchildren]
    refine p.runs_deleteClone_missing ⟨⟨0, .refused "exit status 1" hrefused⟩, rfl⟩ rfl ?_
    rw [contains_failed]
    exact contains_children.mpr (Or.inr ⟨child, hchild, htext⟩)

/-- A deletion that fails may leave another thread count. -/
theorem releaseNFSAndDestroy_disturbs (target : String) (m : Machine) :
    ∃ tr err m', Runs (releaseNFSAndDestroy target) m tr (.error err) m' ∧ m' ≠ m := by
  have hread : ∃ tr, Runs readNFSDThreads m tr 8 m :=
    ⟨_, runs_os_bind.mpr ⟨.error (errorf "no such file or directory"), m, [],
      ⟨Or.inr ⟨_, rfl, rfl⟩, rfl⟩, .ret, rfl⟩⟩
  obtain ⟨trRead, hread⟩ := hread
  have hzero : 0 < 2 ^ 31 := by decide
  have hstop := exec_withThreads m hzero
  -- The threads come back as 8, unless that is how many there were.
  have hback : ∃ r m', exec (.writeThreads 8) (m.withThreads 0 hzero) r m' ∧ m' ≠ m := by
    by_cases h8 : m.threads = 8
    · refine ⟨.error (errorf "invalid argument"), m.withThreads 0 hzero,
        ⟨Or.inr ⟨⟨_, rfl, rfl⟩, rfl⟩, rfl⟩, withThreads_ne ?_⟩
      omega
    · have height : 8 < 2 ^ 31 := by decide
      exact ⟨.ok (), m.withThreads 8 height, exec_withThreads (m.withThreads 0 hzero) height,
        withThreads_ne h8⟩
  obtain ⟨restored, m', hrestore, hne⟩ := hback
  exact ⟨_, errorf "exit status 1", m', Prog.ends_bind.mpr ⟨8, m, _, _, hread,
    runs_os_bind.mpr ⟨.ok (), _, _, hstop, runs_zfs_bind.mpr ⟨_, _, _, exec_failed _ _,
      runs_os_bind.mpr ⟨restored, m', _, hrestore,
        runs_zfs_bind.mpr ⟨_, m', [], exec_failed _ m', .ret, rfl⟩, rfl⟩, rfl⟩, rfl⟩, rfl⟩, hne⟩

/-- Whatever clone it is, its deletion may report that it is missing, or fail and change
something. -/
theorem deleteClone_disturbs (cloneName : String) (m : Machine) :
    ∃ tr err m', Runs (p.deleteClone cloneName) m tr (.error err) m' ∧
      (err.reason = .notFound ∨ m' ≠ m) := by
  by_cases hpath : contains (p.clonePath cloneName) missingText = true
  · obtain ⟨tr, hrun⟩ :=
      p.runs_deleteClone_missing (exec_busy _ _ m) rfl ((contains_busyOutput _).trans hpath)
    exact ⟨tr, _, m, hrun, Or.inl rfl⟩
  · obtain ⟨trRelease, err, m', hrelease, hne⟩ :=
      releaseNFSAndDestroy_disturbs (p.clonePath cloneName) m
    have hpresent :
        ¬ contains (busyOutput (p.clonePath cloneName)).combined missingText = true := by
      rw [contains_busyOutput]
      exact hpath
    have hbusy : contains (busyOutput (p.clonePath cloneName)).combined "busy" = true := by
      have hreason : contains "dataset is busy" "busy" = true := by decide
      exact contains_append_right _ (contains_append_left _ (contains_append_right _ hreason))
    obtain ⟨tr, err', hrun⟩ := p.runs_deleteClone_busy (exec_busy _ _ m) rfl
      hpresent hbusy hrelease
    exact ⟨tr, err', m', hrun, Or.inr hne⟩

/-! ## Snapshots -/

variable {name : String}

/-- What is refused changes nothing. -/
theorem deleteSnapshot_refused (hr : refusal m.store (.destroy false (p.snapshotPath name)) ≠ none)
    (h : Runs (p.deleteSnapshot name) m tr r m') : (∃ err, r = .error err) ∧ m' = m := by
  obtain ⟨out, ⟨⟨clock, hserved⟩, hthreads⟩, rfl, -⟩ := p.deleteSnapshot_ends.mp h
  refine ⟨exists_of_not_destroyed fun herr => hr (hserved.of_ok herr).1, ?_⟩
  refine Machine.ext ?_ hthreads
  rcases hserved.cases_effect with he | ⟨hnone, -⟩
  · exact he
  · exact absurd hnone hr

/-- What is not refused can be deleted. -/
theorem deleteSnapshot_done (hr : refusal m.store (.destroy false (p.snapshotPath name)) = none) :
    ∃ tr m', Runs (p.deleteSnapshot name) m tr (.ok ()) m' := by
  have hserve : (serve quiet (.zfs (.destroy false (p.snapshotPath name))) m).1 = .ok "" := by
    rw [serve_zfs, command, quiet, Zfs.serve, hr]
    rfl
  have hexec := exec_serve quiet (.zfs (.destroy false (p.snapshotPath name))) m
  rw [hserve] at hexec
  exact ⟨_, _, p.deleteSnapshot_ends.mpr ⟨_, hexec, rfl, rfl⟩⟩

end BranchDB.AgentProvider
