/-
# `BranchDB.Zfs.Reasons` — what a deletion makes of a complaint

    cannot destroy '<dataset>/branches/<name>': <reason>

Whether the clone is missing or busy is looked for in all of what `zfs destroy` printed, and
the path of the clone is printed there beside the reason; the reason itself may go on to list
what else is in the way.  `Complained` is a run, on a host that answers anything otherwise, in
which the first `zfs destroy` prints such a complaint.  The reason is judged, and nothing else,
where neither phrase stands elsewhere than in the reason it words (`judgesReason_iff`); for a
clone with `busy` in its path nfsd is stopped whatever the reason is, and for any clone if a
snapshot that is in the way is called `busy`.
-/
import BranchDB.Zfs.DeleteClone

namespace BranchDB.AgentProvider

open Concur Strings Zfs

variable (p : AgentProvider)

/-! ## Reasons -/

/-- What a complaint about a clone begins with. -/
def verbs : List String := ["cannot destroy", "cannot open"]

/-- How `zfs` words that a dataset is busy. -/
def busyTexts : List String := ["dataset is busy", "pool or dataset is busy"]

/-- The reason is that the dataset does not exist. -/
def SaysMissing (reason : String) : Prop := reason = missingText

/-- The reason is that the dataset is busy. -/
def SaysBusy (reason : String) : Prop := reason ∈ busyTexts

instance (reason : String) : Decidable (SaysMissing reason) := inferInstanceAs (Decidable (_ = _))

instance (reason : String) : Decidable (SaysBusy reason) := inferInstanceAs (Decidable (_ ∈ _))

/-- A host that may answer anything to anything. -/
def anything : (c : OsCall) → Unit → c.Reply → Unit → Prop := fun _ _ _ _ => True

/-- A run in which the clone cannot be destroyed, for the reason given. -/
def Complained (cloneName verb reason : String) (tr : List (Event OsCall OsCall.Reply Unit))
    (r : Except GoError Unit) : Prop :=
  (p.deleteClone cloneName).Ends anything () tr r () ∧
    ∃ out : Output, out.err ≠ none ∧
      out.combined = complaint verb (p.clonePath cloneName) reason ∧
      tr[1]? = some ⟨.zfs (.destroy true (p.clonePath cloneName)), (), out, ()⟩

/-- The nfsd threads are told to stop. -/
def Stops {σ : Type} (tr : List (Event OsCall OsCall.Reply σ)) : Prop :=
  ∃ ev ∈ tr, ev.call = .writeThreads 0

/-- The clone is taken for missing, or nfsd stopped, because of the reason alone. -/
def JudgesReason (cloneName reason : String) : Prop :=
  ∀ verb ∈ verbs, ∀ tr r, p.Complained cloneName verb reason tr r →
    (r = .error errNotFound ↔ SaysMissing reason) ∧ (Stops tr ↔ SaysBusy reason)

/-- Neither the path of the clone nor the text of another reason has the phrase. -/
def Without (cloneName reason text : String) : Prop :=
  contains (p.clonePath cloneName) text = false ∧ contains reason text = false

/-- Nothing but the reason is taken for the reason. -/
def Clear (cloneName reason : String) : Prop :=
  SaysMissing reason ∨ (p.Without cloneName reason missingText ∧
    (SaysBusy reason ∨ p.Without cloneName reason "busy"))

/-! ## How it is judged -/

variable {p} {cloneName verb reason : String} {tr : List (Event OsCall OsCall.Reply Unit)}
  {r : Except GoError Unit}

/-- Neither phrase is in a verb, so it is in the path or in the reason. -/
theorem contains_text {text : String} (htext : text ∈ [missingText, "busy"]) (hverb : verb ∈ verbs)
    (path : String) :
    contains (complaint verb path reason) text = true ↔
      contains path text = true ∨ contains reason text = true := by
  have hphrase : ∀ text ∈ [missingText, "busy"], Phrase text := by decide
  have hverbs : ∀ text ∈ [missingText, "busy"], ∀ verb ∈ verbs, contains verb text = false := by
    decide
  rw [(hphrase text htext).in_complaint, hverbs text htext verb hverb]
  simp

theorem contains_eq_false {text : String} (htext : text ∈ [missingText, "busy"])
    (hverb : verb ∈ verbs) :
    contains (complaint verb (p.clonePath cloneName) reason) text = false ↔
      p.Without cloneName reason text := by
  rw [← Bool.not_eq_true, contains_text htext hverb, not_or, Bool.not_eq_true, Bool.not_eq_true]
  exact Iff.rfl

/-- A reason that says so has the phrase, and the other reason does not. -/
theorem contains_reason : contains missingText missingText = true ∧
    ∀ reason ∈ busyTexts, contains reason "busy" = true ∧ reason ≠ missingText := by
  decide +kernel

theorem wrap_ne_errNotFound (err : GoError) (path : String) :
    err.wrap ("zfs destroy " ++ path ++ " (nfsd release)") ≠ errNotFound := by
  intro h
  have hhead := congrArg (fun err : GoError => err.msg.toList.head?) h
  simp [GoError.wrap, errNotFound] at hhead

theorem Released.stops {σ : Type} {exec : (c : OsCall) → σ → c.Reply → σ → Prop} {target : String}
    {s s' : σ} {tr : List (Event OsCall OsCall.Reply σ)} (h : Released exec target s tr r s') :
    Stops tr := by
  cases h with
  | stuck => exact ⟨_, List.mem_cons_of_mem _ List.mem_cons_self, rfl⟩
  | tried => exact ⟨_, List.mem_cons_of_mem _ List.mem_cons_self, rfl⟩

/-- The phrases in the complaint decide both. -/
theorem Complained.judged (h : p.Complained cloneName verb reason tr r) :
    (r = .error errNotFound ↔
      contains (complaint verb (p.clonePath cloneName) reason) missingText = true) ∧
    (Stops tr ↔ contains (complaint verb (p.clonePath cloneName) reason) missingText = false ∧
      contains (complaint verb (p.clonePath cloneName) reason) "busy" = true) := by
  obtain ⟨hends, out, herr, hout, hsecond⟩ := h
  obtain ⟨reply, _, out', _, rest, -, -, hjudged, rfl⟩ := p.deleteClone_ends.mp hends
  obtain rfl : out' = out := by simpa using hsecond
  rw [← hout]
  have hquiet : ¬ Stops [(⟨.zfs (.unshare (p.clonePath cloneName)), (), reply, ()⟩ :
      Event OsCall OsCall.Reply Unit),
      ⟨.zfs (.destroy true (p.clonePath cloneName)), (), out', ()⟩] := by
    simp [Stops]
  cases hjudged with
  | destroyed hnone => exact absurd hnone herr
  | missing _ hmissing =>
      refine ⟨iff_of_true rfl hmissing, iff_of_false hquiet ?_⟩
      rw [hmissing]
      simp
  | refused err _ hmissing hbusy =>
      refine ⟨iff_of_false ?_ ?_, iff_of_false hquiet ?_⟩
      · intro hr
        have hreason := congrArg GoError.reason (Except.error.inj hr)
        cases hreason
      · rw [hmissing]
        simp
      · rw [hbusy]
        simp
  | @released _ released _ _ hmissing hbusy hrelease =>
      obtain ⟨ev, hev, hcall⟩ := (releaseNFSAndDestroy_ends hrelease).stops
      refine ⟨iff_of_false ?_ ?_, iff_of_true ⟨ev, ?_, hcall⟩ ⟨hmissing, hbusy⟩⟩
      · cases released with
        | error err => exact fun hr => wrap_ne_errNotFound err _ (Except.error.inj hr)
        | ok => nofun
      · rw [hmissing]
        simp
      · exact List.mem_cons_of_mem _ (List.mem_cons_of_mem _ hev)

/-- Some answer to every call. -/
def answerAll (out : Output) : (c : OsCall) → Unit → c.Reply × Unit
  | .zfs _, _ => (out, ())
  | .hostname, _ | .readThreads, _ | .writeThreads _, _ => (.error (errorf ""), ())
  | .now, _ => (.zero, ())
  | .visit keys, _ => (keys, ())

/-- There are such runs for whatever reason. -/
theorem exists_complained (p : AgentProvider) (cloneName verb reason : String) :
    ∃ tr r, p.Complained cloneName verb reason tr r := by
  obtain ⟨out, hout⟩ : ∃ out : Output,
      out = .failed (complaint verb (p.clonePath cloneName) reason) "exit status 1" := ⟨_, rfl⟩
  have hcombined : out.combined = complaint verb (p.clonePath cloneName) reason := by
    rw [hout, Output.combined, Output.failed, String.empty_append]
  have herr : out.err ≠ none := by
    rw [hout]
    exact Option.some_ne_none _
  -- Whatever it is, the rest of the run ends: nothing needs to be answered in earnest.
  obtain ⟨rest, r, hrest⟩ : ∃ rest r, p.Judged anything cloneName out () rest r () := by
    have hserve : ∀ c s, anything c s (answerAll out c s).1 (answerAll out c s).2 :=
      fun _ _ => trivial
    obtain ⟨rest, hrest⟩ := Prog.ends_run hserve (p.afterDestroy cloneName out) ()
    exact ⟨rest, _, p.afterDestroy_ends.mp hrest⟩
  refine ⟨_, r, p.deleteClone_ends.mpr ⟨out, (), out, (), rest, trivial, trivial, hrest, rfl⟩, out,
    herr, hcombined, rfl⟩

/-! ## What is judged by the reason -/

theorem Clear.judges (hclear : p.Clear cloneName reason) : p.JudgesReason cloneName reason := by
  intro verb hverb tr r hrun
  obtain ⟨hmissing, hstops⟩ := hrun.judged
  rw [hmissing, hstops]
  have hpath (text : String) (htext : text ∈ [missingText, "busy"])
      (h : contains reason text = true) :
      contains (complaint verb (p.clonePath cloneName) reason) text = true :=
    (contains_text htext hverb _).mpr (Or.inr h)
  rcases hclear with rfl | ⟨hpresent, hbusy⟩
  · -- whatever the path has in it: that the clone is missing is looked for first
    have hfound := hpath _ List.mem_cons_self contains_reason.1
    refine ⟨iff_of_true hfound rfl, iff_of_false ?_ ?_⟩
    · rw [hfound]
      nofun
    · exact fun hbusy => (contains_reason.2 _ hbusy).2 rfl
  · have hfound := (contains_eq_false List.mem_cons_self hverb).mpr hpresent
    have hother : ¬ SaysMissing reason := by
      rintro rfl
      exact absurd contains_reason.1 (Bool.eq_false_iff.mp hpresent.2)
    rw [hfound]
    refine ⟨iff_of_false nofun hother, ?_⟩
    rcases hbusy with hbusy | hquiet
    · exact iff_of_true ⟨rfl, hpath _ (by decide) (contains_reason.2 _ hbusy).1⟩ hbusy
    · have hnone := (contains_eq_false (by decide) hverb).mpr hquiet
      rw [hnone]
      refine iff_of_false nofun fun hbusy => ?_
      exact absurd (contains_reason.2 _ hbusy).1 (Bool.eq_false_iff.mp hquiet.2)

/-- A phrase that is there without being the reason is taken for it. -/
theorem JudgesReason.clear (h : p.JudgesReason cloneName reason) : p.Clear cloneName reason := by
  have hverb : "cannot destroy" ∈ verbs := List.mem_cons_self
  obtain ⟨tr, r, hrun⟩ := exists_complained p cloneName "cannot destroy" reason
  obtain ⟨hnotFound, hstops⟩ := h _ hverb _ _ hrun
  obtain ⟨hmissing, hstopped⟩ := hrun.judged
  rw [hmissing] at hnotFound
  rw [hstopped] at hstops
  by_cases hsays : SaysMissing reason
  · exact Or.inl hsays
  · have hfound := Bool.eq_false_iff.mpr (mt hnotFound.mp hsays)
    refine Or.inr ⟨(contains_eq_false List.mem_cons_self hverb).mp hfound, ?_⟩
    by_cases hbusy : SaysBusy reason
    · exact Or.inl hbusy
    · have hnone := Bool.eq_false_iff.mpr fun h => hbusy (hstops.mp ⟨hfound, h⟩)
      exact Or.inr ((contains_eq_false (by decide) hverb).mp hnone)

/-- A deletion judges the reason exactly where nothing else is taken for it. -/
theorem judgesReason_iff (p : AgentProvider) (cloneName reason : String) :
    p.JudgesReason cloneName reason ↔ p.Clear cloneName reason :=
  ⟨JudgesReason.clear, Clear.judges⟩

/-- A clone called `busy-week` that has children is not judged by that. -/
theorem not_all_judgesReason :
    ¬ ∀ (p : AgentProvider) (cloneName reason : String), p.JudgesReason cloneName reason := by
  intro h
  have hclear := (h ⟨"tank/mysql"⟩ "busy-week" "filesystem has children").clear
  rcases hclear with hmissing | ⟨-, hbusy | hquiet⟩
  · exact absurd hmissing (by decide)
  · exact absurd hbusy (by decide)
  · exact absurd hquiet.1 (by decide)

/-- Nor is one of another name, of which a snapshot called `busy` was taken. -/
example : ¬ Clear ⟨"tank/mysql"⟩ "feature" ("filesystem has children\n" ++
    advice "-r" ["tank/mysql/branches/feature@busy"]) := by
  rintro (hmissing | ⟨-, hbusy | hquiet⟩)
  · exact absurd hmissing (by decide +kernel)
  · exact absurd hbusy (by decide +kernel)
  · exact absurd hquiet.2 (by decide +kernel)

end BranchDB.AgentProvider
