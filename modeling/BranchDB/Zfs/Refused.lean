/-
# `BranchDB.Zfs.Refused` — what a deletion that fails leaves

A clone is unshared before anybody knows whether it can be destroyed.  Where `zfs destroy` is
refused for another reason than that the clone is busy, nothing shares it again; where nfsd is
stopped and the clone destroyed without it, the thread count goes back to what was read, or
to 8, and `zfs share -a` shares whatever has a `sharenfs`.

`Usable` is what a deletion that fails should leave: the clone, the shares of all clones and
the thread count.  What it does leave depends on which of the commands took effect
(`Took`), whatever they said; `usable_iff` says on which.
-/
import BranchDB.Zfs.DeleteClone
import BranchDB.Zfs.Survival

namespace Zfs

/-! ## How filesystems are shared -/

/-- The `sharenfs` of a filesystem, and whether it is shared. -/
def Store.share (st : Store) (name : String) : Option (String × Bool) :=
  (st.filesystem name).map fun f => (f.sharenfs, f.shared)

variable {clock : UInt64} {st : Store} {path : String}

theorem filesystem_map {g : Filesystem → Filesystem} (hg : ∀ f, (g f).name = f.name)
    (name : String) :
    ({ st with filesystems := st.filesystems.map g } : Store).filesystem name =
      (st.filesystem name).map g := by
  simp only [Store.filesystem, List.find?_map]
  exact congrArg (Option.map g ∘ (List.find? · st.filesystems)) (funext fun f => by simp [hg f])

theorem share_unshare (name : String) : (effect clock st (.unshare path)).share name =
    (st.share name).map fun x => if name = path then (x.1, false) else x := by
  have hname : ∀ f : Filesystem,
      (if f.name = path then { f with shared := false } else f).name = f.name := by
    intro f
    split <;> rfl
  simp only [Store.share, effect, filesystem_map hname, Option.map_map]
  refine Option.map_congr ?_
  intro f hf
  have hf : f.name = name := (mem_of_filesystem hf).2
  simp only [Function.comp_apply, hf]
  split <;> rfl

theorem share_shareAll (name : String) : (effect clock st .shareAll).share name =
    (st.share name).map fun x => (x.1, decide (x.1 ≠ "off")) := by
  have hname : ∀ f : Filesystem, f.export.name = f.name := fun _ => rfl
  simp only [Store.share, effect, filesystem_map hname, Option.map_map]
  rfl

/-- What is not there is made by `zfs clone` only. -/
theorem Served.absent {c : Command} {st' : Store} {out : Output} (h : Served clock c st out st')
    (hc : ∀ snap target, c ≠ .clone snap target) (hnone : st.filesystem path = none) :
    st'.filesystem path = none := by
  by_contra hne
  obtain ⟨origin, hmem⟩ := filesystem_ne_none.mp hne
  refine filesystem_ne_none.mpr ⟨origin, ?_⟩ hnone
  by_cases hspares : c.Spares
  · rwa [h.datasets hspares] at hmem
  · rcases h.cases_effect with rfl | ⟨-, rfl⟩
    · exact hmem
    · cases c with
      | destroy force object =>
          rw [datasets_destroy hspares] at hmem
          exact (List.mem_filter.mp hmem).1
      | clone snap target => exact absurd rfl (hc snap target)
      | snapshot | rename | share | shareAll | unshare | getSharenfs | getClones | listSnapshots
      | listTree | list => exact absurd trivial hspares

theorem absent_of_destroyed {st' : Store} (h : st'.WF) {force : Bool}
    (heffect : st' = effect clock st (.destroy force path)) :
    st'.filesystem path = none := by
  by_cases hat : '@' ∈ path.toList
  · exact h.filesystem_eq_none hat
  · rw [heffect, effect, if_neg hat]
    refine filesystem_eq_none.mpr ?_
    intro f hf hname
    simpa [hname] using (List.mem_filter.mp hf).2

end Zfs

namespace BranchDB.AgentProvider

open Concur Strings Zfs Machine

variable (p : AgentProvider) {c : Command} {cloneName path : String} {m m' : Machine}
  {tr : List (Event OsCall OsCall.Reply Machine)} {r : Except GoError Unit} {err : GoError}

/-- What a deletion that fails should leave: the clone, its share and those of all other clones,
and the thread count. -/
structure Usable (path : String) (m m' : Machine) : Prop where
  there : m'.store.filesystem path ≠ none
  shares : ∀ name f, m.store.filesystem name = some f → (name = path ∨ f.origin ≠ none) →
    (m'.store.share name).map (·.2) = some f.shared
  threads : m'.threads = m.threads

/-! ## What a run did -/

/-- The command did its work, whatever it said. -/
def Did (c : Command) (ev : Event OsCall OsCall.Reply Machine) : Prop :=
  ev.call = .zfs c ∧ ∃ clock, ev.after.store = effect clock ev.before.store c

def Took (c : Command) (tr : List (Event OsCall OsCall.Reply Machine)) : Prop := ∃ ev ∈ tr, Did c ev

/-- The threads were stopped. -/
def Stopped (tr : List (Event OsCall OsCall.Reply Machine)) : Prop :=
  ∃ s s', ⟨.writeThreads 0, s, .ok (), s'⟩ ∈ tr

/-- Some were started again. -/
def Restarted (tr : List (Event OsCall OsCall.Reply Machine)) : Prop :=
  ∃ n s s', n ≠ 0 ∧ ⟨.writeThreads n, s, .ok (), s'⟩ ∈ tr

/-- How many there are was read. -/
def Counted (tr : List (Event OsCall OsCall.Reply Machine)) : Prop :=
  ∃ text s s', ⟨.readThreads, s, .ok text, s'⟩ ∈ tr

/-- What has to come out of the commands for the branch to stay usable. -/
structure Spared (path : String) (m : Machine) (tr : List (Event OsCall OsCall.Reply Machine)) :
    Prop where
  there : m.store.filesystem path ≠ none
  kept : ¬ Took (.destroy true path) tr
  /-- Where everything was shared again, it has to have been shared before. -/
  reshared : Took .shareAll tr → ∀ name f, m.store.filesystem name = some f →
    (name = path ∨ f.origin ≠ none) → f.shared = decide (f.sharenfs ≠ "off")
  unshared : ¬ Took .shareAll tr → Took (.unshare path) tr →
    ∀ f, m.store.filesystem path = some f → f.shared = false
  /-- The number that is written back is the one that was read, or 8. -/
  restarted : Stopped tr → Restarted tr → m.threads = 8 ∨ (m.threads ≠ 0 ∧ Counted tr)
  stopped : Stopped tr → ¬ Restarted tr → m.threads = 0

theorem took_nil : ¬ Took c [] := by
  simp [Took]

theorem took_cons {ev : Event OsCall OsCall.Reply Machine} :
    Took c (ev :: tr) ↔ Did c ev ∨ Took c tr := by
  simp [Took]

/-- A command that did not do its work changed nothing. -/
theorem exec_of_not_did {out : Output} (h : exec (.zfs c) m out m')
    (hdid : ¬ Did c ⟨.zfs c, m, out, m'⟩) : m'.store = m.store := by
  obtain ⟨⟨clock, hserved⟩, -⟩ := h
  rcases hserved.cases_effect with he | ⟨-, he⟩
  · exact he
  · exact absurd ⟨rfl, clock, he⟩ hdid

theorem exec_absent {out : Output} (h : exec (.zfs c) m out m')
    (hc : ∀ snap target, c ≠ .clone snap target) (hnone : m.store.filesystem path = none) :
    m'.store.filesystem path = none := by
  obtain ⟨⟨clock, hserved⟩, -⟩ := h
  exact hserved.absent hc hnone

/-- A clone that was destroyed is not there afterwards, whatever else was done. -/
theorem Released.gone (h : Released exec path m tr r m')
    (hgone : m.store.filesystem path = none ∨ Took (.destroy true path) tr) :
    m'.store.filesystem path = none := by
  cases h with
  | stuck hread hstop =>
      obtain ⟨-, rfl⟩ := hread
      rw [hstop.2]
      exact hgone.resolve_right (by simp [Took, Did])
  | @tried b out reply back m₁ m₂ m₃ m₄ _ hread hstop hdestroy hrestore hshare =>
      obtain ⟨-, rfl⟩ := hread
      refine exec_absent hshare nofun ?_
      rw [hrestore.2]
      rcases hgone with hnone | htook
      · exact exec_absent hdestroy nofun (hstop.2 ▸ hnone)
      · obtain ⟨-, clock, heffect⟩ :
            Did (.destroy true path) ⟨.zfs (.destroy true path), m₂, out, m₃⟩ := by
          simpa [Took, Did] using htook
        exact absent_of_destroyed m₃.wf heffect

/-- Nothing but `zfs share -a` changes the store on the way from the first `zfs destroy`, if the
clone is left. -/
theorem Released.store (h : Released exec path m tr r m')
    (hkept : ¬ Took (.destroy true path) tr) :
    (Took .shareAll tr → ∃ clock, m'.store = effect clock m.store .shareAll) ∧
      (¬ Took .shareAll tr → m'.store = m.store) := by
  cases h with
  | stuck hread hstop =>
      obtain ⟨-, rfl⟩ := hread
      exact ⟨fun htook => by simp [Took, Did] at htook, fun _ => hstop.2⟩
  | @tried b out reply back m₁ m₂ m₃ m₄ _ hread hstop hdestroy hrestore hshare =>
      obtain ⟨-, rfl⟩ := hread
      simp only [took_cons, not_or] at hkept
      have hstore : m₄.store = m₁.store := by
        rw [hrestore.2, exec_of_not_did hdestroy hkept.2.2.1, hstop.2]
      constructor
      · intro htook
        obtain ⟨clock, heffect⟩ : ∃ clock, m'.store = effect clock m₄.store .shareAll := by
          simpa [Took, Did] using htook
        exact ⟨clock, hstore ▸ heffect⟩
      · intro htook
        simp only [took_cons, not_or] at htook
        exact (exec_of_not_did hshare htook.2.2.2.2.1).trans hstore

theorem Released.not_took_unshare (h : Released exec path m tr r m')
    (target : String) : ¬ Took (.unshare target) tr := by
  cases h with
  | stuck => simp [Took, Did]
  | tried => simp [Took, Did]

/-- What is shared after a deletion that fails, if it left the clone. -/
theorem store_failed (h : Runs (p.deleteClone cloneName) m tr r m') (hr : r = .error err)
    (herr : err ≠ errNotFound) (hkept : ¬ Took (.destroy true (p.clonePath cloneName)) tr) :
    ∃ st : Store,
      (Took (.unshare (p.clonePath cloneName)) tr →
        ∃ clock, st = effect clock m.store (.unshare (p.clonePath cloneName))) ∧
      (¬ Took (.unshare (p.clonePath cloneName)) tr → st = m.store) ∧
      (Took .shareAll tr → ∃ clock, m'.store = effect clock st .shareAll) ∧
      (¬ Took .shareAll tr → m'.store = st) := by
  obtain ⟨reply, m₁, out, m₂, rest, hunshare, hdestroy, hjudged, rfl⟩ := p.deleteClone_ends.mp h
  simp only [took_cons, not_or] at hkept ⊢
  obtain ⟨-, hfirst, hlater⟩ := hkept
  have hstore : m₂.store = m₁.store := exec_of_not_did hdestroy hfirst
  -- Of the first two commands only the first is about shares.
  have hdestroyed : ∀ c, c ≠ .destroy true (p.clonePath cloneName) →
      ¬ Did c ⟨.zfs (.destroy true (p.clonePath cloneName)), m₁, out, m₂⟩ :=
    fun c hc hdid => hc (OsCall.zfs.inj hdid.1).symm
  have hunshared : ¬ Did .shareAll ⟨.zfs (.unshare (p.clonePath cloneName)), m, reply, m₁⟩ :=
    fun hdid => nomatch hdid.1
  have hrest : (Took .shareAll rest → ∃ clock, m'.store = effect clock m₁.store .shareAll) ∧
      (¬ Took .shareAll rest → m'.store = m₁.store) ∧
      ¬ Took (.unshare (p.clonePath cloneName)) rest := by
    cases hjudged with
    | destroyed => cases hr
    | missing => exact absurd (Except.error.inj hr).symm herr
    | refused => exact ⟨fun htook => absurd htook took_nil, fun _ => hstore, took_nil⟩
    | @released _ released _ _ _ _ hrelease =>
        have hreleased := releaseNFSAndDestroy_ends hrelease
        rw [← hstore]
        exact ⟨(hreleased.store hlater).1, (hreleased.store hlater).2,
          hreleased.not_took_unshare _⟩
  refine ⟨m₁.store, ?_, ?_, ?_, ?_⟩
  · rintro (⟨-, hclock⟩ | hdid | htook)
    · exact hclock
    · exact absurd hdid (hdestroyed _ nofun)
    · exact absurd htook hrest.2.2
  · exact fun hnot => exec_of_not_did hunshare hnot.1
  · rintro (hdid | hdid | htook)
    · exact absurd hdid hunshared
    · exact absurd hdid (hdestroyed _ nofun)
    · exact hrest.1 htook
  · exact fun hnot => hrest.2.1 hnot.2.2

theorem absent_failed (h : Runs (p.deleteClone cloneName) m tr r m') (hr : r = .error err)
    (herr : err ≠ errNotFound)
    (hgone : m.store.filesystem (p.clonePath cloneName) = none ∨
      Took (.destroy true (p.clonePath cloneName)) tr) :
    m'.store.filesystem (p.clonePath cloneName) = none := by
  obtain ⟨reply, m₁, out, m₂, rest, hunshare, hdestroy, hjudged, rfl⟩ := p.deleteClone_ends.mp h
  have hrest : m₂.store.filesystem (p.clonePath cloneName) = none ∨
      Took (.destroy true (p.clonePath cloneName)) rest := by
    rcases hgone with hnone | htook
    · exact Or.inl (exec_absent hdestroy nofun (exec_absent hunshare nofun hnone))
    · rcases took_cons.mp htook with hdid | htook
      · cases hdid.1
      · refine (took_cons.mp htook).imp_left ?_
        rintro ⟨-, clock, heffect⟩
        exact absent_of_destroyed m₂.wf heffect
  cases hjudged with
  | destroyed => cases hr
  | missing => exact absurd (Except.error.inj hr).symm herr
  | refused => exact hrest.resolve_right took_nil
  | released _ _ _ hrelease => exact (releaseNFSAndDestroy_ends hrelease).gone hrest

/-! ## The thread count -/

/-- How many threads there are if the count is written back. -/
theorem threadCount_eq_iff {b : Except GoError String} (h : exec .readThreads m b m') :
    threadCount b = (m.threads : Int) ↔ m.threads = 8 ∨ (m.threads ≠ 0 ∧ ∃ text, b = .ok text) := by
  obtain ⟨rfl | ⟨err, rfl, -⟩, -⟩ := h
  · rw [threadCount_eq m.bounded]
    split
    · next hzero => simp [hzero]
    · next hzero => simp [hzero]
  · simp only [threadCount, reduceCtorEq, exists_false, and_false, or_false]
    omega

theorem Released.threads_iff (h : Released exec path m tr r m') :
    m'.threads = m.threads ↔
      (Stopped tr → Restarted tr → m.threads = 8 ∨ (m.threads ≠ 0 ∧ Counted tr)) ∧
        (Stopped tr → ¬ Restarted tr → m.threads = 0) := by
  obtain ⟨events, htr, h⟩ : ∃ events, tr = events ∧ Released exec path m events r m' :=
    ⟨tr, rfl, h⟩
  cases h with
  | stuck hread hstop =>
      have hstopped : ¬ Stopped tr := by simp [htr, Stopped]
      obtain ⟨-, rfl⟩ := hread
      obtain ⟨⟨hok, -⟩ | ⟨-, hthreads⟩, -⟩ := hstop
      · cases hok
      · exact iff_of_true hthreads ⟨fun h => absurd h hstopped, fun h => absurd h hstopped⟩
  | @tried b out reply back m₁ m₂ m₃ m₄ _ hread hstop hdestroy hrestore hshare =>
      have hstopped : Stopped tr := ⟨m₁, m₂, by simp [htr]⟩
      have hcounted : Counted tr ↔ ∃ text, b = .ok text := by simp [htr, Counted, eq_comm]
      have hrestarted : Restarted tr ↔ back = .ok () := by
        constructor
        · rintro ⟨n, s, s', hn, hmem⟩
          have hmem : n = threadCount b ∧ m₃ = s ∧ back = .ok () ∧ m₄ = s' := by
            simpa [htr, hn, eq_comm] using hmem
          exact hmem.2.2.1
        · rintro rfl
          exact ⟨threadCount b, m₃, m₄, threadCount_ne_zero b, by simp [htr]⟩
      have hcount := threadCount_eq_iff hread
      obtain ⟨-, rfl⟩ := hread
      obtain ⟨⟨-, hzero⟩ | ⟨⟨err, hnot, -⟩, -⟩, -⟩ := hstop
      · simp only [hshare.2, hstopped, hcounted, hrestarted, true_implies, ← hcount]
        obtain ⟨⟨rfl, hback⟩ | ⟨⟨err, rfl, -⟩, hback⟩, -⟩ := hrestore
        · -- Written back: what was read.
          simp only [true_implies, not_true, false_implies, and_true, ← hback]
          omega
        · -- Not written back: none.
          simp only [reduceCtorEq, false_implies, not_false_eq_true, true_implies, true_and,
            hback, hdestroy.2]
          omega
      · cases hnot

theorem threads_failed (h : Runs (p.deleteClone cloneName) m tr r m') (hr : r = .error err)
    (herr : err ≠ errNotFound) :
    m'.threads = m.threads ↔
      (Stopped tr → Restarted tr → m.threads = 8 ∨ (m.threads ≠ 0 ∧ Counted tr)) ∧
        (Stopped tr → ¬ Restarted tr → m.threads = 0) := by
  obtain ⟨reply, m₁, out, m₂, rest, hunshare, hdestroy, hjudged, rfl⟩ := p.deleteClone_ends.mp h
  have hthreads : m₂.threads = m.threads := hdestroy.2.trans hunshare.2
  have hstopped : Stopped (⟨.zfs (.unshare (p.clonePath cloneName)), m, reply, m₁⟩ ::
      ⟨.zfs (.destroy true (p.clonePath cloneName)), m₁, out, m₂⟩ :: rest) ↔ Stopped rest := by
    simp [Stopped]
  have hrestarted : Restarted (⟨.zfs (.unshare (p.clonePath cloneName)), m, reply, m₁⟩ ::
      ⟨.zfs (.destroy true (p.clonePath cloneName)), m₁, out, m₂⟩ :: rest) ↔ Restarted rest := by
    simp [Restarted]
  have hcounted : Counted (⟨.zfs (.unshare (p.clonePath cloneName)), m, reply, m₁⟩ ::
      ⟨.zfs (.destroy true (p.clonePath cloneName)), m₁, out, m₂⟩ :: rest) ↔ Counted rest := by
    simp [Counted]
  rw [hstopped, hrestarted, hcounted, ← hthreads]
  cases hjudged with
  | destroyed => cases hr
  | missing => exact absurd (Except.error.inj hr).symm herr
  | refused => exact iff_of_true rfl (by simp [Stopped])
  | released _ _ _ hrelease => exact (releaseNFSAndDestroy_ends hrelease).threads_iff

/-! ## When the branch stays usable -/

variable {p}

/-- What a filesystem is shared like, if the clone is left. -/
theorem share_failed (h : Runs (p.deleteClone cloneName) m tr r m') (hr : r = .error err)
    (herr : err ≠ errNotFound) (hkept : ¬ Took (.destroy true (p.clonePath cloneName)) tr)
    {name : String} {f : Filesystem} (hf : m.store.filesystem name = some f) :
    (Took .shareAll tr → (m'.store.share name).map (·.2) = some (decide (f.sharenfs ≠ "off"))) ∧
      (¬ Took .shareAll tr → Took (.unshare (p.clonePath cloneName)) tr →
        name = p.clonePath cloneName → (m'.store.share name).map (·.2) = some false) ∧
      (¬ Took .shareAll tr →
        ¬ (Took (.unshare (p.clonePath cloneName)) tr ∧ name = p.clonePath cloneName) →
        (m'.store.share name).map (·.2) = some f.shared) := by
  obtain ⟨st, hunshared, hsame, hreshared, hleft⟩ := p.store_failed h hr herr hkept
  have hbefore : m.store.share name = some (f.sharenfs, f.shared) := by
    rw [Store.share, hf]
    rfl
  have hshare : Took (.unshare (p.clonePath cloneName)) tr → st.share name =
      some (if name = p.clonePath cloneName then (f.sharenfs, false)
        else (f.sharenfs, f.shared)) := by
    intro htook
    obtain ⟨clock, rfl⟩ := hunshared htook
    rw [share_unshare, hbefore]
    rfl
  refine ⟨fun hall => ?_, fun hall htook hname => ?_, fun hall hnot => ?_⟩
  · obtain ⟨clock, heffect⟩ := hreshared hall
    have hsharenfs : (st.share name).map (·.1) = some f.sharenfs := by
      by_cases htook : Took (.unshare (p.clonePath cloneName)) tr
      · rw [hshare htook]
        split <;> rfl
      · rw [hsame htook, hbefore]
        rfl
    obtain ⟨x, hx, hfst⟩ := Option.map_eq_some_iff.mp hsharenfs
    rw [heffect, share_shareAll, hx, Option.map_some, Option.map_some, hfst]
  · rw [hleft hall, hshare htook, if_pos hname]
    rfl
  · rw [hleft hall]
    by_cases htook : Took (.unshare (p.clonePath cloneName)) tr
    · rw [hshare htook, if_neg fun hname => hnot ⟨htook, hname⟩]
      rfl
    · rw [hsame htook, hbefore]
      rfl

/-- A deletion that fails leaves the branch usable exactly if no `zfs destroy` did its work all
the same, the clone was shared again or never unshared, and the threads came back. -/
theorem usable_iff (h : Runs (p.deleteClone cloneName) m tr (.error err) m')
    (herr : err ≠ errNotFound) :
    Usable (p.clonePath cloneName) m m' ↔ Spared (p.clonePath cloneName) m tr := by
  constructor
  · intro husable
    have hthere : m.store.filesystem (p.clonePath cloneName) ≠ none :=
      fun hnone => husable.there (p.absent_failed h rfl herr (Or.inl hnone))
    have hkept : ¬ Took (.destroy true (p.clonePath cloneName)) tr :=
      fun htook => husable.there (p.absent_failed h rfl herr (Or.inr htook))
    obtain ⟨hrestarted, hstopped⟩ := (p.threads_failed h rfl herr).mp husable.threads
    refine ⟨hthere, hkept, fun hall name f hf hclone => ?_, fun hall htook f hf => ?_, hrestarted,
      hstopped⟩
    · have hshared := (share_failed h rfl herr hkept hf).1 hall
      rw [husable.shares name f hf hclone] at hshared
      exact Option.some.inj hshared
    · have hshared := (share_failed h rfl herr hkept hf).2.1 hall htook rfl
      rw [husable.shares _ f hf (Or.inl rfl)] at hshared
      exact Option.some.inj hshared
  · intro hspared
    have hshares : ∀ name f, m.store.filesystem name = some f →
        (name = p.clonePath cloneName ∨ f.origin ≠ none) →
        (m'.store.share name).map (·.2) = some f.shared := by
      intro name f hf hclone
      obtain ⟨hreshared, hunshared, hsame⟩ := share_failed h rfl herr hspared.kept hf
      by_cases hall : Took .shareAll tr
      · rw [hreshared hall, hspared.reshared hall name f hf hclone]
      · by_cases hhit : Took (.unshare (p.clonePath cloneName)) tr ∧ name = p.clonePath cloneName
        · obtain ⟨htook, rfl⟩ := hhit
          rw [hunshared hall htook rfl, hspared.unshared hall htook f hf]
        · exact hsame hall hhit
    refine ⟨fun hnone => ?_, hshares,
      (p.threads_failed h rfl herr).mpr ⟨hspared.restarted, hspared.stopped⟩⟩
    obtain ⟨f, hf⟩ := Option.ne_none_iff_exists'.mp hspared.there
    have hshared := hshares _ f hf (Or.inl rfl)
    rw [Store.share, hnone] at hshared
    cases hshared

theorem usable_demo : ∃ tr err m',
    Runs (demoProvider.deleteClone "feature") demoBranch tr (.error err) m' ∧
      (Usable (demoProvider.clonePath "feature") demoBranch m' ↔
        Spared (demoProvider.clonePath "feature") demoBranch tr) := by
  obtain ⟨tr, hrun⟩ := serve_runs (failing (.destroy true "tank/mysql/branches/feature"))
    (demoProvider.deleteClone "feature") demoBranch (show _ = Except.error _ from rfl)
  exact ⟨tr, _, _, hrun, usable_iff hrun (by decide +kernel)⟩

/-- `zfs destroy` fails, for a reason of its own, and the clone is not shared any more. -/
theorem refused_not_usable : ∃ tr err m',
    Runs (demoProvider.deleteClone "feature") demoBranch tr (.error err) m' ∧
      err ≠ errNotFound ∧ demoBranch.store.filesystem (demoProvider.clonePath "feature") ≠ none ∧
      ¬ Usable (demoProvider.clonePath "feature") demoBranch m' := by
  obtain ⟨tr, hrun⟩ := serve_runs (failing (.destroy true "tank/mysql/branches/feature"))
    (demoProvider.deleteClone "feature") demoBranch (show _ = Except.error _ from rfl)
  refine ⟨tr, _, _, hrun, by decide +kernel, by decide +kernel, ?_⟩
  intro h
  have hshares := h.shares "tank/mysql/branches/feature"
    ⟨"tank/mysql/branches/feature", some 0, "rw=@10.0.0.0/8", true⟩ (by decide +kernel)
    (Or.inr nofun)
  revert hshares
  decide +kernel

end BranchDB.AgentProvider
