/-
# `BranchDB.Zfs.OneClone` — a clone comes and goes alone

`CreateClone` and `DeleteClone` make and destroy one filesystem and no other (`SameBut`).  A clone
that is there stays when it is to be made again, and one that is not there is not made by being
deleted.

On a host that is `Legible` no name contains the phrase by which `DeleteClone` knows that a clone
is missing, and nothing is misread.
-/
import BranchDB.Zfs.Refused

namespace Zfs

open Strings

variable {clock : UInt64} {c : Command} {st st' st'' : Store} {out : Output} {path : String}

/-- What is made or destroyed is under the path; snapshots are neither taken nor renamed. -/
def Command.Around (path : String) : Command → Prop
  | .clone _ target => target = path
  | .destroy _ object => object = path
  | .snapshot _ | .rename .. => False
  | .share _ | .shareAll | .unshare _ | .getSharenfs _ | .getClones _ | .listSnapshots _
  | .listTree _ | .list _ => True

/-- The same filesystems but for one, and no new snapshots. -/
structure SameBut (path : String) (st st' : Store) : Prop where
  others : ∀ name, name ≠ path → (st'.filesystem name = none ↔ st.filesystem name = none)
  snapshots : st'.snapshots ⊆ st.snapshots

theorem SameBut.refl (path : String) (st : Store) : SameBut path st st :=
  ⟨fun _ _ => Iff.rfl, List.Subset.refl _⟩

theorem SameBut.trans (h : SameBut path st st') (h' : SameBut path st' st'') :
    SameBut path st st'' :=
  ⟨fun name hname => (h'.others name hname).trans (h.others name hname),
    List.Subset.trans h'.snapshots h.snapshots⟩

theorem filesystem_none_congr {name : String}
    (h : ∀ origin, (name, origin) ∈ st'.datasets ↔ (name, origin) ∈ st.datasets) :
    st'.filesystem name = none ↔ st.filesystem name = none := by
  rw [← not_iff_not]
  exact filesystem_ne_none.trans ((exists_congr h).trans filesystem_ne_none.symm)

theorem sameBut_effect (hat : '@' ∉ path.toList) (hc : c.Around path) :
    SameBut path st (effect clock st c) := by
  cases c with
  | clone snap target =>
      obtain rfl : target = path := hc
      refine ⟨fun name hname => filesystem_none_congr fun origin => ?_, List.Subset.refl _⟩
      rw [datasets_clone, List.mem_append, List.mem_singleton, Prod.mk.injEq]
      exact or_iff_left fun h => hname h.1
  | destroy force object =>
      obtain rfl : object = path := hc
      constructor
      · intro name hname
        refine filesystem_none_congr fun origin => ?_
        rw [datasets_destroy hat, List.mem_filter]
        exact and_iff_left (decide_eq_true hname)
      · rw [effect, if_neg hat]
        exact List.Subset.refl _
  | snapshot | rename => exact hc.elim
  | share | shareAll | unshare | getSharenfs | getClones | listSnapshots | listTree | list =>
      refine ⟨fun name _ => filesystem_none_congr fun origin => ?_, List.Subset.refl _⟩
      rw [datasets_effect (by exact trivial)]

theorem Served.sameBut (h : Served clock c st out st') (hat : '@' ∉ path.toList)
    (hc : c.Around path) : SameBut path st st' := by
  rcases h.cases_effect with rfl | ⟨-, rfl⟩
  · exact .refl path st'
  · exact sameBut_effect hat hc

/-! ## Hosts on which nothing is misread -/

structure Legible (st : Store) : Prop where
  filesystems : ∀ f ∈ st.filesystems, contains f.name missingText = false
  snapshots : ∀ s ∈ st.snapshots, contains s.name missingText = false

theorem Legible.not_misread (h : Legible st) : ¬ Misread st path := by
  rintro ⟨hthere, htext⟩
  obtain ⟨f, hf⟩ := Option.ne_none_iff_exists'.mp hthere
  obtain ⟨hmem, rfl⟩ := mem_of_filesystem hf
  rcases htext with htext | ⟨child, hchild, htext⟩
  · exact absurd htext (Bool.eq_false_iff.mp (h.filesystems f hmem))
  · have hnamed := (List.mem_filter.mp hchild).1
    rcases List.mem_append.mp hnamed with hnamed | hnamed
    · obtain ⟨f, hf, rfl⟩ := List.mem_map.mp hnamed
      exact absurd htext (Bool.eq_false_iff.mp (h.filesystems f hf))
    · obtain ⟨s, hs, rfl⟩ := List.mem_map.mp hnamed
      exact absurd htext (Bool.eq_false_iff.mp (h.snapshots s hs))

theorem Legible.sameBut (h : Legible st) (hpath : contains path missingText = false)
    (hsame : SameBut path st st') : Legible st' := by
  constructor
  · intro f hf
    by_cases hname : f.name = path
    · rw [hname]
      exact hpath
    · have hthere : st'.filesystem f.name ≠ none := fun hnone => filesystem_eq_none.mp hnone f hf rfl
      have hbefore : st.filesystem f.name ≠ none :=
        fun hnone => hthere ((hsame.others _ hname).mpr hnone)
      obtain ⟨f', hf'⟩ := Option.ne_none_iff_exists'.mp hbefore
      obtain ⟨hmem, hsame⟩ := mem_of_filesystem hf'
      rw [← hsame]
      exact h.filesystems f' hmem
  · intro s hs
    exact h.snapshots s (hsame.snapshots hs)

end Zfs

namespace BranchDB

open Concur Strings Zfs Machine

variable {m m' : Machine} {path : String}

def OsCall.Around (path : String) : OsCall → Prop
  | .zfs c => c.Around path
  | .hostname | .readThreads | .writeThreads _ | .now | .visit _ => True

theorem OsCall.Around.sameBut {c : OsCall} {r : c.Reply} (hc : c.Around path)
    (hat : '@' ∉ path.toList) (h : exec c m r m') : SameBut path m.store m'.store := by
  cases c with
  | zfs c =>
      obtain ⟨⟨clock, hserved⟩, -⟩ := h
      exact hserved.sameBut hat hc
  | writeThreads n =>
      obtain ⟨-, hstore⟩ := h
      exact hstore ▸ .refl path m.store
  | hostname | now =>
      cases (show m' = m from h)
      exact .refl path m.store
  | readThreads | visit =>
      cases h.2
      exact .refl path m.store

theorem sameBut_of_runs {α : Type} {prog : Os α} {tr : List (Event OsCall OsCall.Reply Machine)}
    {a : α} (hat : '@' ∉ path.toList) (hprog : prog.Only (·.Around path))
    (h : Runs prog m tr a m') : SameBut path m.store m'.store :=
  Prog.Ends.preserved (P := (·.Around path)) (J := fun m' => SameBut path m.store m'.store)
    (fun _ _ _ _ hc hJ hexec => hJ.trans (hc.sameBut hat hexec)) h hprog (.refl path m.store)

theorem absent_of_runs {α : Type} {prog : Os α} {tr : List (Event OsCall OsCall.Reply Machine)}
    {a : α} (hprog : prog.Only fun c => ∀ snap target, c ≠ .zfs (.clone snap target))
    (h : Runs prog m tr a m') (hnone : m.store.filesystem path = none) :
    m'.store.filesystem path = none := by
  refine Prog.Ends.preserved (J := fun m' => m'.store.filesystem path = none) ?_ h hprog hnone
  intro c m₁ r m₂ hc hnone hexec
  cases c with
  | zfs c =>
      exact AgentProvider.exec_absent hexec (fun snap target he => hc snap target (congrArg _ he))
        hnone
  | writeThreads n =>
      obtain ⟨-, hstore⟩ := hexec
      rw [hstore]
      exact hnone
  | hostname | now =>
      cases (show m₂ = m₁ from hexec)
      exact hnone
  | readThreads | visit =>
      cases hexec.2
      exact hnone

namespace AgentProvider

variable (p : AgentProvider) {snapshot cloneName : String}
  {tr : List (Event OsCall OsCall.Reply Machine)}

theorem createClone_around :
    (p.createClone snapshot cloneName).Only (·.Around (p.clonePath cloneName)) :=
  .bind (.perform rfl) fun _ => p.afterClone_only trivial trivial trivial fun _ => rfl

theorem deleteClone_around :
    (p.deleteClone cloneName).Only (·.Around (p.clonePath cloneName)) :=
  p.deleteClone_only trivial trivial (fun _ => trivial) rfl trivial

/-- A clone that is there is not taken away by being made again. -/
theorem createClone_stays {r : Except GoError VolumeInfo}
    (h : Runs (p.createClone snapshot cloneName) m tr r m')
    (hthere : m.store.filesystem (p.clonePath cloneName) ≠ none) :
    m'.store.filesystem (p.clonePath cloneName) ≠ none := by
  obtain ⟨origin, hmem⟩ := filesystem_ne_none.mp hthere
  exact filesystem_ne_none.mpr ⟨origin, (p.survives_createClone (.refl hmem) h).dataset⟩

/-- After success it is there. -/
theorem createClone_there {vol : VolumeInfo}
    (h : Runs (p.createClone snapshot cloneName) m tr (.ok vol) m')
    (hat : '@' ∉ (p.clonePath cloneName).toList) :
    m'.store.filesystem (p.clonePath cloneName) ≠ none :=
  filesystem_ne_none.mpr (m'.wf.filesystem_of_exists (p.createClone_exists h) hat)

/-- A clone that is not there is not made by being deleted. -/
theorem deleteClone_absent {r : Except GoError Unit}
    (h : Runs (p.deleteClone cloneName) m tr r m')
    (hnone : m.store.filesystem (p.clonePath cloneName) = none) :
    m'.store.filesystem (p.clonePath cloneName) = none :=
  absent_of_runs (p.deleteClone_only nofun nofun (fun _ => nofun) nofun nofun) h hnone

end AgentProvider

end BranchDB
