/-
# `Zfs.Apart` — commands that keep to a dataset

A command that names only what is below a dataset, and one that only reads, leaves everything
else on the pool as it was (`Served.apart`): what `zfs destroy` makes of the commas and ranges in
a name stays behind the same `@`, and so below the dataset.  `zfs share -a` names nothing, and
exports everything again that is to be exported.
-/
import BranchDB.Zfs.Pool

namespace Zfs

variable {d object : String} {clock : UInt64} {c : Command} {st st' st'' : Store} {out : Output}

/-! ## Names below a dataset -/

theorem below_iff {x : String} : below d x = true ↔
    d.toList ++ ['/'] <+: x.toList ∨ d.toList ++ ['@'] <+: x.toList := by
  simp [below, List.isPrefixOf_iff_prefix]

theorem mem_range {fs first last : List Char} {s : Snapshot} (h : s ∈ st.range fs first last) :
    fs ++ ['@'] <+: s.name.toList := by
  unfold Store.range at h
  extract_lets own start upto at h
  have hstart : start ⊆ own := by
    unfold start
    split
    · exact List.Subset.refl _
    · exact (List.dropWhile_sublist _).subset
  have hown : s ∈ own := by
    split at h
    · exact hstart h
    · split at h
      · exact hstart (List.mem_of_mem_take h)
      · cases h
  exact List.isPrefixOf_iff_prefix.mp (List.mem_filter.mp hown).2

theorem prefix_of_named {fs part : List Char} {s : Snapshot} (h : st.named fs part s = true) :
    fs ++ ['@'] <+: s.name.toList := by
  unfold Store.named at h
  split at h
  · exact mem_range (of_decide_eq_true h)
  · rw [of_decide_eq_true h]
    exact ⟨part, by simp⟩

/-- What is destroyed under a name below the dataset is below it, too. -/
theorem below_of_selected (hd : '@' ∉ d.toList) (ho : below d object = true) {s : Snapshot}
    (hs : s ∈ st.selected object) : below d s.name = true := by
  obtain ⟨part, -, hnamed⟩ := List.any_eq_true.mp (List.mem_filter.mp hs).2
  have hstarts := prefix_of_named hnamed
  rw [below_iff]
  rcases below_iff.mp ho with ⟨rest, hrest⟩ | ⟨rest, hrest⟩
  · left
    refine List.IsPrefix.trans ?_ ((List.prefix_append _ _).trans hstarts)
    have hall : ∀ c ∈ d.toList ++ ['/'], decide (c ≠ '@') = true := by
      intro c hc
      refine decide_eq_true ?_
      rintro rfl
      rcases List.mem_append.mp hc with hc | hc
      · exact hd hc
      · exact absurd hc (by decide)
    rw [← hrest, cutAt, List.takeWhile_append_of_pos hall]
    exact List.prefix_append _ _
  · right
    rw [← hrest, List.append_assoc, List.singleton_append, cutAt_append hd] at hstarts
    exact hstarts

/-! ## What lies outside -/

def Store.snapshotsOutside (d : String) (st : Store) : List Snapshot :=
  st.snapshots.filter fun s => ¬ below d s.name

def Store.filesystemsOutside (d : String) (st : Store) : List Filesystem :=
  st.filesystems.filter fun f => ¬ below d f.name

/-- Outside the dataset everything is as it was, or exported again. -/
structure Apart (d : String) (exported : Bool) (st st' : Store) : Prop where
  snapshots : st'.snapshotsOutside d = st.snapshotsOutside d
  filesystems : st'.filesystemsOutside d = st.filesystemsOutside d ∨
    exported = true ∧ st'.filesystemsOutside d = (st.filesystemsOutside d).map (·.export)

variable {exported : Bool}

theorem Apart.refl (d : String) (exported : Bool) (st : Store) : Apart d exported st st :=
  ⟨rfl, Or.inl rfl⟩

theorem Apart.of_eq (hs : st'.snapshotsOutside d = st.snapshotsOutside d)
    (hf : st'.filesystemsOutside d = st.filesystemsOutside d) : Apart d exported st st' :=
  ⟨hs, Or.inl hf⟩

/-- Exporting twice is exporting once. -/
theorem export_export (f : Filesystem) : f.export.export = f.export := rfl

theorem Apart.trans (h : Apart d exported st st') (h' : Apart d exported st' st'') :
    Apart d exported st st'' := by
  refine ⟨h'.snapshots.trans h.snapshots, ?_⟩
  rcases h.filesystems with hf | ⟨hex, hf⟩
  · rw [← hf]
    exact h'.filesystems
  · refine Or.inr ⟨hex, ?_⟩
    rcases h'.filesystems with hf' | ⟨-, hf'⟩
    · exact hf'.trans hf
    · rw [hf', hf, List.map_map]
      exact List.map_congr_left fun f _ => export_export f

/-- What is changed inside is not seen outside. -/
theorem filter_map_inside {α : Type} {q : α → Bool} {g : α → α} {l : List α}
    (h : ∀ a, g a = a ∨ (q a = false ∧ q (g a) = false)) : (l.map g).filter q = l.filter q := by
  induction l with
  | nil => rfl
  | cons a l ih =>
      rw [List.map_cons, List.filter_cons, List.filter_cons, ih]
      rcases h a with he | ⟨ha, hg⟩
      · rw [he]
      · rw [ha, hg]
        rfl

theorem filter_append_inside {α : Type} {q : α → Bool} {l : List α} {a : α} (h : q a = false) :
    (l ++ [a]).filter q = l.filter q := by
  rw [List.filter_append, List.filter_cons, h]
  simp

theorem filter_filter_inside {α : Type} {q keep : α → Bool} {l : List α}
    (h : ∀ a ∈ l, q a = true → keep a = true) : (l.filter keep).filter q = l.filter q := by
  rw [List.filter_filter]
  refine List.filter_congr ?_
  intro a ha
  cases hq : q a with
  | false => rfl
  | true => rw [h a ha hq]; rfl

/-! ## Commands -/

/-- Nothing is changed by it. -/
def Command.ReadOnly : Command → Prop
  | .getSharenfs _ | .getClones _ | .listSnapshots _ | .listTree _ | .list _ => True
  | .destroy .. | .snapshot _ | .rename .. | .clone .. | .share _ | .shareAll | .unshare _ => False

theorem Served.readOnly (h : Served clock c st out st') (hc : c.ReadOnly) : st' = st := by
  rcases h.cases_effect with rfl | ⟨-, rfl⟩
  · rfl
  · cases c with
    | getSharenfs | getClones | listSnapshots | listTree | list => rfl
    | destroy | snapshot | rename | clone | share | shareAll | unshare => exact hc.elim

/-- Everything it names is below the dataset. -/
def Command.Below (d : String) (c : Command) : Prop := ∀ object ∈ c.objects, below d object = true

theorem apart_effect (hd : '@' ∉ d.toList) (hc : c.Below d)
    (hshare : c = .shareAll → exported = true) : Apart d exported st (effect clock st c) := by
  have hout : ∀ {name : String}, below d name = true → (decide ¬ below d name = true) = false :=
    fun h => decide_eq_false (not_not.mpr h)
  cases c with
  | destroy force object =>
      have ho := hc object List.mem_cons_self
      by_cases hat : '@' ∈ object.toList
      · simp only [effect, if_pos hat]
        have hkept : ∀ s ∈ st.snapshots, (decide ¬ below d s.name = true) = true →
            decide (s ∉ st.selected object) = true := by
          intro s _ hs
          refine decide_eq_true fun hsel => ?_
          exact of_decide_eq_true hs (below_of_selected hd ho hsel)
        exact .of_eq (filter_filter_inside hkept) rfl
      · simp only [effect, if_neg hat]
        have hkept : ∀ f ∈ st.filesystems, (decide ¬ below d f.name = true) = true →
            decide (f.name ≠ object) = true := by
          intro f _ hf
          refine decide_eq_true ?_
          rintro rfl
          exact of_decide_eq_true hf ho
        exact .of_eq rfl (filter_filter_inside hkept)
  | snapshot name =>
      have ho := hc name List.mem_cons_self
      exact .of_eq (filter_append_inside (hout ho)) rfl
  | rename name target =>
      have hname := hc name List.mem_cons_self
      have htarget := hc target (List.mem_cons_of_mem _ List.mem_cons_self)
      refine .of_eq (filter_map_inside fun s => ?_) rfl
      by_cases hs : s.name = name
      · rw [if_pos hs]
        exact Or.inr ⟨hout (hs ▸ hname), hout htarget⟩
      · exact Or.inl (if_neg hs)
  | clone snap target =>
      have htarget := hc target (List.mem_cons_of_mem _ List.mem_cons_self)
      exact .of_eq rfl (filter_append_inside (hout htarget))
  | share target =>
      have htarget := hc target List.mem_cons_self
      refine .of_eq rfl (filter_map_inside fun f => ?_)
      by_cases hf : f.name = target
      · rw [if_pos hf]
        exact Or.inr ⟨hout (hf ▸ htarget), hout (hf ▸ htarget)⟩
      · exact Or.inl (if_neg hf)
  | shareAll => exact ⟨rfl, Or.inr ⟨hshare rfl, List.filter_map⟩⟩
  | unshare target =>
      have htarget := hc target List.mem_cons_self
      refine .of_eq rfl (filter_map_inside fun f => ?_)
      by_cases hf : f.name = target
      · rw [if_pos hf]
        exact Or.inr ⟨hout (hf ▸ htarget), hout (hf ▸ htarget)⟩
      · exact Or.inl (if_neg hf)
  | getSharenfs | getClones | listSnapshots | listTree | list => exact .refl d exported st

/-- A command that only reads, or that names only what is below the dataset. -/
theorem Served.apart (h : Served clock c st out st') (hd : '@' ∉ d.toList)
    (hc : c.ReadOnly ∨ c.Below d) (hshare : c = .shareAll → exported = true) :
    Apart d exported st st' := by
  rcases hc with hc | hc
  · rw [h.readOnly hc]
    exact .refl d exported st
  · rcases h.cases_effect with rfl | ⟨-, rfl⟩
    · exact .refl d exported st'
    · exact apart_effect hd hc hshare

end Zfs
