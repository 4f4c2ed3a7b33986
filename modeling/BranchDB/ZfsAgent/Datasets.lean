/-
# `BranchDB.ZfsAgent.Datasets` — which dataset is for which type

    mysql:tank/mysql,postgres:tank/postgres

`parseDatasets` of `cmd/zfsagent/main.go`.  An entry is trimmed before it is cut at its first
colon, and the two sides are not trimmed any more.  So blanks around an entry are let through, but
what stands before and after the colon becomes part of the type and of the name of the dataset:
the map is what was meant exactly if nothing does (`datasets_iff`).
-/
import BranchDB.Strings
import Mathlib.Data.Finmap

namespace BranchDB.ZfsAgent

open Strings

/-- `map[string]string`; a nil map is an empty one. -/
abbrev Datasets := Finmap fun _ : String => String

/-- The body of the loop over the entries. -/
def addEntry (result : Datasets) (entry : String) : Datasets :=
  match splitTwo ':' (trimSpace entry) with
  | [dbType, dataset] =>
    if dbType ≠ "" ∧ dataset ≠ "" then result.insert dbType dataset else result
  | _ => result

def parseDatasets (raw : String) : Datasets :=
  if raw = "" then ∅ else (split ',' raw).foldl addEntry ∅

/-! ## What an entry says -/

/-- The type and the dataset that an entry gives, if it gives any. -/
def binding (entry : String) : Option (String × String) :=
  match splitTwo ':' (trimSpace entry) with
  | [dbType, dataset] => if dbType ≠ "" ∧ dataset ≠ "" then some (dbType, dataset) else none
  | _ => none

theorem addEntry_eq (result : Datasets) (entry : String) : addEntry result entry =
    match binding entry with
    | some (dbType, dataset) => result.insert dbType dataset
    | none => result := by
  unfold addEntry binding
  split
  · split <;> rfl
  · rfl

/-- Of the entries for a type the last one gives this dataset. -/
def Stands (entries : List String) (key value : String) : Prop :=
  ∃ front entry back, entries = front ++ entry :: back ∧ binding entry = some (key, value) ∧
    ∀ e ∈ back, ∀ w, binding e ≠ some (key, w)

variable {entries : List String} {entry key value : String}

theorem stands_concat : Stands (entries ++ [entry]) key value ↔
    binding entry = some (key, value) ∨
      (Stands entries key value ∧ ∀ w, binding entry ≠ some (key, w)) := by
  constructor
  · rintro ⟨front, e, back, hsplit, he, hback⟩
    rcases List.eq_nil_or_concat back with rfl | ⟨back, last, rfl⟩
    · obtain ⟨-, heq⟩ := List.append_inj' hsplit rfl
      obtain rfl := (List.cons.inj heq).1
      exact Or.inl he
    · rw [List.concat_eq_append, ← List.cons_append, ← List.append_assoc] at hsplit
      obtain ⟨rfl, heq⟩ := List.append_inj' hsplit rfl
      obtain rfl := (List.cons.inj heq).1
      rw [List.concat_eq_append] at hback
      refine Or.inr ⟨⟨front, e, back, rfl, he, fun d hd => ?_⟩, ?_⟩
      · exact hback d (List.mem_append_left _ hd)
      · exact hback entry (List.mem_append_right _ (List.mem_singleton_self entry))
  · rintro (hentry | ⟨⟨front, e, back, rfl, he, hback⟩, hentry⟩)
    · exact ⟨entries, entry, [], rfl, hentry, nofun⟩
    · refine ⟨front, e, back ++ [entry], by simp, he, ?_⟩
      intro d hd
      rcases List.mem_append.mp hd with hd | hd
      · exact hback d hd
      · exact List.mem_singleton.mp hd ▸ hentry

theorem lookup_entries :
    (entries.foldl addEntry ∅).lookup key = some value ↔ Stands entries key value := by
  induction entries using List.reverseRecOn with
  | nil =>
      constructor
      · exact fun h => by cases (Finmap.lookup_empty key).symm.trans h
      · rintro ⟨front, e, back, hsplit, -⟩
        exact absurd hsplit.symm (by simp)
  | append_singleton entries entry ih =>
      rw [List.foldl_append, List.foldl_cons, List.foldl_nil, addEntry_eq, stands_concat, ← ih]
      cases hentry : binding entry with
      | none => simp
      | some b =>
          obtain ⟨k, v⟩ := b
          by_cases hk : k = key
          · subst hk
            rw [Finmap.lookup_insert]
            simp
          · rw [Finmap.lookup_insert_of_ne _ (Ne.symm hk)]
            simp [hk]

theorem lookup_parseDatasets {raw : String} :
    (parseDatasets raw).lookup key = some value ↔ Stands (split ',' raw) key value := by
  unfold parseDatasets
  split
  · next hempty =>
    have hnothing : (split ',' raw).foldl addEntry ∅ = ∅ := hempty ▸ rfl
    have hlookup := @lookup_entries (split ',' raw) key value
    rw [hnothing] at hlookup
    exact hlookup
  · exact lookup_entries

/-- Some entry stands for each type that is given. -/
theorem exists_stands (hmem : entry ∈ entries) (h : binding entry = some (key, value)) :
    ∃ w, Stands entries key w := by
  induction entries using List.reverseRecOn with
  | nil => cases hmem
  | append_singleton entries last ih =>
      by_cases hlast : ∃ w, binding last = some (key, w)
      · obtain ⟨w, hw⟩ := hlast
        exact ⟨w, stands_concat.mpr (Or.inl hw)⟩
      · rw [not_exists] at hlast
        rcases List.mem_append.mp hmem with hmem | hmem
        · obtain ⟨w, hw⟩ := ih hmem
          exact ⟨w, stands_concat.mpr (Or.inr ⟨hw, hlast⟩)⟩
        · exact absurd (List.mem_singleton.mp hmem ▸ h) (hlast value)

/-! ## Both sides of a colon -/

theorem splitTwo_eq {s a b : String} {c : Char} (h : splitTwo c s = [a, b]) :
    s.toList = a.toList ++ c :: b.toList ∧ c ∉ a.toList := by
  unfold splitTwo at h
  split at h
  · cases h
  · next d rest hdrop =>
    obtain ⟨rfl, hrest⟩ := List.cons.inj h
    obtain ⟨rfl, -⟩ := List.cons.inj hrest
    have hd : d = c := by
      have hnot := List.head?_dropWhile_not (fun x : Char => decide (x ≠ c)) s.toList
      rw [hdrop] at hnot
      simpa using hnot
    have hjoin : s.toList.takeWhile (· ≠ c) ++ s.toList.dropWhile (· ≠ c) = s.toList :=
      List.takeWhile_append_dropWhile
    rw [hdrop, hd] at hjoin
    rw [String.toList_ofList, String.toList_ofList]
    refine ⟨hjoin.symm, ?_⟩
    intro hmem
    have hne := List.mem_takeWhile_imp hmem
    simp at hne

theorem splitTwo_append {a b : String} {c : Char} (h : c ∉ a.toList) :
    splitTwo c (a ++ String.singleton c ++ b) = [a, b] := by
  have hchars : (a ++ String.singleton c ++ b).toList = a.toList ++ c :: b.toList := by simp
  have hall : ∀ x ∈ a.toList, decide (x ≠ c) = true :=
    fun x hx => decide_eq_true fun hxc => h (hxc ▸ hx)
  have htake : (a.toList ++ c :: b.toList).takeWhile (fun x => decide (x ≠ c)) = a.toList := by
    rw [List.takeWhile_append_of_pos hall]
    simp
  have hdrop : (a.toList ++ c :: b.toList).dropWhile (fun x => decide (x ≠ c)) = c :: b.toList := by
    rw [List.dropWhile_append_of_pos hall]
    simp
  rw [splitTwo, hchars, hdrop, htake]
  simp only [String.ofList_toList]

/-- But for the blanks around it the entry is a type, a colon and a dataset. -/
def Gives (entry key value : String) : Prop :=
  trimSpace entry = key ++ String.singleton ':' ++ value ∧ ':' ∉ key.toList ∧ key ≠ "" ∧ value ≠ ""

theorem binding_eq_some : binding entry = some (key, value) ↔ Gives entry key value := by
  constructor
  · intro h
    unfold binding at h
    split at h
    · next k v hsplit =>
      split at h
      · next hne =>
        obtain ⟨rfl, rfl⟩ := Prod.mk.inj (Option.some.inj h)
        obtain ⟨hchars, hcolon⟩ := splitTwo_eq hsplit
        exact ⟨String.toList_injective (by simp [hchars]), hcolon, hne⟩
      · cases h
    · cases h
  · rintro ⟨htext, hcolon, hkey, hvalue⟩
    rw [binding, htext, splitTwo_append hcolon]
    exact if_pos ⟨hkey, hvalue⟩

/-- What trimming the entry leaves to be trimmed: the end of the type and the beginning of the
dataset. -/
theorem Gives.trimmed (h : Gives entry key value) : (∀ c ∈ key.toList.head?, isSpace c = false) ∧
    ∀ c ∈ value.toList.getLast?, isSpace c = false := by
  obtain ⟨htext, -, -, hvalue⟩ := h
  obtain ⟨hhead, hlast⟩ := trimmed_trimSpace entry
  rw [htext, String.toList_append] at hhead hlast
  constructor
  · intro c hc
    rw [String.toList_append, List.append_assoc] at hhead
    exact hhead c (List.mem_head?_append_of_mem_head? hc)
  · intro c hc
    have hne : value.toList ≠ [] := fun hnil => hvalue (String.toList_eq_nil_iff.mp hnil)
    rw [List.getLast?_append_of_ne_nil _ hne] at hlast
    exact hlast c hc

/-! ## Entries as they are written -/

/-- A type and its dataset, with what blanks are put around them. -/
structure Entry where
  before : String := ""
  dbType : String
  afterType : String := ""
  beforeDataset : String := ""
  dataset : String
  after : String := ""
  blank : ∀ s ∈ [before, afterType, beforeDataset, after], Blank s
  dbType_ne : dbType ≠ ""
  dbType_trimmed : Trimmed dbType.toList
  dbType_plain : ',' ∉ dbType.toList ∧ ':' ∉ dbType.toList
  dataset_ne : dataset ≠ ""
  dataset_trimmed : Trimmed dataset.toList
  dataset_plain : ',' ∉ dataset.toList

namespace Entry

def text (e : Entry) : String :=
  e.before ++ ((e.dbType ++ e.afterType) ++ ":" ++ (e.beforeDataset ++ e.dataset)) ++ e.after

/-- There are none around the colon. -/
def Tight (e : Entry) : Prop := e.afterType = "" ∧ e.beforeDataset = ""

variable (e : Entry)

theorem before_blank : Blank e.before := e.blank _ (by simp)

theorem afterType_blank : Blank e.afterType := e.blank _ (by simp)

theorem beforeDataset_blank : Blank e.beforeDataset := e.blank _ (by simp)

theorem after_blank : Blank e.after := e.blank _ (by simp)

theorem trimSpace_key : trimSpace (e.dbType ++ e.afterType) = e.dbType := by
  rw [trimSpace_append_blank e.afterType_blank, trimSpace_of_trimmed e.dbType_trimmed]

theorem trimSpace_value : trimSpace (e.beforeDataset ++ e.dataset) = e.dataset := by
  rw [trimSpace_blank_append e.beforeDataset_blank, trimSpace_of_trimmed e.dataset_trimmed]

theorem tight_of_trimmed (hkey : Trimmed (e.dbType ++ e.afterType).toList)
    (hvalue : Trimmed (e.beforeDataset ++ e.dataset).toList) : e.Tight := by
  have hk := (trimSpace_of_trimmed hkey).symm.trans e.trimSpace_key
  have hv := (trimSpace_of_trimmed hvalue).symm.trans e.trimSpace_value
  exact ⟨by simpa using hk, by simpa using hv⟩

/-- What is around the entry goes, and what is around the colon stays. -/
theorem gives_text : Gives e.text (e.dbType ++ e.afterType) (e.beforeDataset ++ e.dataset) := by
  have hkey : e.dbType.toList ≠ [] := fun h => e.dbType_ne (String.toList_eq_nil_iff.mp h)
  have hvalue : e.dataset.toList ≠ [] := fun h => e.dataset_ne (String.toList_eq_nil_iff.mp h)
  have hcore : Trimmed
      ((e.dbType ++ e.afterType) ++ ":" ++ (e.beforeDataset ++ e.dataset)).toList := by
    simp only [String.toList_append]
    constructor
    · intro c hc
      rw [List.append_assoc, List.append_assoc, List.head?_append_of_ne_nil _ hkey] at hc
      exact e.dbType_trimmed.1 c hc
    · intro c hc
      rw [← List.append_assoc, List.getLast?_append_of_ne_nil _ hvalue] at hc
      exact e.dataset_trimmed.2 c hc
  refine ⟨?_, ?_, ?_, ?_⟩
  · rw [text, trimSpace_append_blank e.after_blank, trimSpace_blank_append e.before_blank]
    exact trimSpace_of_trimmed hcore
  · have hcolon : isSpace ':' = false := by decide
    rw [String.toList_append, List.mem_append, not_or]
    refine ⟨e.dbType_plain.2, ?_⟩
    intro hin
    rw [e.afterType_blank ':' hin] at hcolon
    cases hcolon
  · exact fun h => e.dbType_ne (String.append_eq_empty_iff.mp h).1
  · exact fun h => e.dataset_ne (String.append_eq_empty_iff.mp h).2

theorem comma_not_mem_text : ',' ∉ e.text.toList := by
  have hcomma : isSpace ',' = false := by decide
  have hblank : ∀ s : String, Blank s → ',' ∉ s.toList := by
    intro s hs hin
    rw [hs ',' hin] at hcomma
    cases hcomma
  simp [text, hblank _ e.before_blank, hblank _ e.afterType_blank, hblank _ e.beforeDataset_blank,
    hblank _ e.after_blank, e.dbType_plain.1, e.dataset_plain]

end Entry

def render (entries : List Entry) : String := ",".intercalate (entries.map Entry.text)

theorem split_render {entries : List Entry} (h : entries ≠ []) :
    split ',' (render entries) = entries.map Entry.text := by
  have hplain : ∀ l ∈ entries.map fun e => e.text.toList, ',' ∉ l := by
    intro l hl
    obtain ⟨e, -, rfl⟩ := List.mem_map.mp hl
    exact e.comma_not_mem_text
  have hchars : (render entries).toList =
      [','].intercalate (entries.map fun e => e.text.toList) := by
    rw [render, String.toList_intercalate, List.map_map]
    rfl
  rw [split, hchars, List.splitOn_intercalate ',' hplain (by simpa using h), List.map_map]
  exact List.map_congr_left fun e _ => String.ofList_toList

/-- The map that the entries are written for, each type in one of them. -/
def Describes (entries : List Entry) (m : Datasets) : Prop :=
  (entries.map Entry.dbType).Nodup ∧
    ∀ key value, m.lookup key = some value ↔ ∃ e ∈ entries, e.dbType = key ∧ e.dataset = value

theorem describes_singleton (e : Entry) :
    Describes [e] (Finmap.singleton e.dbType e.dataset) := by
  refine ⟨List.nodup_singleton _, ?_⟩
  intro key value
  by_cases hkey : e.dbType = key
  · subst hkey
    rw [Finmap.lookup_singleton_eq]
    simp
  · rw [Finmap.lookup_eq_none.mpr fun hmem => hkey ((Finmap.mem_singleton _ _ _).mp hmem).symm]
    simp [hkey]

theorem stands_of_pairwise
    (h : entries.Pairwise fun a b => ∀ k v w, binding a = some (k, v) → binding b ≠ some (k, w)) :
    Stands entries key value ↔ ∃ e ∈ entries, binding e = some (key, value) := by
  constructor
  · rintro ⟨front, e, back, rfl, he, -⟩
    exact ⟨e, by simp, he⟩
  · rintro ⟨e, hmem, he⟩
    obtain ⟨front, back, rfl⟩ := List.append_of_mem hmem
    rw [List.pairwise_append, List.pairwise_cons] at h
    exact ⟨front, e, back, rfl, he, fun d hd w => h.2.1.1 d hd key value w he⟩

/-- The types stay apart with the blanks behind them. -/
theorem lookup_render {entries : List Entry} (h : (entries.map Entry.dbType).Nodup) :
    (parseDatasets (render entries)).lookup key = some value ↔
      ∃ e ∈ entries, e.dbType ++ e.afterType = key ∧ e.beforeDataset ++ e.dataset = value := by
  rcases eq_or_ne entries [] with rfl | hne
  · have hempty : parseDatasets (render []) = ∅ := rfl
    simp [hempty]
  · have hpair : (entries.map Entry.text).Pairwise fun a b =>
        ∀ k v w, binding a = some (k, v) → binding b ≠ some (k, w) := by
      rw [List.pairwise_map]
      refine (List.pairwise_map.mp h).imp fun {a b} hab k v w ha hb => hab ?_
      rw [binding_eq_some.mpr a.gives_text] at ha
      rw [binding_eq_some.mpr b.gives_text] at hb
      have hkeys : a.dbType ++ a.afterType = b.dbType ++ b.afterType :=
        (Prod.mk.inj (Option.some.inj ha)).1.trans (Prod.mk.inj (Option.some.inj hb)).1.symm
      rw [← a.trimSpace_key, hkeys, b.trimSpace_key]
    rw [lookup_parseDatasets, split_render hne, stands_of_pairwise hpair]
    constructor
    · rintro ⟨s, hs, hbinding⟩
      obtain ⟨e, he, rfl⟩ := List.mem_map.mp hs
      rw [binding_eq_some.mpr e.gives_text] at hbinding
      exact ⟨e, he, Prod.mk.inj (Option.some.inj hbinding)⟩
    · rintro ⟨e, he, rfl, rfl⟩
      exact ⟨e.text, List.mem_map_of_mem he, binding_eq_some.mpr e.gives_text⟩

theorem parseDatasets_render {entries : List Entry} {m : Datasets} (h : Describes entries m) :
    parseDatasets (render entries) = m ↔ ∀ e ∈ entries, e.Tight := by
  constructor
  · rintro hm e he
    have hlookup : m.lookup (e.dbType ++ e.afterType) = some (e.beforeDataset ++ e.dataset) :=
      hm ▸ (lookup_render h.1).mpr ⟨e, he, rfl, rfl⟩
    obtain ⟨d, -, hkey, hvalue⟩ := (h.2 _ _).mp hlookup
    exact e.tight_of_trimmed (hkey ▸ d.dbType_trimmed) (hvalue ▸ d.dataset_trimmed)
  · intro htight
    refine Finmap.ext_lookup fun key => Option.ext ?_
    intro value
    rw [lookup_render h.1, h.2]
    refine exists_congr fun e => and_congr_right ?_
    intro he
    obtain ⟨hkey, hvalue⟩ := htight e he
    rw [hkey, hvalue, String.append_empty, String.empty_append]

/-! ## Any text -/

/-- No type and no dataset is empty or has a blank at an end. -/
def Clean (m : Datasets) : Prop :=
  ∀ key value, m.lookup key = some value →
    (key ≠ "" ∧ Trimmed key.toList) ∧ value ≠ "" ∧ Trimmed value.toList

/-- No blank stands before the colon of an entry, and none behind it unless a later entry is for
the same type. -/
def Tidy (raw : String) : Prop :=
  ∀ front entry back key value, split ',' raw = front ++ entry :: back → Gives entry key value →
    (∀ c ∈ key.toList.getLast?, isSpace c = false) ∧
      ((∀ e ∈ back, ∀ w, ¬ Gives e key w) → ∀ c ∈ value.toList.head?, isSpace c = false)

theorem clean_parseDatasets {raw : String} : Clean (parseDatasets raw) ↔ Tidy raw := by
  constructor
  · intro hclean front entry back key value hsplit hgives
    constructor
    · obtain ⟨w, hw⟩ := exists_stands
        (hsplit ▸ List.mem_append_right front List.mem_cons_self) (binding_eq_some.mpr hgives)
      exact (hclean key w (lookup_parseDatasets.mpr hw)).1.2.2
    · intro hlast
      have hstands : Stands (split ',' raw) key value :=
        ⟨front, entry, back, hsplit, binding_eq_some.mpr hgives,
          fun e he w hw => hlast e he w (binding_eq_some.mp hw)⟩
      exact (hclean key value (lookup_parseDatasets.mpr hstands)).2.2.1
  · intro htidy key value hlookup
    obtain ⟨front, entry, back, hsplit, hbinding, hlast⟩ := lookup_parseDatasets.mp hlookup
    have hgives := binding_eq_some.mp hbinding
    obtain ⟨hend, hstart⟩ := htidy front entry back key value hsplit hgives
    obtain ⟨hhead, htail⟩ := hgives.trimmed
    have hfirst := hstart fun e he w hw => hlast e he w (binding_eq_some.mpr hw)
    exact ⟨⟨hgives.2.2.1, hhead, hend⟩, hgives.2.2.2, hfirst, htail⟩

/-! ## When the map is the one that was meant -/

/-- What entries were written for is read from them exactly if there are no blanks around their
colons; and what is read from any text is clean exactly if the text is tidy. -/
theorem datasets_iff {entries : List Entry} {m : Datasets} (h : Describes entries m)
    (raw : String) :
    (parseDatasets (render entries) = m ↔ ∀ e ∈ entries, e.Tight) ∧
      (Clean (parseDatasets raw) ↔ Tidy raw) :=
  ⟨parseDatasets_render h, clean_parseDatasets⟩

/-- Blanks around an entry and a colon within a dataset. -/
def mysqlEntry : Entry where
  before := "  "
  dbType := "mysql"
  dataset := "tank/my:sql"
  after := "\t"
  blank := by decide
  dbType_ne := by decide
  dbType_trimmed := by decide
  dbType_plain := by decide
  dataset_ne := by decide
  dataset_trimmed := by decide
  dataset_plain := by decide

theorem datasets_mysql :
    parseDatasets (render [mysqlEntry]) = Finmap.singleton "mysql" "tank/my:sql" ∧
      Clean (parseDatasets "mysql:tank/mysql") := by
  obtain ⟨hrender, hclean⟩ := datasets_iff (describes_singleton mysqlEntry) "mysql:tank/mysql"
  refine ⟨hrender.mpr ?_, hclean.mpr ?_⟩
  · intro e he
    obtain rfl := List.mem_singleton.mp he
    exact ⟨rfl, rfl⟩
  · intro front entry back key value hsplit hgives
    have hentries : split ',' "mysql:tank/mysql" = ["mysql:tank/mysql"] := by decide
    have hbinding : binding "mysql:tank/mysql" = some ("mysql", "tank/mysql") := by decide
    rw [hentries] at hsplit
    obtain rfl : entry = "mysql:tank/mysql" := by
      have hmem : entry ∈ ["mysql:tank/mysql"] := hsplit ▸ by simp
      exact List.mem_singleton.mp hmem
    rw [← binding_eq_some, hbinding] at hgives
    obtain ⟨rfl, rfl⟩ := Prod.mk.inj (Option.some.inj hgives)
    have hkey : Trimmed "mysql".toList := by decide
    have hvalue : Trimmed "tank/mysql".toList := by decide
    exact ⟨hkey.2, fun _ => hvalue.1⟩

/-- The entry of the test "with spaces". -/
def spacedEntry : Entry where
  before := " "
  dbType := "mysql"
  afterType := " "
  beforeDataset := " "
  dataset := "tank/mysql"
  after := " "
  blank := by decide
  dbType_ne := by decide
  dbType_trimmed := by decide
  dbType_plain := by decide
  dataset_ne := by decide
  dataset_trimmed := by decide
  dataset_plain := by decide

theorem datasets_spaced :
    render [spacedEntry] = " mysql : tank/mysql " ∧
      Describes [spacedEntry] (Finmap.singleton "mysql" "tank/mysql") ∧
      parseDatasets (render [spacedEntry]) ≠ Finmap.singleton "mysql" "tank/mysql" ∧
      ¬ Clean (parseDatasets (render [spacedEntry])) := by
  have hlookup : (parseDatasets (render [spacedEntry])).lookup "mysql " = some " tank/mysql" :=
    (lookup_render (describes_singleton spacedEntry).1).mpr
      ⟨spacedEntry, List.mem_singleton_self _, by decide, by decide⟩
  refine ⟨by decide, describes_singleton spacedEntry, fun hm => ?_, fun hclean => ?_⟩
  · rw [hm] at hlookup
    exact absurd hlookup (by decide)
  · exact absurd (hclean _ _ hlookup).1.2 (by decide)

end BranchDB.ZfsAgent
