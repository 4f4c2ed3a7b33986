/-
# `BranchDB.Zfs.Listing` — what a listing of snapshots is read as

    tank/mysql@base<tab>Sun May 31 15:04 2026

One line for each snapshot, its name before a tab and the time of its creation after.  The
lines have no characters but those of names and times, and none is too long to be scanned
(`isLine_lineOf`), so each is read, and as one snapshot (`parseSnapshotList_answer`).
-/
import BranchDB.Zfs.Calls
import BranchDB.Zfs.Machine

namespace BranchDB

/-! ## Numbers in texts -/

theorem length_padded {n : Int} {width k : Nat} (hk : 0 < k) (h : n.natAbs < 10 ^ k) :
    (padded width n).toList.length ≤ 1 + width + k := by
  have hdigits : (Nat.toDigits 10 n.natAbs).length ≤ k :=
    (Nat.length_toDigits_le_iff (by decide) hk).mpr h
  have hsign : (if n < 0 then "-" else "").toList.length ≤ 1 := by
    split <;> decide
  rw [padded]
  simp only [String.toList_append, List.length_append, String.toList_ofList, List.length_replicate]
  omega

/-- Neither the year nor the day is a long number. -/
theorem civil_range {days year month day : Int} (h0 : 0 ≤ days) (h1 : days < 2 ^ 64)
    (hcivil : civil days = (year, month, day)) : year.natAbs < 10 ^ 20 ∧ day.natAbs < 10 ^ 2 := by
  have hspec := civil_spec days
  rw [hcivil] at hspec
  obtain ⟨hmonth0, hmonth1, hday0, hday1, hdays⟩ := hspec
  have hday := daysIn_le month year
  simp only [daysOf] at hdays hday1 hday0 hmonth0 hmonth1
  constructor
  · split at hdays <;> omega
  · omega

end BranchDB

namespace Zfs

open BranchDB (civil civil_range length_padded padded)
open Strings

/-! ## The characters of a listing -/

/-- Every character of the text is one of those. -/
def Chars (q : Char → Bool) (s : String) : Prop := ∀ c ∈ s.toList, q c = true

instance (q : Char → Bool) (s : String) : Decidable (Chars q s) := List.decidableBAll _ s.toList

variable {q : Char → Bool}

theorem chars_append {a b : String} : Chars q (a ++ b) ↔ Chars q a ∧ Chars q b := by
  simp only [Chars, String.toList_append, List.mem_append]
  constructor
  · exact fun h => ⟨fun c hc => h c (Or.inl hc), fun c hc => h c (Or.inr hc)⟩
  · rintro ⟨ha, hb⟩ c (hc | hc)
    · exact ha c hc
    · exact hb c hc

theorem chars_getD {l : List String} (h : ∀ s ∈ l, Chars q s) (i : Nat) :
    Chars q (l.getD i "") := by
  rw [List.getD_eq_getElem?_getD]
  cases hi : l[i]? with
  | none => exact fun c hc => nomatch hc
  | some s => exact h s (List.mem_of_getElem? hi)

/-- The characters of a time. -/
def timeChar (c : Char) : Bool := c.isAlphanum ∨ c ∈ [' ', ':', '-']

theorem chars_padded (width : Nat) (n : Int) : Chars timeChar (padded width n) := by
  refine chars_append.mpr ⟨?_, fun c hc => ?_⟩
  · split <;> decide
  · rw [String.toList_ofList] at hc
    rcases List.mem_append.mp hc with hc | hc
    · rw [List.eq_of_mem_replicate hc]
      decide
    · have hdigit : c.isDigit = true := Nat.isDigit_of_mem_toDigits (by decide) (by decide) hc
      simp [timeChar, Char.isAlphanum, hdigit]

theorem chars_spaced (n : Int) : Chars timeChar (spaced n) := by
  refine chars_append.mpr ⟨?_, chars_padded _ _⟩
  split <;> decide

theorem chars_creationText (seconds : Int) : Chars timeChar (creationText seconds) := by
  have hnames : (∀ s ∈ weekdays, Chars timeChar s) ∧ ∀ s ∈ months, Chars timeChar s := by decide
  have hblank : Chars timeChar " " := by decide
  have hcolon : Chars timeChar ":" := by decide
  simp only [creationText, chars_append, and_assoc]
  exact ⟨chars_getD hnames.1 _, hblank, chars_getD hnames.2 _, hblank, chars_spaced _, hblank,
    chars_spaced _, hcolon, chars_padded _ _, hblank, chars_padded _ _⟩

theorem colon_mem_creationText (seconds : Int) : ':' ∈ (creationText seconds).toList := by
  simp only [creationText, String.toList_append, List.mem_append]
  exact Or.inl (Or.inl (Or.inl (Or.inr (List.mem_singleton_self ':'))))

theorem length_getD {l : List String} {n : Nat} (h : ∀ s ∈ l, s.toList.length ≤ n) (i : Nat) :
    (l.getD i "").toList.length ≤ n := by
  rw [List.getD_eq_getElem?_getD]
  cases hi : l[i]? with
  | none => exact Nat.zero_le n
  | some s => exact h s (List.mem_of_getElem? hi)

theorem length_spaced {n : Int} (h : n.natAbs < 10 ^ 2) : (spaced n).toList.length ≤ 5 := by
  have hpadded : (padded 1 n).toList.length ≤ 1 + 1 + 2 := length_padded (by decide) h
  have hblank : (if n < 10 then " " else "").toList.length ≤ 1 := by
    split <;> decide
  rw [spaced, String.toList_append, List.length_append]
  omega

theorem length_creationText (seconds : UInt64) :
    (creationText seconds.toNat).toList.length ≤ 100 := by
  obtain ⟨n, hn⟩ : ∃ n : Int, n = seconds.toNat := ⟨_, rfl⟩
  have hrange : 0 ≤ n ∧ n < 2 ^ 64 := by
    have := seconds.toNat_lt
    omega
  rw [← hn]
  have hnames : (∀ s ∈ weekdays, s.toList.length ≤ 3) ∧ ∀ s ∈ months, s.toList.length ≤ 3 := by
    decide
  rcases hcivil : civil (n / 86400) with ⟨year, month, day⟩
  obtain ⟨hyear, hday⟩ := civil_range (by omega) (by omega) hcivil
  have hweekday := length_getD hnames.1 ((n / 86400 + 4) % 7).toNat
  have hmonth := length_getD hnames.2 (month - 1).toNat
  have hday := length_spaced hday
  have hhour := length_spaced (n := n % 86400 / 3600) (by omega)
  have hminutes : (padded 2 (n % 86400 / 60 % 60)).toList.length ≤ 1 + 2 + 2 :=
    length_padded (by decide) (by omega)
  have hyear : (padded 4 year).toList.length ≤ 1 + 4 + 20 := length_padded (by decide) hyear
  simp only [creationText, hcivil, String.toList_append, List.length_append,
    show " ".toList.length = 1 from rfl, show ":".toList.length = 1 from rfl]
  omega

/-! ## The lines of a listing -/

def lineOf (s : Snapshot) : String := s.name ++ "\t" ++ creationText s.creation.toNat

/-- The snapshots of a dataset itself. -/
def Store.own (st : Store) (dataset : String) : List Snapshot :=
  st.snapshots.filter fun s => String.ofList (cutAt s.name.toList).1 = dataset

variable {st : Store} {dataset : String} {s : Snapshot}

theorem mem_own : s ∈ st.own dataset ↔
    s ∈ st.snapshots ∧ String.ofList (cutAt s.name.toList).1 = dataset := by
  rw [Store.own, List.mem_filter, decide_eq_true_iff]

theorem answer_listSnapshots (st : Store) (dataset : String) :
    answer st (.listSnapshots dataset) =
      String.join (((st.own dataset).map lineOf).map (· ++ "\n")) := by
  rw [List.map_map]
  rfl

/-- A line has the characters of a name, a tab, and those of a time. -/
theorem mem_lineOf {c : Char} (h : ValidSnapshot s.name.toList) (hc : c ∈ (lineOf s).toList) :
    (nameChar c ∨ c = '/' ∨ c = '@') ∨ c = '\t' ∨ timeChar c := by
  rw [lineOf, String.toList_append, String.toList_append] at hc
  rcases List.mem_append.mp hc with hc | hc
  · rcases List.mem_append.mp hc with hc | hc
    · exact Or.inl (h.mem hc)
    · exact Or.inr (Or.inl (List.mem_singleton.mp hc))
  · exact Or.inr (Or.inr (chars_creationText _ c hc))

theorem isLine_lineOf (h : ValidSnapshot s.name.toList) : IsLine (lineOf s) := by
  have hbreaks : ¬ ((nameChar '\n' ∨ '\n' = '/' ∨ '\n' = '@') ∨ '\n' = '\t' ∨ timeChar '\n') ∧
      ¬ ((nameChar '\r' ∨ '\r' = '/' ∨ '\r' = '@') ∨ '\r' = '\t' ∨ timeChar '\r') := by decide
  refine ⟨fun hin => hbreaks.1 (mem_lineOf h hin), fun hlast => ?_, ?_⟩
  · exact hbreaks.2 (mem_lineOf h (List.mem_of_getLast? hlast))
  · have hname : s.name.toList.length < 256 := h.2.2.2.2
    have htime := length_creationText s.creation
    have hlength : (lineOf s).toList.length < 1024 := by
      simp only [lineOf, String.toList_append, List.length_append,
        show "\t".toList.length = 1 from rfl]
      omega
    have hbytes := utf8ByteSize_le (lineOf s)
    rw [maxScanTokenSize]
    omega

end Zfs

namespace BranchDB.AgentProvider

open Strings Zfs

variable {st : Store} {dataset : String} {s : Snapshot}

/-- The line of a snapshot has a name and something after it. -/
theorem fields_lineOf (h : ValidSnapshot s.name.toList) :
    ∃ fullName x rest, fields (trimSpace (lineOf s)) = fullName :: x :: rest := by
  have htab : "\t" = String.singleton '\t' := rfl
  have hsplit : lineOf s = s.name ++ (String.singleton '\t' ++ creationText s.creation.toNat) := by
    rw [lineOf, String.append_assoc, htab]
  obtain ⟨first, more, hname⟩ :=
    List.exists_cons_of_ne_nil (fields_ne_nil (s := s.name) h.1 (by decide))
  obtain ⟨x, rest, htime⟩ := List.exists_cons_of_ne_nil
    (fields_ne_nil (colon_mem_creationText s.creation.toNat) (by decide))
  rw [fields_trimSpace, hsplit, fields_append (by decide), hname, htime]
  cases more with
  | nil => exact ⟨first, x, rest, rfl⟩
  | cons y more => exact ⟨first, y, more ++ x :: rest, rfl⟩

theorem parseSnapshotLine_lineOf (h : ValidSnapshot s.name.toList) (dataset : String) :
    (parseSnapshotLine dataset (lineOf s)).isSome = true := by
  obtain ⟨fullName, x, rest, hfields⟩ := fields_lineOf h
  rw [parseSnapshotLine, hfields]
  rfl

/-- The listing is read line by line, as one snapshot each. -/
theorem parseSnapshotList_answer (h : st.WF) (dataset : String) :
    parseSnapshotList (answer st (.listSnapshots dataset)) dataset =
      (st.own dataset).filterMap fun s => parseSnapshotLine dataset (lineOf s) := by
  have hlines : ∀ l ∈ (st.own dataset).map lineOf, IsLine l := by
    intro l hl
    obtain ⟨s, hs, rfl⟩ := List.mem_map.mp hl
    exact isLine_lineOf (h.valid s (mem_own.mp hs).1)
  simp only [parseSnapshotList, answer_listSnapshots, scanLines_join hlines, List.filterMap_map,
    Function.comp_def]

/-- As many are read as there are. -/
theorem length_parsed (h : st.WF) (dataset : String) :
    (parseSnapshotList (answer st (.listSnapshots dataset)) dataset).length =
      (st.own dataset).length := by
  rw [parseSnapshotList_answer h]
  refine List.filterMap_length_eq_length.mpr ?_
  intro s hs
  exact parseSnapshotLine_lineOf (h.valid s (mem_own.mp hs).1) dataset

/-! ## Names that are listed -/

/-- A text with none of the characters that select several snapshots. -/
def Unmarked (s : String) : Prop := ∀ c ∈ s.toList, c ≠ ',' ∧ c ≠ '%'

instance (s : String) : Decidable (Unmarked s) :=
  List.decidableBAll _ s.toList

/-- Neither `,` nor `%` is in the names that are read out of a listing. -/
theorem unmarked_parsed (h : st.WF) {info : SnapshotInfo}
    (hinfo : info ∈ parseSnapshotList (answer st (.listSnapshots dataset)) dataset) :
    Unmarked info.name := by
  rw [parseSnapshotList_answer h] at hinfo
  obtain ⟨s, hs, hparsed⟩ := List.mem_filterMap.mp hinfo
  have hvalid := h.valid s (mem_own.mp hs).1
  unfold parseSnapshotLine at hparsed
  split at hparsed
  · next fullName x rest hfields =>
    obtain rfl := Option.some.inj hparsed
    intro c hc
    have hfield : c ∈ fullName.toList := mem_trimPrefix hc
    have hline :=
      mem_lineOf hvalid (mem_trimSpace (mem_fields (hfields ▸ List.mem_cons_self) hfield))
    constructor
    · rintro rfl
      exact absurd hline (by decide)
    · rintro rfl
      exact absurd hline (by decide)
  · cases hparsed

/-! ## Listing snapshots -/

open Concur Machine

variable (p : AgentProvider) {m m' : Machine} {tr : List (Event OsCall OsCall.Reply Machine)}

/-- A listing changes nothing, and if it succeeds then all is listed. -/
theorem runs_listSnapshots {r : Except GoError (List SnapshotInfo)}
    (h : Runs p.listSnapshots m tr r m') :
    m' = m ∧ ∀ snaps, r = .ok snaps → m.store.filesystem p.dataset ≠ none ∧
      snaps = parseSnapshotList (answer m.store (.listSnapshots p.dataset)) p.dataset := by
  obtain ⟨out, m₁, rest, hexec, hrest, rfl⟩ := runs_zfs_bind.mp h
  obtain ⟨⟨clock, hserved⟩, hthreads⟩ := hexec
  have hsame : m₁ = m := by
    rcases hserved.cases_effect with h | ⟨-, h⟩
    · exact Machine.ext h hthreads
    · exact Machine.ext h hthreads
  cases herr : out.err with
  | some err =>
      rw [herr] at hrest
      obtain ⟨rfl, rfl, rfl⟩ := Prog.ends_ret.mp hrest
      exact ⟨hsame, nofun⟩
  | none =>
      rw [herr] at hrest
      obtain ⟨rfl, rfl, rfl⟩ := Prog.ends_ret.mp hrest
      obtain ⟨hr, rfl, -⟩ := hserved.of_ok herr
      refine ⟨hsame, ?_⟩
      rintro snaps ⟨⟩
      refine ⟨fun hnone => ?_, rfl⟩
      rw [refusal, if_pos hnone] at hr
      cases hr

/-- What is there has a name of the right form. -/
theorem valid_of_filesystem {name : String} (h : m.store.filesystem name ≠ none) :
    ValidFilesystem name.toList := by
  obtain ⟨f, hf⟩ := Option.ne_none_iff_exists'.mp h
  obtain ⟨hmem, hname⟩ := mem_of_filesystem hf
  exact hname ▸ m.wf.validFilesystems f hmem

theorem plain_snapshotPath {name : String} (hdataset : ValidFilesystem p.dataset.toList)
    (hname : Unmarked name) : PlainObject (p.snapshotPath name) := by
  have hcut : cutAt (p.snapshotPath name).toList = (p.dataset.toList, name.toList) := by
    rw [← cutAt_append hdataset.not_mem]
    simp [snapshotPath]
  refine ⟨p.at_mem_snapshotPath name, ?_, ?_⟩
  · rw [hcut]
    exact fun hc => (hname ',' hc).1 rfl
  · rw [hcut]
    exact fun hc => (hname '%' hc).2 rfl

end BranchDB.AgentProvider
