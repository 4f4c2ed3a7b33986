/-
# `BranchDB.Zfs.Lossless` — whether a listing is read as what was listed

    dataset@name<tab>Sun May 31 15:04 2026

The names are put before a tab, but the line is split at every blank, and names may have blanks.
A line is read as the snapshot it was printed for exactly if the name, with the dataset, is one
word (`parseSnapshotLine_eq_created`); the year has to have four digits, too.  So nothing of a
listing is lost exactly if this holds of each line of it (`lossless_iff`).
-/
import BranchDB.Creation
import BranchDB.Zfs.Listing

namespace BranchDB.AgentProvider

open Strings Zfs

/-! ## The text of a listing -/

/-- What an hour of one digit is filled up with: `15` of Go puts a zero, `%k` of zfs a blank. -/
inductive HourPad
  | zero
  | blank
deriving DecidableEq, Repr

def HourPad.hour : HourPad → Int → String
  | .zero, n => padded 2 n
  | .blank, n => spaced n

/-- `Mon Jan _2 15:04 2006`, of a minute counted from 1970. -/
def minuteText (pad : HourPad) (minute : Int) : String :=
  let days := minute / 1440
  let clock := minute % 1440
  let (year, month, day) := civil days
  weekdays.getD ((days + 4) % 7).toNat "" ++ " " ++ months.getD (month - 1).toNat "" ++ " " ++
    spaced day ++ " " ++ pad.hour (clock / 60) ++ ":" ++ padded 2 (clock % 60) ++ " " ++
    padded 4 year

/-- It is what zfs prints of a creation. -/
theorem creationText_eq (seconds : Int) :
    creationText seconds = minuteText .blank (seconds / 60) := by
  have hdays : seconds / 60 / 1440 = seconds / 86400 := by omega
  have hhour : seconds / 60 % 1440 / 60 = seconds % 86400 / 3600 := by omega
  have hminute : seconds / 60 % 1440 % 60 = seconds % 86400 / 60 % 60 := by omega
  simp only [creationText, minuteText, HourPad.hour, hdays, hhour, hminute]

def printedLine (pad : HourPad) (dataset : String) (s : String × Nat) : String :=
  dataset ++ "@" ++ s.1 ++ "\t" ++ minuteText pad s.2

/-- `zfs list -H -o name,creation` of snapshots given by name and minute. -/
def printed (pad : HourPad) (dataset : String) (snaps : List (String × Nat)) : String :=
  String.join ((snaps.map (printedLine pad dataset)).map (· ++ "\n"))

/-- A snapshot of that name, created at that minute. -/
def created (s : String × Nat) : SnapshotInfo where
  name := s.1
  createdAt := ⟨s.2 * 60 * second, 0⟩
  databaseType := ""

/-! ## A time is five words -/

theorem isWord_weekday : ∀ i < 7, IsWord (weekdays.getD i "") := by decide

/-- The hour without what it is filled up with. -/
def HourPad.word : HourPad → Int → String
  | .zero, n => padded 2 n
  | .blank, n => padded 1 n

theorem fields_spaced (n : Int) (s : String) :
    fields (spaced n ++ s) = fields (padded 1 n ++ s) := by
  have hblank : " " = String.singleton ' ' := rfl
  unfold spaced
  split
  · rw [String.append_assoc, hblank, fields_cons (by decide)]
  · rw [String.empty_append]

theorem fields_hour (pad : HourPad) (n : Int) (s : String) :
    fields (pad.hour n ++ s) = fields (pad.word n ++ s) := by
  cases pad with
  | zero => rfl
  | blank => exact fields_spaced n s

theorem isWord_hour (pad : HourPad) (hour : Nat) : IsWord (pad.word hour) := by
  cases pad with
  | zero => exact isWord_padded 2 hour
  | blank => exact isWord_padded 1 hour

theorem isWord_clock (pad : HourPad) (hour minutes : Nat) :
    IsWord (pad.word hour ++ ":" ++ padded 2 minutes) := by
  rw [String.append_assoc]
  refine isWord_append (isWord_hour pad hour) ?_
  intro c hc
  rw [String.toList_append] at hc
  rcases List.mem_append.mp hc with hc | hc
  · rw [List.mem_singleton.mp hc]
    decide
  · exact (isWord_padded 2 minutes).2 c hc

theorem number_hour (pad : HourPad) {hour : Nat} (h : hour < 24) (s : List Char) :
    Layout.number false ((pad.word hour).toList ++ ':' :: s) = some (hour, ':' :: s) := by
  cases pad with
  | zero =>
      rw [HourPad.word, toList_padded (by decide) (by omega)]
      exact number_lastDigits (by omega) false _
  | blank => exact Layout.number_padded (by omega) (by decide) s

theorem year_nonneg {days year month day : Int} (h0 : 0 ≤ days)
    (hcivil : civil days = (year, month, day)) : 0 ≤ year := by
  have hspec := civil_spec days
  rw [hcivil] at hspec
  obtain ⟨hmonth0, hmonth1, hday0, hday1, hdays⟩ := hspec
  have hday := daysIn_le month year
  simp only [daysOf] at hdays hday1 hday0 hmonth0 hmonth1
  split at hdays <;> omega

/-- The parts of a minute, in range. -/
theorem minute_parts (minute : Nat) : ∃ weekday month day hour minutes year : Nat,
    weekday < 7 ∧ month < 12 ∧ 1 ≤ day ∧ (day : Int) ≤ daysIn (month + 1) year ∧ hour < 24 ∧
    minutes < 60 ∧
    (daysOf year (month + 1) day * 86400 + hour * 3600 + minutes * 60 : Int) = minute * 60 ∧
    (Time.mk (minute * 60 * second) 0).year = year ∧
    ∀ pad : HourPad, minuteText pad minute =
      weekdays.getD weekday "" ++ " " ++ months.getD month "" ++ " " ++ spaced day ++ " " ++
        pad.hour hour ++ ":" ++ padded 2 minutes ++ " " ++ padded 4 year := by
  have hspec := civil_spec (minute / 1440)
  have hnew : newTime (minute * 60 * second) = minute * 60 :=
    Int.mul_ediv_cancel _ (by decide)
  have hdays : (minute * 60 + 0 : Int) / 86400 = minute / 1440 := by omega
  rcases hcivil : civil ((minute : Int) / 1440) with ⟨year, month, day⟩
  rw [hcivil] at hspec
  obtain ⟨hmonth0, hmonth1, hday0, hday1, hdate⟩ := hspec
  dsimp only at hmonth0 hmonth1 hday0 hday1 hdate
  have hyear0 : 0 ≤ year := year_nonneg (by omega) hcivil
  lift year to Nat using hyear0
  lift day to Nat using by omega
  obtain ⟨k, hk⟩ : ∃ k : Nat, month = k + 1 := ⟨(month - 1).toNat, by omega⟩
  refine ⟨((minute / 1440 + 4) % 7 : Int).toNat, k, day, minute % 1440 / 60, minute % 1440 % 60,
    year, by omega, by omega, by omega, ?_, by omega, by omega, ?_, ?_, fun pad => ?_⟩
  · rw [← hk]
    exact hday1
  · rw [← hk]
    omega
  · rw [Time.year, hnew, hdays, hcivil]
  · have hmonth : (month - 1).toNat = k := by omega
    simp only [minuteText, hcivil, hmonth]
    rfl

/-- The year a minute lies in. -/
def yearOf (minute : Nat) : Int := (Time.mk (minute * 60 * second) 0).year

/-- A time is printed as five words, and read as the minute if its year has four digits. -/
theorem minuteText_read (pad : HourPad) (minute : Nat) :
    (fields (minuteText pad minute)).length = 5 ∧
    parseCreation (" ".intercalate (fields (minuteText pad minute))) =
      if yearOf minute < 10000 then ⟨minute * 60 * second, 0⟩ else .zero := by
  obtain ⟨weekday, month, day, hour, minutes, year, hweekday, hmonth, hday0, hday1, hhour, hminutes,
    hinstant, hyear, htext⟩ := minute_parts minute
  have hname : IsWord (months.getD month "") := isWord_month month hmonth
  have hpad : IsWord (pad.word hour) := isWord_hour pad hour
  obtain ⟨clock, hclock⟩ : ∃ clock, clock = pad.word hour ++ ":" ++ padded 2 minutes := ⟨_, rfl⟩
  have hfields : fields (minuteText pad minute) =
      [weekdays.getD weekday "", months.getD month "", padded 1 day, clock, padded 4 year] := by
    have hassoc : minuteText pad minute = weekdays.getD weekday "" ++ " " ++
        (months.getD month "" ++ " " ++ (spaced day ++ (" " ++ (pad.hour hour ++ (":" ++
          padded 2 minutes ++ (" " ++ padded 4 year)))))) := by
      simp only [htext, String.append_assoc]
    have hspace : " " = String.singleton ' ' := rfl
    have hrest : pad.word hour ++ (":" ++ padded 2 minutes ++ (" " ++ padded 4 year)) =
        clock ++ " " ++ padded 4 year := by
      simp only [hclock, String.append_assoc]
    rw [hassoc, fields_word (isWord_weekday weekday hweekday),
      fields_word hname, fields_spaced, ← String.append_assoc,
      fields_word (isWord_padded 1 day), fields_hour, hrest,
      fields_word (hclock ▸ isWord_clock pad hour minutes), fields_of_isWord (isWord_padded 4 year)]
  rw [hfields]
  refine ⟨rfl, ?_⟩
  have hvalue : (" ".intercalate [weekdays.getD weekday "", months.getD month "", padded 1 day,
      clock, padded 4 year]).toList = (shortDayNames.getD weekday "").toList ++ ' ' ::
        ((shortMonthNames.getD month "").toList ++ ' ' :: ((padded 1 day).toList ++ ' ' ::
          ((pad.word hour).toList ++ ':' :: ((padded 2 minutes).toList ++ ' ' ::
            ((padded 4 year).toList ++ []))))) := by
    have hcolon : ":".toList = [':'] := rfl
    have hspace : " ".toList = [' '] := rfl
    rw [hclock]
    simp only [String.intercalate_cons_cons, String.intercalate_singleton, String.toList_append,
      hcolon, hspace, List.append_assoc, List.cons_append, List.nil_append, List.append_nil]
    rfl
  rw [parseCreation_written hvalue hweekday hmonth ⟨hday0, hday1⟩ hpad (number_hour pad hhour)
    hhour hminutes, hinstant, yearOf, hyear]
  exact if_congr (by omega) rfl rfl

/-! ## What a line is read as -/

variable (pad : HourPad) (dataset : String) (s : String × Nat)

/-- The first word before the tab is taken for the name; if there are more, no time is read. -/
theorem parseSnapshotLine_printed : ∃ fullName more,
    fields (dataset ++ "@" ++ s.1) = fullName :: more ∧
    parseSnapshotLine dataset (printedLine pad dataset s) = some
      { name := trimPrefix fullName (dataset ++ "@")
        createdAt := if more = [] ∧ yearOf s.2 < 10000 then ⟨s.2 * 60 * second, 0⟩ else .zero
        databaseType := "" } := by
  have hat : '@' ∈ (dataset ++ "@" ++ s.1).toList := by simp
  obtain ⟨fullName, more, hname⟩ :=
    List.exists_cons_of_ne_nil (fields_ne_nil hat (by decide))
  obtain ⟨hlength, hread⟩ := minuteText_read pad s.2
  obtain ⟨time, htime⟩ : ∃ time, time = fields (minuteText pad s.2) := ⟨_, rfl⟩
  have htab : "\t" = String.singleton '\t' := rfl
  have hline : printedLine pad dataset s =
      dataset ++ "@" ++ s.1 ++ (String.singleton '\t' ++ minuteText pad s.2) := by
    rw [← htab]
    exact String.append_assoc
  have hfields : fields (trimSpace (printedLine pad dataset s)) = fullName :: (more ++ time) := by
    rw [fields_trimSpace, hline, fields_append (by decide), hname, ← htime]
    rfl
  rw [← htime] at hlength hread
  refine ⟨fullName, more, hname, ?_⟩
  obtain ⟨x, rest, hrest⟩ : ∃ x rest, more ++ time = x :: rest := by
    refine List.exists_cons_of_ne_nil ?_
    intro hnil
    rw [(List.append_eq_nil_iff.mp hnil).2] at hlength
    cases hlength
  rw [parseSnapshotLine, hfields, hrest]
  dsimp only
  rw [← hrest]
  refine congrArg (fun t => some (SnapshotInfo.mk _ t _)) ?_
  cases more with
  | nil =>
      rw [List.nil_append, hread]
      exact if_congr (by simp) rfl rfl
  | cons w more =>
      rw [if_neg fun h => List.cons_ne_nil w more h.1]
      refine parseCreation_words ?_
      have hwords : ∀ v ∈ w :: more ++ time, IsWord v := by
        intro v hv
        rcases List.mem_append.mp hv with hv | hv
        · exact isWord_of_mem_fields (hname ▸ List.mem_cons_of_mem fullName hv)
        · exact isWord_of_mem_fields (htime ▸ hv)
      rw [fields_intercalate hwords, List.length_append, List.length_cons, hlength]
      omega

/-- What has one word, and that is the text but for a prefix which is more than blanks, is that
word. -/
theorem isWord_of_fields {fullName : String} (hfields : fields (dataset ++ "@" ++ s.1) = [fullName])
    (htrim : trimPrefix fullName (dataset ++ "@") = s.1) (hword : IsWord fullName) :
    IsWord (dataset ++ "@" ++ s.1) := by
  have hname : ∀ c ∈ s.1.toList, isSpace c = false := fun c hc =>
    hword.2 c (mem_trimPrefix (htrim ▸ hc))
  have hchars : (dataset ++ "@" ++ s.1).toList = dataset.toList ++ '@' :: s.1.toList := by simp
  have hkept : fullName.toList =
      dataset.toList.filter (fun c => !isSpace c) ++ '@' :: s.1.toList := by
    have hsame : s.1.toList.filter (fun c => !isSpace c) = s.1.toList :=
      List.filter_eq_self.mpr fun c hc => by simp [hname c hc]
    have hwords := flatten_words (dataset ++ "@" ++ s.1).toList
    rw [hchars, List.filter_append, List.filter_cons_of_pos (by decide), hsame] at hwords
    rw [← hwords, ← hchars]
    rw [fields_eq] at hfields
    obtain ⟨word, more, hcons, rfl, hmore⟩ := List.map_eq_cons_iff.mp hfields
    rw [hcons, List.map_eq_nil_iff.mp hmore, String.toList_ofList]
    simp
  have hpresent : dataset ++ "@" ++ s.1 ≠ "" := fun hempty => by
    rw [hempty] at hchars
    simp at hchars
  refine ⟨hpresent, ?_⟩
  intro c hc
  rw [hchars] at hc
  unfold trimPrefix at htrim
  split at htrim
  · next hprefix =>
    obtain ⟨rest, hrest⟩ := List.isPrefixOf_iff_prefix.mp hprefix
    have hdataset : ∀ c ∈ (dataset ++ "@").toList, isSpace c = false := fun c hc =>
      hword.2 c (hrest ▸ List.mem_append_left rest hc)
    rcases List.mem_append.mp hc with hc | hc
    · exact hdataset c (by simp [hc])
    · rcases List.mem_cons.mp hc with rfl | hc
      · decide
      · exact hname c hc
  · rw [htrim] at hkept
    have hlength := congrArg List.length hkept
    rw [List.length_append, List.length_cons] at hlength
    omega

/-- If the name and the dataset are one word. -/
theorem parseSnapshotLine_eq_created : parseSnapshotLine dataset (printedLine pad dataset s) =
    some (created s) ↔ IsWord (dataset ++ "@" ++ s.1) ∧ yearOf s.2 < 10000 := by
  obtain ⟨fullName, more, hname, hparsed⟩ := parseSnapshotLine_printed pad dataset s
  rw [hparsed, Option.some.injEq, created, SnapshotInfo.mk.injEq]
  constructor
  · rintro ⟨htrim, htime, -⟩
    have hone : more = [] ∧ yearOf s.2 < 10000 := by
      by_contra hnot
      have hsecond : second = 1000000000 := rfl
      rw [if_neg hnot, Time.zero, Time.mk.injEq, hsecond] at htime
      omega
    obtain ⟨rfl, hyear⟩ := hone
    have hfull : IsWord fullName := isWord_of_mem_fields (hname ▸ List.mem_cons_self)
    exact ⟨isWord_of_fields dataset s hname htrim hfull, hyear⟩
  · rintro ⟨hword, hyear⟩
    rw [fields_of_isWord hword] at hname
    obtain ⟨rfl, rfl⟩ := List.cons.inj hname
    refine ⟨trimPrefix_self _ _, if_pos ⟨rfl, hyear⟩, rfl⟩

/-! ## Main result -/

theorem chars_minuteText (pad : HourPad) (minute : Int) :
    Chars timeChar (minuteText pad minute) := by
  have hnames : (∀ s ∈ weekdays, Chars timeChar s) ∧ ∀ s ∈ months, Chars timeChar s := by decide
  have hblank : Chars timeChar " " := by decide
  have hcolon : Chars timeChar ":" := by decide
  have hhour : ∀ n, Chars timeChar (pad.hour n) := fun n => by
    cases pad with
    | zero => exact chars_padded 2 n
    | blank => exact chars_spaced n
  simp only [minuteText, chars_append, and_assoc]
  exact ⟨chars_getD hnames.1 _, hblank, chars_getD hnames.2 _, hblank, chars_spaced _, hblank,
    hhour _, hcolon, chars_padded _ _, hblank, chars_padded _ _⟩

/-- A line has no break in it, and does not end in one. -/
theorem unbroken_printedLine (hdataset : '\n' ∉ dataset.toList) (hname : '\n' ∉ s.1.toList) :
    '\n' ∉ (printedLine pad dataset s).toList ∧
      (printedLine pad dataset s).toList.getLast? ≠ some '\r' := by
  have htime := chars_minuteText pad s.2
  have hbreaks : timeChar '\n' = false ∧ timeChar '\r' = false := by decide
  have hchars : (printedLine pad dataset s).toList =
      dataset.toList ++ '@' :: (s.1.toList ++ '\t' :: (minuteText pad s.2).toList) := by
    simp [printedLine]
  have hsome : (minuteText pad s.2).toList ≠ [] := by
    intro hnil
    have hfive := (minuteText_read pad s.2).1
    rw [String.toList_eq_nil_iff.mp hnil] at hfive
    cases hfive
  constructor
  · rw [hchars]
    intro hin
    rcases List.mem_append.mp hin with hin | hin
    · exact hdataset hin
    · rcases List.mem_append.mp (List.mem_of_ne_of_mem (by decide) hin) with hin | hin
      · exact hname hin
      · have hmem := htime _ (List.mem_of_ne_of_mem (by decide) hin)
        rw [hbreaks.1] at hmem
        cases hmem
  · have hend : (printedLine pad dataset s).toList =
        dataset.toList ++ '@' :: (s.1.toList ++ ['\t']) ++ (minuteText pad s.2).toList := by
      simp [hchars]
    rw [hend, List.getLast?_append_of_ne_nil _ hsome]
    intro hlast
    have hmem := htime _ (List.mem_of_getLast? hlast)
    rw [hbreaks.2] at hmem
    cases hmem

/-- The line can be read as what it was printed for. -/
def Legible : Prop :=
  IsWord (dataset ++ "@" ++ s.1) ∧ yearOf s.2 < 10000 ∧
    (printedLine pad dataset s).utf8ByteSize < maxScanTokenSize

variable {pad dataset s}

/-- Nothing is lost of a listing exactly if no dataset or name in it has a blank, no year five
digits, and no line is too long to be scanned. -/
theorem lossless_iff {snaps : List (String × Nat)} (hdataset : '\n' ∉ dataset.toList)
    (hnames : ∀ s ∈ snaps, '\n' ∉ s.1.toList) :
    parseSnapshotList (printed pad dataset snaps) dataset = snaps.map created ↔
      ∀ s ∈ snaps, Legible pad dataset s := by
  have hlines : ∀ l ∈ snaps.map (printedLine pad dataset),
      '\n' ∉ l.toList ∧ l.toList.getLast? ≠ some '\r' := by
    intro l hl
    obtain ⟨s, hs, rfl⟩ := List.mem_map.mp hl
    exact unbroken_printedLine pad dataset s hdataset (hnames s hs)
  rw [parseSnapshotList, printed, scanLines_takeWhile (fun l hl => (hlines l hl).1)
    fun l hl => (hlines l hl).2]
  clear hlines hnames
  induction snaps with
  | nil => simp
  | cons s snaps ih =>
      obtain ⟨fullName, more, -, hparsed⟩ := parseSnapshotLine_printed pad dataset s
      have hcreated := parseSnapshotLine_eq_created pad dataset s
      rw [hparsed, Option.some.injEq] at hcreated
      rw [List.map_cons, List.map_cons, List.forall_mem_cons, Legible]
      by_cases hshort : (printedLine pad dataset s).utf8ByteSize < maxScanTokenSize
      · rw [List.takeWhile_cons, if_pos (decide_eq_true hshort), List.filterMap_cons_some hparsed,
          List.cons.injEq, hcreated]
        exact and_congr (by simp only [hshort, and_true]) ih
      · rw [List.takeWhile_cons, if_neg (by simpa using hshort)]
        simp [hshort]

theorem lossless_demo : parseSnapshotList (printed .blank "tank/mysql"
    [("base-20260531-150405", 29670664), ("base", 29677234)]) "tank/mysql" =
      [("base-20260531-150405", 29670664), ("base", 29677234)].map created := by
  refine (lossless_iff (by decide) (by decide)).mpr ?_
  unfold Legible
  decide +kernel

/-- A name with a blank in it comes out as its first word, created at no time. -/
theorem name_lost : parseSnapshotList
    (printed .blank "tank/mysql" [("before upgrade", 29670664)]) "tank/mysql" =
      [⟨"before", .zero, ""⟩] ∧
    [⟨"before", .zero, ""⟩] ≠ [("before upgrade", 29670664)].map created := by
  decide +kernel

end BranchDB.AgentProvider
