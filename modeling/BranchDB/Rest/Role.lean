/-
# `BranchDB.Rest.Role` — what the name of a snapshot says

    {name}-YYYYMMDD-HHMMSS    archived, or auto if the name is `auto`
    anything else             current

`InferSnapshotRole` of the API server and the grouping of `GCSnapshots` take names apart by the
same rule, byte by byte; what TakeSnapshot calls an archive is one to both, of the snapshot it was
(`archive_names`).
-/
import BranchDB.Net.Url
import BranchDB.Timestamp
import BranchDB.Zfs.Gc

namespace BranchDB.Rest

open Net Stamped

/-! ## The two readers -/

def dash : UInt8 := 45

def isDigit (b : UInt8) : Bool := 48 ≤ b ∧ b ≤ 57

/-- A character that is a digit is one byte, and so is what stands for a byte of no character. -/
def allDigits (s : Bytes) : Bool := s.all isDigit ∧ 0 < s.length

/-- `isDigits` of the API server. -/
def isDigits (s : Bytes) : Bool := allDigits s

/-- `isAllDigits` of the provider. -/
def isAllDigits (s : Bytes) : Bool := allDigits s

inductive SnapshotRole
  | current
  | archived
  | auto
deriving DecidableEq, Repr

def inferSnapshotRole (name : Bytes) : SnapshotRole :=
  if 16 ≤ name.length then
    let suffix := name.drop (name.length - 16)
    if suffix.length = 16 ∧ suffix[0]? = some dash ∧ suffix[9]? = some dash then
      let datePart := (suffix.drop 1).take 8
      let timePart := (suffix.drop 10).take 6
      if isDigits datePart ∧ isDigits timePart then
        if name.take (name.length - 16) = utf8 "auto" then .auto else .archived
      else .current
    else .current
  else .current

/-- The key of the group that `GCSnapshots` puts a name in, if any. -/
def groupKey (name : Bytes) : Option Bytes :=
  if 16 ≤ name.length then
    let suffix := name.drop (name.length - 16)
    if suffix[0]? = some dash ∧ suffix[9]? = some dash ∧ isAllDigits ((suffix.drop 1).take 8) ∧
        isAllDigits ((suffix.drop 10).take 6) then
      some (name.take (name.length - 16))
    else none
  else none

/-- `fmt.Sprintf("%s-%s", name, t.Format("20060102-150405"))`. -/
def archiveName (name : Bytes) (t : Time) : Bytes := name ++ utf8 ("-" ++ t.stamp)

/-! ## What they look for -/

variable {name key : Bytes}

theorem allDigits_iff {s : Bytes} (h : s ≠ []) :
    allDigits s = true ↔ ∀ b ∈ s, isDigit b = true := by
  have hlength : 0 < s.length := List.length_pos_iff.mpr h
  simp only [allDigits, List.all_eq_true, hlength, and_true, decide_eq_true_eq]

/-- The last sixteen are as both readers want them. -/
theorem test_iff (hlength : 16 ≤ name.length) :
    Test dash isDigit (name.drop (name.length - 16)) ↔
      (name.drop (name.length - 16))[0]? = some dash ∧
      (name.drop (name.length - 16))[9]? = some dash ∧
      allDigits (((name.drop (name.length - 16)).drop 1).take 8) = true ∧
      allDigits (((name.drop (name.length - 16)).drop 10).take 6) = true := by
  have hne : ∀ i k, 0 < k → i + k ≤ 16 →
      ((name.drop (name.length - 16)).drop i).take k ≠ [] := by
    intro i k hk hi hnil
    have hzero := congrArg List.length hnil
    rw [List.length_take, List.length_drop, List.length_drop, List.length_nil] at hzero
    omega
  rw [Test, allDigits_iff (hne 1 8 (by decide) (by decide)),
    allDigits_iff (hne 10 6 (by decide) (by decide))]

theorem groupKey_eq_some : groupKey name = some key ↔ EndsIn dash isDigit key name := by
  rw [endsIn_iff, groupKey]
  by_cases hlength : 16 ≤ name.length
  · have htest := test_iff hlength
    rw [if_pos hlength, htest]
    dsimp only
    by_cases hend : (name.drop (name.length - 16))[0]? = some dash ∧
        (name.drop (name.length - 16))[9]? = some dash ∧
        allDigits (((name.drop (name.length - 16)).drop 1).take 8) = true ∧
        allDigits (((name.drop (name.length - 16)).drop 10).take 6) = true
    · rw [isAllDigits, isAllDigits, if_pos hend, Option.some.injEq]
      exact ⟨fun h => ⟨hlength, hend, h⟩, fun h => h.2.2⟩
    · rw [isAllDigits, isAllDigits, if_neg hend]
      exact ⟨nofun, fun h => absurd h.2.1 hend⟩
  · rw [if_neg hlength]
    exact ⟨nofun, fun h => absurd h.1 hlength⟩

/-- The role is what the group of the name says. -/
theorem inferSnapshotRole_eq (name : Bytes) : inferSnapshotRole name =
    match groupKey name with
    | some key => if key = utf8 "auto" then .auto else .archived
    | none => .current := by
  rw [inferSnapshotRole, groupKey]
  by_cases hlength : 16 ≤ name.length
  · have hsuffix : (name.drop (name.length - 16)).length = 16 := by
      rw [List.length_drop]
      omega
    rw [if_pos hlength, if_pos hlength]
    dsimp only
    by_cases hdashes : (name.drop (name.length - 16))[0]? = some dash ∧
        (name.drop (name.length - 16))[9]? = some dash
    · rw [if_pos ⟨hsuffix, hdashes⟩]
      by_cases hdigits : isDigits (((name.drop (name.length - 16)).drop 1).take 8) = true ∧
          isDigits (((name.drop (name.length - 16)).drop 10).take 6) = true
      · have hend : (name.drop (name.length - 16))[0]? = some dash ∧
            (name.drop (name.length - 16))[9]? = some dash ∧
            isAllDigits (((name.drop (name.length - 16)).drop 1).take 8) = true ∧
            isAllDigits (((name.drop (name.length - 16)).drop 10).take 6) = true :=
          ⟨hdashes.1, hdashes.2, hdigits⟩
        rw [if_pos hdigits, if_pos hend]
      · rw [if_neg hdigits, if_neg fun h => hdigits h.2.2]
    · rw [if_neg fun h => hdashes h.2, if_neg fun h => hdashes ⟨h.1, h.2.1⟩]
  · rw [if_neg hlength, if_neg hlength]

/-! ## Characters for bytes -/

theorem encode_digits {l : List Char} (h : ∀ c ∈ l, c.isDigit = true) :
    (l.flatMap String.utf8EncodeChar).length = l.length ∧
      ∀ b ∈ l.flatMap String.utf8EncodeChar, isDigit b = true := by
  have hten : ∀ k < 10, String.utf8EncodeChar (Char.ofNat (48 + k)) = [UInt8.ofNat (48 + k)] ∧
      isDigit (UInt8.ofNat (48 + k)) = true := by decide
  have hone : ∀ c : Char, c.isDigit = true →
      ∃ b, String.utf8EncodeChar c = [b] ∧ isDigit b = true := by
    intro c hc
    obtain ⟨hlow, hhigh⟩ : 48 ≤ c.toNat ∧ c.toNat ≤ 57 := Char.isDigit_iff_toNat.mp hc
    have hbyte := hten (c.toNat - 48) (by omega)
    rw [Nat.add_sub_cancel' hlow, Char.ofNat_toNat] at hbyte
    exact ⟨_, hbyte⟩
  induction l with
  | nil => exact ⟨rfl, nofun⟩
  | cons c l ih =>
      obtain ⟨b, hb, hdigit⟩ := hone c (h c List.mem_cons_self)
      obtain ⟨hlength, hdigits⟩ := ih fun d hd => h d (List.mem_cons_of_mem c hd)
      rw [List.flatMap_cons, hb]
      refine ⟨congrArg Nat.succ hlength, ?_⟩
      intro d hd
      rcases List.mem_cons.mp hd with rfl | hd
      · exact hdigit
      · exact hdigits d hd

theorem endsIn_utf8 {key name : String} (h : AgentProvider.StampedOf key name) :
    EndsIn dash isDigit (utf8 key) (utf8 name) := by
  obtain ⟨date, time, hdate, htime, hdigits, hname⟩ := h
  obtain ⟨hdateBytes, hdateDigits⟩ :=
    encode_digits fun c hc => hdigits c (List.mem_append_left time hc)
  obtain ⟨htimeBytes, htimeDigits⟩ :=
    encode_digits fun c hc => hdigits c (List.mem_append_right date hc)
  have hdash : String.utf8EncodeChar '-' = [dash] := by decide
  refine ⟨date.flatMap String.utf8EncodeChar, time.flatMap String.utf8EncodeChar,
    hdateBytes.trans hdate, htimeBytes.trans htime, fun b hb => ?_, ?_⟩
  · exact (List.mem_append.mp hb).elim (hdateDigits b) (htimeDigits b)
  · rw [utf8_eq_flatMap, utf8_eq_flatMap, hname, List.flatMap_append, List.flatMap_cons,
      List.flatMap_append, List.flatMap_cons, hdash]
    rfl

theorem exists_of_endsIn_utf8 {name : String} (h : EndsIn dash isDigit key (utf8 name)) :
    ∃ k : String, key = utf8 k ∧ AgentProvider.StampedOf k name := by
  obtain ⟨date, time, hdate, htime, hdigits, hname⟩ := h
  have hdigit : ∀ {b : UInt8}, isDigit b = true → 48 ≤ b.toNat ∧ b.toNat ≤ 57 := by
    intro b hb
    obtain ⟨hlow, hhigh⟩ := of_decide_eq_true hb
    exact ⟨UInt8.le_iff_toNat_le.mp hlow, UInt8.le_iff_toNat_le.mp hhigh⟩
  have hsmall : ∀ b ∈ dash :: (date ++ dash :: time), b.toNat < 128 := by
    intro b hb
    rcases List.mem_cons.mp hb with rfl | hb
    · decide
    · rcases List.mem_append.mp hb with hb | hb
      · have := hdigit (hdigits b (List.mem_append_left time hb))
        omega
      · rcases List.mem_cons.mp hb with rfl | hb
        · decide
        · have := hdigit (hdigits b (List.mem_append_right date hb))
          omega
  rw [utf8_eq_flatMap] at hname
  obtain ⟨k, suffix, hsplit, hkey, -, hmap⟩ := encode_append hname hsmall
  have hchar : ∀ {c : Char}, c.toNat = dash.toNat → c = '-' := fun hc => Char.toNat_inj.mp hc
  have hchars : ∀ {l : List Char} {s : Bytes}, l.map Char.toNat = s.map UInt8.toNat →
      (∀ b ∈ s, isDigit b = true) → l.length = s.length ∧ ∀ c ∈ l, c.isDigit = true := by
    intro l s hl hs
    refine ⟨by simpa using congrArg List.length hl, fun c hc => Char.isDigit_iff_toNat.mpr ?_⟩
    obtain ⟨b, hb, hbc⟩ := List.mem_map.mp (hl ▸ List.mem_map_of_mem hc)
    exact hbc ▸ hdigit (hs b hb)
  rw [List.map_cons, List.map_append, List.map_cons] at hmap
  obtain ⟨c, rest, rfl, hc, hrest⟩ := List.map_eq_cons_iff.mp hmap
  obtain ⟨first, second, rfl, hfirst, hsecond⟩ := List.map_eq_append_iff.mp hrest
  obtain ⟨d, last, rfl, hd, hlast⟩ := List.map_eq_cons_iff.mp hsecond
  obtain ⟨hfirstLength, hfirstDigits⟩ :=
    hchars hfirst fun b hb => hdigits b (List.mem_append_left time hb)
  obtain ⟨hlastLength, hlastDigits⟩ :=
    hchars hlast fun b hb => hdigits b (List.mem_append_right date hb)
  refine ⟨String.ofList k, ?_, first, last, hfirstLength.trans hdate, hlastLength.trans htime,
    fun c hc => ?_, ?_⟩
  · rw [utf8_eq_flatMap, String.toList_ofList, hkey]
  · exact (List.mem_append.mp hc).elim (hfirstDigits c) (hlastDigits c)
  · rw [hsplit, String.toList_ofList, hchar hc, hchar hd]

/-- What `GCSnapshots` makes of the bytes of a name is what it makes of its characters. -/
theorem groupKey_utf8 (name : String) :
    groupKey (utf8 name) = (AgentProvider.archivePrefix name).map utf8 := by
  cases hkey : AgentProvider.archivePrefix name with
  | some key =>
      exact groupKey_eq_some.mpr (endsIn_utf8 (AgentProvider.archivePrefix_eq_some.mp hkey))
  | none =>
      cases hbytes : groupKey (utf8 name) with
      | none => rfl
      | some b =>
          obtain ⟨k, -, hk⟩ := exists_of_endsIn_utf8 (groupKey_eq_some.mp hbytes)
          rw [AgentProvider.archivePrefix_eq_some.mpr hk] at hkey
          cases hkey

/-! ## Main result -/

theorem lastDigits_spec (k n : Nat) :
    (lastDigits k n).length = k ∧ ∀ c ∈ lastDigits k n, c.isDigit = true := by
  have hten : ∀ d < 10, (Nat.digitChar d).isDigit = true := by decide
  induction k generalizing n with
  | zero => exact ⟨rfl, nofun⟩
  | succ k ih =>
      obtain ⟨hlength, hdigits⟩ := ih (n / 10)
      refine ⟨by rw [lastDigits, List.length_append, hlength]; rfl, ?_⟩
      intro c hc
      rcases List.mem_append.mp hc with hc | hc
      · exact hdigits c hc
      · rw [List.mem_singleton.mp hc]
        exact hten _ (Nat.mod_lt n (by decide))

/-- A stamp, if the year has four digits. -/
theorem stampedOf_stamp {t : Time} (hyear : 0 ≤ t.year ∧ t.year < 10000) :
    AgentProvider.StampedOf "" ("-" ++ t.stamp) := by
  obtain ⟨wall, hwall⟩ : ∃ wall, wall = newTime t.nanos + t.offset := ⟨_, rfl⟩
  have hspec := civil_spec (wall / 86400)
  rw [Time.year, ← hwall] at hyear
  rcases hcivil : civil (wall / 86400) with ⟨year, month, day⟩
  rw [hcivil] at hspec hyear
  obtain ⟨hmonth0, hmonth1, hday0, hday1, -⟩ := hspec
  dsimp only at hyear hmonth0 hmonth1 hday0 hday1
  have hday := daysIn_le month year
  lift year to Nat using hyear.1
  lift month to Nat using by omega
  lift day to Nat using by omega
  obtain ⟨clock, hclock⟩ :=
    Int.eq_ofNat_of_zero_le (Int.emod_nonneg wall (show (86400 : Int) ≠ 0 by decide))
  have hlt : clock < 86400 := by omega
  have hstamp : t.stamp = padded 4 year ++ padded 2 month ++ padded 2 day ++ "-" ++
      padded 2 (clock / 3600 : Nat) ++ padded 2 (clock / 60 % 60 : Nat) ++
        padded 2 (clock % 60 : Nat) := by
    rw [Time.stamp, ← hwall]
    simp only [hcivil, hclock]
    rfl
  refine ⟨lastDigits 4 year ++ lastDigits 2 month ++ lastDigits 2 day,
    lastDigits 2 (clock / 3600) ++ lastDigits 2 (clock / 60 % 60) ++ lastDigits 2 (clock % 60),
    ?_, ?_, fun c hc => ?_, ?_⟩
  · simp only [List.length_append, (lastDigits_spec _ _).1]
  · simp only [List.length_append, (lastDigits_spec _ _).1]
  · simp only [List.mem_append] at hc
    rcases hc with ((hc | hc) | hc) | ((hc | hc) | hc) <;> exact (lastDigits_spec _ _).2 c hc
  · rw [hstamp]
    simp only [String.toList_append]
    rw [toList_padded (by decide) (by omega), toList_padded (by decide) (by omega),
      toList_padded (by decide) (by omega), toList_padded (by decide) (by omega),
      toList_padded (by decide) (by omega), toList_padded (by decide) (by omega)]
    simp only [List.append_assoc]
    rfl

/-- What TakeSnapshot archives. -/
theorem endsIn_archiveName {t : Time} (name : Bytes) (hyear : 0 ≤ t.year ∧ t.year < 10000) :
    EndsIn dash isDigit name (archiveName name t) := by
  have h := EndsIn.prepend name (endsIn_utf8 (stampedOf_stamp hyear))
  rw [show utf8 "" = [] from rfl, List.append_nil] at h
  exact h

/-- The two readers agree on every name, and both find the name in what is made of it by an
overwrite; only what was called `auto` is taken for an automatic snapshot then. -/
theorem archive_names :
    (∀ name, (groupKey name).isSome = true ↔ inferSnapshotRole name ≠ .current) ∧
    ∀ name t, name ≠ [] → 0 ≤ t.year ∧ t.year < 10000 →
      groupKey (archiveName name t) = some name ∧
      inferSnapshotRole (archiveName name t) =
        if name = utf8 "auto" then .auto else .archived := by
  constructor
  · intro name
    rw [inferSnapshotRole_eq]
    cases groupKey name with
    | none => simp
    | some key =>
        dsimp only
        split <;> simp
  · intro name t _ hyear
    have hgroup := groupKey_eq_some.mpr (endsIn_archiveName name hyear)
    rw [inferSnapshotRole_eq, hgroup]
    exact ⟨rfl, rfl⟩

/-- A snapshot taken in May 2026. -/
def demoTime : Time := ⟨1780239845 * second, 0⟩

theorem archive_names_demo : groupKey (archiveName (utf8 "base") demoTime) = some (utf8 "base") ∧
    inferSnapshotRole (archiveName (utf8 "base") demoTime) =
      if utf8 "base" = utf8 "auto" then .auto else .archived :=
  archive_names.2 (utf8 "base") demoTime (by decide) (by decide +kernel)

theorem auto_not_archived : utf8 "auto" ≠ [] ∧ (0 ≤ demoTime.year ∧ demoTime.year < 10000) ∧
    inferSnapshotRole (archiveName (utf8 "auto") demoTime) ≠ .archived := by
  decide +kernel

end BranchDB.Rest
