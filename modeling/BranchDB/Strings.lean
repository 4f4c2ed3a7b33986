/-
# `BranchDB.Strings` — the text functions of Go

What the provider that drives the ZFS commands reads out of their output: `strings.Contains`,
`TrimSpace`, `Fields`, `TrimPrefix`, `strconv.Atoi`, and the lines of a `bufio.Scanner`; and
`Split` and `SplitN`, at one character.

A phrase occurs in a text put together around a separator exactly when it occurs in one of
the parts, if the separator is not in the phrase (`contains_separated`); trimming does not
lose a phrase that neither begins nor ends with a blank (`contains_trimSpace`); the words of a
text that was joined of words are those (`fields_intercalate`).
-/
import Mathlib.Algebra.Group.Int.Defs
import Mathlib.Algebra.Group.Nat.Defs
import Mathlib.Data.List.DropRight
import Mathlib.Data.List.Infix

namespace Strings

/-- `strings.Contains`. -/
def contains (s sub : String) : Bool := decide (sub.toList <:+: s.toList)

/-- `unicode.IsSpace`. -/
def isSpace (c : Char) : Bool :=
  c ∈ ['\t', '\n', '\x0b', '\x0c', '\r', ' ', '\u0085', '\u00a0', '\u1680', '\u2028', '\u2029',
    '\u202f', '\u205f', '\u3000'] ∨ ('\u2000' ≤ c ∧ c ≤ '\u200a')

/-- `strings.TrimSpace`. -/
def trimSpace (s : String) : String :=
  String.ofList ((s.toList.dropWhile isSpace).rdropWhile isSpace)

/-- `strings.Fields`. -/
def fields (s : String) : List String :=
  ((s.toList.splitOnP isSpace).filter (· ≠ [])).map String.ofList

/-- `strings.Split`, at one character. -/
def split (c : Char) (s : String) : List String := (s.toList.splitOn c).map String.ofList

/-- `strings.SplitN(s, c, 2)`, at one character. -/
def splitTwo (c : Char) (s : String) : List String :=
  match s.toList.dropWhile (· ≠ c) with
  | [] => [s]
  | _ :: rest => [String.ofList (s.toList.takeWhile (· ≠ c)), String.ofList rest]

/-- `strings.TrimPrefix`. -/
def trimPrefix (s pre : String) : String :=
  if pre.toList.isPrefixOf s.toList then String.ofList (s.toList.drop pre.toList.length) else s

/-- `bufio.MaxScanTokenSize`. -/
def maxScanTokenSize : Nat := 64 * 1024

/-- One line, without the carriage return it may end in. -/
def line (l : List Char) : String :=
  String.ofList (if l.getLast? = some '\r' then l.dropLast else l)

/-- The lines a `bufio.Scanner` gives of a text; it stops before one too long. -/
def scanLines (s : String) : List String :=
  let pieces := s.toList.splitOn '\n'
  let pieces := if pieces.getLast? = some [] then pieces.dropLast else pieces
  (pieces.takeWhile fun l => (String.ofList l).utf8ByteSize < maxScanTokenSize).map line

/-- The value of decimal digits. -/
def digits : List Char → Option Nat
  | [] => none
  | cs => cs.foldl (fun n c => do if c.isDigit then return (← n) * 10 + (c.toNat - '0'.toNat)
                                  else none) (some 0)

/-- `strconv.Atoi`: a sign may precede the digits, and the value has to fit an `int`. -/
def atoi (s : String) : Option Int := do
  let n : Int ← match s.toList with
    | '-' :: cs => (digits cs).map fun n => -(n : Int)
    | '+' :: cs => (digits cs).map Int.ofNat
    | cs => (digits cs).map Int.ofNat
  if -2 ^ 63 ≤ n ∧ n < 2 ^ 63 then some n else none

/-! ## Numbers -/

theorem digits_eq {cs : List Char} (hne : cs ≠ []) (h : ∀ c ∈ cs, c.isDigit = true) :
    digits cs = some (Nat.ofDigitChars 10 cs 0) := by
  suffices hfold : ∀ cs : List Char, (∀ c ∈ cs, c.isDigit = true) → ∀ n : Nat,
      cs.foldl (fun (n : Option Nat) c => do
        if c.isDigit then return (← n) * 10 + (c.toNat - '0'.toNat) else none) (some n) =
        some (Nat.ofDigitChars 10 cs n) by
    cases cs with
    | nil => exact absurd rfl hne
    | cons c cs => exact hfold _ h 0
  intro cs
  induction cs with
  | nil => exact fun _ n => rfl
  | cons c cs ih =>
      intro h n
      have hc : c.isDigit = true := h c List.mem_cons_self
      have hrest := ih (fun d hd => h d (List.mem_cons_of_mem _ hd))
        (n * 10 + (c.toNat - '0'.toNat))
      rw [List.foldl_cons, if_pos hc, Nat.ofDigitChars_cons, Nat.mul_comm 10 n]
      exact hrest

theorem isSpace_of_isDigit {c : Char} (h : c.isDigit = true) : isSpace c = false := by
  have hdigits : ∀ k < 10, isSpace (Char.ofNat (48 + k)) = false := by decide
  obtain ⟨hlow, hhigh⟩ : 48 ≤ c.toNat ∧ c.toNat ≤ 57 := Char.isDigit_iff_toNat.mp h
  have hc := hdigits (c.toNat - 48) (by omega)
  rwa [Nat.add_sub_cancel' hlow, Char.ofNat_toNat] at hc

theorem trimSpace_line {s : String} (h : ∀ c ∈ s.toList, isSpace c = false) :
    trimSpace (s ++ "\n") = s := by
  have hdrop : (s ++ "\n").toList.dropWhile isSpace =
      if s.toList = [] then [] else s.toList ++ ['\n'] := by
    rw [String.toList_append, show "\n".toList = ['\n'] from rfl]
    cases hs : s.toList with
    | nil => rfl
    | cons c cs =>
        have hc : isSpace c = false := h c (hs ▸ List.mem_cons_self)
        rw [List.cons_append, List.dropWhile_cons_of_neg (by simp [hc]), if_neg nofun]
  rw [trimSpace, hdrop]
  split
  · next hnil => rw [← String.toList_inj, hnil]; rfl
  · next hne =>
    rw [List.rdropWhile_concat_pos _ _ _ (by decide), List.rdropWhile_eq_self_iff.mpr ?_,
      String.ofList_toList]
    intro hl
    rw [h _ (List.getLast_mem hl)]
    nofun

/-- What was printed is read back. -/
theorem atoi_toString {n : Nat} (h : n < 2 ^ 63) :
    atoi (trimSpace (toString n ++ "\n")) = some (n : Int) := by
  have hchars : (toString n).toList = Nat.toDigits 10 n := Nat.toList_repr
  have hdigit : ∀ c ∈ (toString n).toList, c.isDigit = true := fun c hc =>
    Nat.isDigit_of_mem_toDigits (by decide) (by decide) (hchars ▸ hc)
  have hdigits : digits (toString n).toList = some n := by
    rw [digits_eq (hchars ▸ Nat.toDigits_ne_nil) hdigit, hchars, Nat.ofDigitChars_ten_toDigits]
  rw [trimSpace_line fun c hc => isSpace_of_isDigit (hdigit c hc)]
  unfold atoi
  split
  · next cs hcs =>
    have hminus := hdigit '-' (hcs ▸ List.mem_cons_self)
    exact absurd hminus (by decide)
  · next cs hcs =>
    have hplus := hdigit '+' (hcs ▸ List.mem_cons_self)
    exact absurd hplus (by decide)
  · rw [hdigits]
    have hrange : -2 ^ 63 ≤ (n : Int) ∧ (n : Int) < 2 ^ 63 := by omega
    rw [Option.map_some, Option.bind_eq_bind, Option.bind_some]
    exact if_pos hrange

/-! ## Nothing is added -/

theorem mem_of_mem_splitOnP {α : Type} {q : α → Bool} {l piece : List α} {c : α}
    (h : piece ∈ l.splitOnP q) (hc : c ∈ piece) : c ∈ l := by
  induction l generalizing piece with
  | nil =>
      rw [List.splitOnP_nil, List.mem_singleton] at h
      exact h ▸ hc
  | cons x xs ih =>
      rw [List.splitOnP_cons_eq_if_modifyHead] at h
      split at h
      · rcases List.mem_cons.mp h with rfl | h
        · cases hc
        · exact List.mem_cons_of_mem x (ih h hc)
      · cases hxs : xs.splitOnP q with
        | nil =>
            rw [hxs] at h
            cases h
        | cons first rest =>
            rw [hxs] at h ih
            rcases List.mem_cons.mp h with rfl | h
            · rcases List.mem_cons.mp hc with rfl | hc
              · exact List.mem_cons_self
              · exact List.mem_cons_of_mem x (ih List.mem_cons_self hc)
            · exact List.mem_cons_of_mem x (ih (List.mem_cons_of_mem first h) hc)

theorem mem_trimSpace {s : String} {c : Char} (hc : c ∈ (trimSpace s).toList) : c ∈ s.toList := by
  rw [trimSpace, String.toList_ofList] at hc
  exact (List.dropWhile_sublist _).subset ((List.rdropWhile_prefix _ _).sublist.subset hc)

theorem mem_fields {s f : String} {c : Char} (hf : f ∈ fields s) (hc : c ∈ f.toList) :
    c ∈ s.toList := by
  obtain ⟨piece, hpiece, rfl⟩ := List.mem_map.mp hf
  rw [String.toList_ofList] at hc
  exact mem_of_mem_splitOnP (List.mem_filter.mp hpiece).1 hc

theorem mem_trimPrefix {s pre : String} {c : Char} (hc : c ∈ (trimPrefix s pre).toList) :
    c ∈ s.toList := by
  unfold trimPrefix at hc
  split at hc
  · rw [String.toList_ofList] at hc
    exact List.mem_of_mem_drop hc
  · exact hc

/-! ## Lines -/

theorem utf8ByteSize_le (s : String) : s.utf8ByteSize ≤ 4 * s.toList.length := by
  suffices h : ∀ l : List Char, (String.ofList l).utf8ByteSize ≤ 4 * l.length by
    simpa using h s.toList
  intro l
  induction l with
  | nil => exact Nat.le_refl 0
  | cons c l ih =>
      have hc : c.utf8Size ≤ 4 := c.utf8Size_le_four
      have hcons : String.ofList (c :: l) = String.singleton c ++ String.ofList l := by
        rw [← String.toList_inj]
        simp
      rw [hcons, String.utf8ByteSize_append, String.utf8ByteSize_singleton, List.length_cons]
      omega

/-- A text without line breaks that is not too long, and does not end in a carriage return. -/
def IsLine (s : String) : Prop :=
  '\n' ∉ s.toList ∧ s.toList.getLast? ≠ some '\r' ∧ s.utf8ByteSize < maxScanTokenSize

theorem splitOn_join {lines : List String} (h : ∀ l ∈ lines, '\n' ∉ l.toList) :
    (String.join (lines.map (· ++ "\n"))).toList.splitOn '\n' =
      lines.map String.toList ++ [[]] := by
  induction lines with
  | nil => rfl
  | cons l lines ih =>
      have hline : (String.join ((l :: lines).map (· ++ "\n"))).toList =
          l.toList ++ '\n' :: (String.join (lines.map (· ++ "\n"))).toList := by
        simp
      rw [hline, List.splitOn_append_cons_self_of_not_mem (h l List.mem_cons_self),
        ih fun l' hl' => h l' (List.mem_cons_of_mem l hl')]
      rfl

/-- What was printed line by line is scanned line by line, up to a line that is too long. -/
theorem scanLines_takeWhile {lines : List String} (hbreak : ∀ l ∈ lines, '\n' ∉ l.toList)
    (hreturn : ∀ l ∈ lines, l.toList.getLast? ≠ some '\r') :
    scanLines (String.join (lines.map (· ++ "\n"))) =
      lines.takeWhile fun l => l.utf8ByteSize < maxScanTokenSize := by
  have hpieces := splitOn_join hbreak
  have hline : ∀ s ∈ lines, line s.toList = s := by
    intro s hs
    rw [line, if_neg (hreturn s hs), String.ofList_toList]
  unfold scanLines
  dsimp only
  rw [hpieces, if_pos (by simp), List.dropLast_concat, List.takeWhile_map, List.map_map]
  simp only [Function.comp_def, String.ofList_toList]
  refine (List.map_congr_left fun s hs => hline s ?_).trans (List.map_id _)
  exact (List.takeWhile_prefix _).subset hs

theorem scanLines_join {lines : List String} (h : ∀ l ∈ lines, IsLine l) :
    scanLines (String.join (lines.map (· ++ "\n"))) = lines := by
  rw [scanLines_takeWhile (fun l hl => (h l hl).1) fun l hl => (h l hl).2.1]
  exact List.takeWhile_eq_self_iff.mpr fun l hl => decide_eq_true (h l hl).2.2

/-! ## Words -/

/-- `fields`, as lists of characters. -/
def words (l : List Char) : List (List Char) := (l.splitOnP isSpace).filter (· ≠ [])

theorem fields_eq (s : String) : fields s = (words s.toList).map String.ofList := rfl

theorem words_append {c : Char} (hc : isSpace c = true) (a b : List Char) :
    words (a ++ c :: b) = words a ++ words b := by
  rw [words, List.splitOnP_append_cons a b hc, List.filter_append]
  rfl

theorem words_cons {c : Char} (hc : isSpace c = true) (l : List Char) :
    words (c :: l) = words l := words_append hc [] l

theorem words_concat {c : Char} (hc : isSpace c = true) (l : List Char) :
    words (l ++ [c]) = words l := by
  rw [words_append hc]
  exact List.append_nil _

theorem words_dropWhile {q : Char → Bool} (hq : ∀ c, q c = true → isSpace c = true)
    (l : List Char) : words (l.dropWhile q) = words l := by
  induction l with
  | nil => rfl
  | cons c l ih =>
      by_cases hc : q c = true
      · rw [List.dropWhile_cons_of_pos hc, ih, words_cons (hq c hc)]
      · rw [List.dropWhile_cons_of_neg hc]

theorem words_rdropWhile (l : List Char) : words (l.rdropWhile isSpace) = words l := by
  induction l using List.reverseRecOn with
  | nil => rfl
  | append_singleton l c ih =>
      by_cases hc : isSpace c = true
      · rw [List.rdropWhile_concat_pos _ _ _ hc, ih, words_concat hc]
      · rw [List.rdropWhile_concat_neg _ _ _ hc]

/-- Blanks around a text do not change its fields. -/
theorem fields_trimSpace (s : String) : fields (trimSpace s) = fields s := by
  rw [fields_eq, fields_eq, trimSpace, String.toList_ofList, words_rdropWhile,
    words_dropWhile fun _ h => h]

theorem fields_append {c : Char} (hc : isSpace c = true) (a b : String) :
    fields (a ++ (String.singleton c ++ b)) = fields a ++ fields b := by
  rw [fields_eq, fields_eq, fields_eq, ← List.map_append, ← words_append hc]
  simp

theorem exists_mem_splitOnP {α : Type} {q : α → Bool} {l : List α} {c : α} (hmem : c ∈ l)
    (hc : q c = false) : ∃ piece ∈ l.splitOnP q, c ∈ piece := by
  induction l with
  | nil => cases hmem
  | cons x xs ih =>
      have hne : xs.splitOnP q ≠ [] := List.splitOnP_ne_nil q xs
      obtain ⟨first, rest, hxs⟩ := List.exists_cons_of_ne_nil hne
      rw [List.splitOnP_cons_eq_if_modifyHead, hxs]
      rw [hxs] at ih
      by_cases hx : q x = true
      · rw [if_pos hx]
        rcases List.mem_cons.mp hmem with rfl | hmem
        · rw [hc] at hx
          cases hx
        · obtain ⟨piece, hpiece, hin⟩ := ih hmem
          exact ⟨piece, List.mem_cons_of_mem _ hpiece, hin⟩
      · rw [if_neg hx, List.modifyHead_cons]
        rcases List.mem_cons.mp hmem with rfl | hmem
        · exact ⟨c :: first, List.mem_cons_self, List.mem_cons_self⟩
        · obtain ⟨piece, hpiece, hin⟩ := ih hmem
          rcases List.mem_cons.mp hpiece with rfl | hpiece
          · exact ⟨x :: piece, List.mem_cons_self, List.mem_cons_of_mem x hin⟩
          · exact ⟨piece, List.mem_cons_of_mem _ hpiece, hin⟩

/-- A text with something other than blanks in it has a field. -/
theorem fields_ne_nil {c : Char} {s : String} (hmem : c ∈ s.toList) (hc : isSpace c = false) :
    fields s ≠ [] := by
  obtain ⟨piece, hpiece, hin⟩ := exists_mem_splitOnP hmem hc
  have hword : piece ∈ words s.toList :=
    List.mem_filter.mpr ⟨hpiece, decide_eq_true (List.ne_nil_of_mem hin)⟩
  rw [fields_eq, Ne, List.map_eq_nil_iff]
  exact List.ne_nil_of_mem hword

/-- A word has no blank in it. -/
def IsWord (s : String) : Prop := s ≠ "" ∧ ∀ c ∈ s.toList, isSpace c = false

instance (s : String) : Decidable (IsWord s) :=
  have : Decidable (∀ c ∈ s.toList, isSpace c = false) := List.decidableBAll _ s.toList
  inferInstanceAs (Decidable (_ ∧ _))

theorem words_of_forall {l : List Char} (h : ∀ c ∈ l, isSpace c = false) :
    words l = [l].filter (· ≠ []) := by
  rw [words, List.splitOnP_eq_singleton h]

theorem fields_of_isWord {s : String} (h : IsWord s) : fields s = [s] := by
  have hne : s.toList ≠ [] := fun hnil => h.1 (String.toList_eq_nil_iff.mp hnil)
  have hkeep : [s.toList].filter (· ≠ []) = [s.toList] :=
    List.filter_cons_of_pos (decide_eq_true hne)
  rw [fields_eq, words_of_forall h.2, hkeep]
  exact congrArg (fun t => [t]) String.ofList_toList

theorem not_mem_splitOnP {α : Type} {q : α → Bool} {l piece : List α} {c : α}
    (h : piece ∈ l.splitOnP q) (hc : c ∈ piece) : q c = false := by
  induction l generalizing piece with
  | nil =>
      rw [List.splitOnP_nil, List.mem_singleton] at h
      rw [h] at hc
      cases hc
  | cons x xs ih =>
      rw [List.splitOnP_cons_eq_if_modifyHead] at h
      split at h
      · rcases List.mem_cons.mp h with rfl | h
        · cases hc
        · exact ih h hc
      · next hx =>
        obtain ⟨first, rest, hxs⟩ := List.exists_cons_of_ne_nil (List.splitOnP_ne_nil q xs)
        rw [hxs] at h ih
        rcases List.mem_cons.mp h with rfl | h
        · rcases List.mem_cons.mp hc with rfl | hc
          · exact Bool.not_eq_true _ ▸ hx
          · exact ih List.mem_cons_self hc
        · exact ih (List.mem_cons_of_mem first h) hc

theorem isWord_of_mem_fields {s f : String} (h : f ∈ fields s) : IsWord f := by
  rw [fields_eq] at h
  obtain ⟨word, hword, rfl⟩ := List.mem_map.mp h
  obtain ⟨hpiece, hne⟩ := List.mem_filter.mp hword
  refine ⟨fun hempty => of_decide_eq_true hne ?_, fun c hc => ?_⟩
  · rw [← String.toList_ofList (l := word), hempty]
    rfl
  · rw [String.toList_ofList] at hc
    exact not_mem_splitOnP hpiece hc

/-- Words that are joined by blanks are told apart again. -/
theorem fields_intercalate {ws : List String} (h : ∀ w ∈ ws, IsWord w) :
    fields (" ".intercalate ws) = ws := by
  induction ws with
  | nil => rfl
  | cons w ws ih =>
      have hw := fields_of_isWord (h w List.mem_cons_self)
      have hws := ih fun v hv => h v (List.mem_cons_of_mem w hv)
      cases ws with
      | nil => rw [String.intercalate_singleton, hw]
      | cons v ws =>
          have hblank : " " = String.singleton ' ' := rfl
          rw [String.intercalate_cons_cons, String.append_assoc]
          nth_rewrite 1 [hblank]
          rw [fields_append (by decide), hw, hws]
          rfl

/-- What has no blank in it is no more than one word, also together with what follows. -/
theorem length_words_append {a b : List Char} (h : ∀ c ∈ a, isSpace c = false) :
    (words (a ++ b)).length ≤ (words b).length + 1 := by
  obtain ⟨first, rest, hb, hfirst, hrest⟩ : ∃ first rest, b = first ++ rest ∧
      (∀ c ∈ first, isSpace c = false) ∧ ∀ c ∈ rest.head?, isSpace c = true := by
    refine ⟨b.takeWhile (fun c => !isSpace c), b.dropWhile (fun c => !isSpace c),
      List.takeWhile_append_dropWhile.symm, fun c hc => ?_, fun c hc => ?_⟩
    · simpa using List.mem_takeWhile_imp hc
    · have hnot := List.head?_dropWhile_not (fun c => !isSpace c) b
      rw [Option.mem_def.mp hc] at hnot
      simpa using hnot
  have hone : ∀ l : List Char, (∀ c ∈ l, isSpace c = false) → (words l).length ≤ 1 := fun l hl => by
    rw [words_of_forall hl]
    exact List.length_filter_le _ _
  have hjoined : ∀ c ∈ a ++ first, isSpace c = false := fun c hc =>
    (List.mem_append.mp hc).elim (h c) (hfirst c)
  rw [hb, ← List.append_assoc]
  cases rest with
  | nil =>
      rw [List.append_nil]
      exact Nat.le_add_left_of_le (hone _ hjoined)
  | cons c rest =>
      have hc : isSpace c = true := hrest c rfl
      rw [words_append hc, words_append hc, List.length_append, List.length_append]
      have := hone _ hjoined
      omega

theorem fields_cons {c : Char} (hc : isSpace c = true) (s : String) :
    fields (String.singleton c ++ s) = fields s := by
  have h := fields_append hc "" s
  rw [String.empty_append] at h
  exact h

/-- A word, a blank, and more. -/
theorem fields_word {w : String} (h : IsWord w) (s : String) :
    fields (w ++ " " ++ s) = w :: fields s := by
  have hblank : " " = String.singleton ' ' := rfl
  rw [String.append_assoc, hblank, fields_append (by decide), fields_of_isWord h]
  rfl

theorem isWord_append {a b : String} (ha : IsWord a) (hb : ∀ c ∈ b.toList, isSpace c = false) :
    IsWord (a ++ b) := by
  refine ⟨fun h => ha.1 (String.append_eq_empty_iff.mp h).1, ?_⟩
  intro c hc
  rw [String.toList_append] at hc
  exact (List.mem_append.mp hc).elim (ha.2 c) (hb c)

theorem flatten_splitOnP {α : Type} (q : α → Bool) (l : List α) :
    (l.splitOnP q).flatten = l.filter fun c => !q c := by
  induction l with
  | nil => rfl
  | cons c l ih =>
      obtain ⟨first, rest, hl⟩ := List.exists_cons_of_ne_nil (List.splitOnP_ne_nil q l)
      rw [List.splitOnP_cons_eq_if_modifyHead, hl]
      rw [hl, List.flatten_cons] at ih
      by_cases hc : q c = true
      · rw [if_pos hc, List.filter_cons_of_neg (by simp [hc]), ← ih]
        rfl
      · rw [if_neg hc, List.filter_cons_of_pos (by simp [hc]), ← ih]
        rfl

/-- The words of a text are what is left of it without the blanks. -/
theorem flatten_words (l : List Char) : (words l).flatten = l.filter fun c => !isSpace c := by
  rw [words, List.flatten_filter_ne_nil, flatten_splitOnP]

theorem trimPrefix_self (a b : String) : trimPrefix (a ++ b) a = b := by
  have hprefix : a.toList.isPrefixOf (a ++ b).toList = true := by
    rw [String.toList_append]
    exact List.isPrefixOf_iff_prefix.mpr (List.prefix_append _ _)
  rw [trimPrefix, if_pos hprefix, String.toList_append, List.drop_left, String.ofList_toList]

/-! ## Trimmed texts -/

/-- No blank at either end. -/
def Trimmed (l : List Char) : Prop :=
  (∀ c ∈ l.head?, isSpace c = false) ∧ ∀ c ∈ l.getLast?, isSpace c = false

instance (l : List Char) : Decidable (Trimmed l) :=
  decidable_of_iff (l.head?.all (!isSpace ·) ∧ l.getLast?.all (!isSpace ·)) <| by
    simp [Trimmed, Option.all_eq_true]

theorem trimmed_trimSpace (s : String) : Trimmed (trimSpace s).toList := by
  rw [trimSpace, String.toList_ofList]
  constructor
  · intro c hc
    obtain ⟨rest, hprefix⟩ := List.rdropWhile_prefix isSpace (s.toList.dropWhile isSpace)
    have hhead : (s.toList.dropWhile isSpace).head? = some c := by
      rw [← hprefix]
      exact List.mem_head?_append_of_mem_head? hc
    have hnot := List.head?_dropWhile_not isSpace s.toList
    rw [hhead] at hnot
    simpa using hnot
  · intro c hc
    obtain ⟨hne, rfl⟩ := List.mem_getLast?_eq_getLast hc
    exact Bool.eq_false_iff.mpr (List.rdropWhile_last_not isSpace _ hne)

theorem trimSpace_of_trimmed {s : String} (h : Trimmed s.toList) : trimSpace s = s := by
  have hfront : s.toList.dropWhile isSpace = s.toList := by
    cases hs : s.toList with
    | nil => rfl
    | cons c cs =>
        rw [hs] at h
        rw [List.dropWhile_cons_of_neg (Bool.eq_false_iff.mp (h.1 c rfl))]
  have hback : s.toList.rdropWhile isSpace = s.toList := by
    refine List.rdropWhile_eq_self_iff.mpr ?_
    intro hne
    rw [h.2 _ (List.getLast_mem_getLast? hne)]
    exact Bool.false_ne_true
  rw [trimSpace, hfront, hback, String.ofList_toList]

/-- Nothing but whitespace. -/
def Blank (s : String) : Prop := ∀ c ∈ s.toList, isSpace c = true

instance (s : String) : Decidable (Blank s) :=
  List.decidableBAll (isSpace · = true) s.toList

theorem trimSpace_blank_append {a : String} (ha : Blank a) (s : String) :
    trimSpace (a ++ s) = trimSpace s := by
  rw [trimSpace, trimSpace, String.toList_append, List.dropWhile_append_of_pos ha]

theorem trimSpace_append_blank {b : String} (hb : Blank b) (s : String) :
    trimSpace (s ++ b) = trimSpace s := by
  have hback : ∀ l : List Char, (l ++ b.toList).rdropWhile isSpace = l.rdropWhile isSpace := by
    intro l
    rw [List.rdropWhile, List.reverse_append, List.dropWhile_append_of_pos, List.rdropWhile]
    exact fun c hc => hb c (List.mem_reverse.mp hc)
  rw [trimSpace, trimSpace, String.toList_append, List.dropWhile_append]
  split
  · next hnil =>
    rw [List.isEmpty_iff.mp hnil, List.dropWhile_eq_nil_iff.mpr hb]
  · rw [hback]

/-! ## What a text contains -/

theorem contains_iff {s sub : String} : contains s sub = true ↔ sub.toList <:+: s.toList := by
  simp [contains]

theorem infix_separated {α : Type} {c : α} {p a b : List α} (hc : c ∉ p) :
    p <:+: a ++ c :: b ↔ p <:+: a ∨ p <:+: b := by
  constructor
  · intro h
    rcases List.infix_append_iff.mp h with h | h | ⟨p₁, p₂, rfl, h₁, h₂⟩
    · exact Or.inl h
    · rcases List.infix_cons_iff.mp h with h | h
      · cases p with
        | nil => exact Or.inl List.nil_infix
        | cons x p =>
            obtain ⟨rfl, -⟩ := List.cons_prefix_cons.mp h
            exact absurd List.mem_cons_self hc
      · exact Or.inr h
    · cases p₂ with
      | nil =>
          rw [List.append_nil]
          exact Or.inl h₁.isInfix
      | cons x p₂ =>
          obtain ⟨rfl, -⟩ := List.cons_prefix_cons.mp h₂
          exact absurd (List.mem_append_right p₁ List.mem_cons_self) hc
  · rintro (h | h)
    · exact List.infix_append_of_infix_left h
    · exact List.infix_append_of_infix_right (List.infix_cons h)

/-- A phrase without the separator is in one of the parts. -/
theorem contains_separated {c : Char} {sub a b : String} (hc : c ∉ sub.toList) :
    contains (a ++ (String.singleton c ++ b)) sub = true ↔
      contains a sub = true ∨ contains b sub = true := by
  simp only [contains_iff, String.toList_append, String.toList_singleton, List.singleton_append]
  exact infix_separated hc

theorem contains_append_left {a sub : String} (b : String) (h : contains a sub = true) :
    contains (a ++ b) sub = true := by
  rw [contains_iff] at h ⊢
  rw [String.toList_append]
  exact List.infix_append_of_infix_left h

theorem contains_append_right {b sub : String} (a : String) (h : contains b sub = true) :
    contains (a ++ b) sub = true := by
  rw [contains_iff] at h ⊢
  rw [String.toList_append]
  exact List.infix_append_of_infix_right h

theorem infix_cons_iff_of_ne {α : Type} {a : α} {p l : List α} (h : p.head? ≠ some a) :
    p <:+: a :: l ↔ p <:+: l := by
  constructor
  · intro hp
    rcases List.infix_cons_iff.mp hp with hp | hp
    · cases p with
      | nil => exact List.nil_infix
      | cons x p =>
          obtain ⟨rfl, -⟩ := List.cons_prefix_cons.mp hp
          exact absurd rfl h
    · exact hp
  · exact List.infix_cons

theorem infix_concat_iff_of_ne {α : Type} {a : α} {p l : List α} (h : p.getLast? ≠ some a) :
    p <:+: l ++ [a] ↔ p <:+: l := by
  rw [← List.reverse_infix, ← @List.reverse_infix _ _ l, List.reverse_append,
    List.reverse_singleton, List.singleton_append]
  exact infix_cons_iff_of_ne (by rwa [List.head?_reverse])

theorem infix_dropWhile {α : Type} {q : α → Bool} {x : α} {p l : List α} (hx : q x = false) :
    x :: p <:+: l.dropWhile q ↔ x :: p <:+: l := by
  induction l with
  | nil => exact Iff.rfl
  | cons y l ih =>
      by_cases hy : q y = true
      · have hne : (x :: p).head? ≠ some y := by
          rintro ⟨⟩
          rw [hx] at hy
          cases hy
        rw [List.dropWhile_cons_of_pos hy, ih, infix_cons_iff_of_ne hne]
      · rw [List.dropWhile_cons_of_neg hy]

theorem infix_rdropWhile {α : Type} {q : α → Bool} {x : α} {p l : List α} (hx : q x = false) :
    p ++ [x] <:+: l.rdropWhile q ↔ p ++ [x] <:+: l := by
  rw [← List.reverse_infix, ← @List.reverse_infix _ _ l, List.rdropWhile, List.reverse_reverse,
    List.reverse_append, List.reverse_singleton, List.singleton_append]
  exact infix_dropWhile hx

/-- Trimming loses no phrase without blanks around it. -/
theorem contains_trimSpace {s sub : String} {x y : Char} {p q : List Char}
    (hfirst : sub.toList = x :: p) (hx : isSpace x = false) (hlast : sub.toList = q ++ [y])
    (hy : isSpace y = false) : contains (trimSpace s) sub = contains s sub := by
  have htrim : (trimSpace s).toList = (s.toList.dropWhile isSpace).rdropWhile isSpace := by
    simp [trimSpace]
  rw [Bool.eq_iff_iff, contains_iff, contains_iff, htrim, hlast, infix_rdropWhile hy, ← hlast,
    hfirst, infix_dropWhile hx]

end Strings
