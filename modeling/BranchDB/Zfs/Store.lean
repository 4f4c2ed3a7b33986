/-
# `Zfs.Store` — what the `zfs` command does to a pool

Filesystems and snapshots under their full names (`pool/fs`, `pool/fs@snap`).  A snapshot
has an identity, its `guid`, that a rename keeps; a filesystem that is a clone has the guid
of its origin.  Each command is described by why it is refused, what it does if it is not,
and what it prints:

    refusal c st = some why     exit status ≠ 0, `why` on stderr, nothing changed
    refusal c st = none         `answer c st` on stdout, and the store is `effect clock c st`

A name has at most 255 characters and a time of creation 64 bits, so that no line of a listing
is too long for whoever scans it.

A command may also fail for a reason of its own, or do its work and fail all the same: it was
killed after the fact, or could not mount what it made (`Served`).  What it says then is some
other complaint, in which no reason given here occurs, though the name of an object may.

A snapshot is destroyed only if nothing was cloned from it, so every origin stays: `WF` is
preserved by whatever happens (`Served.wf`).
-/
import BranchDB.Go
import BranchDB.Strings
import Mathlib.Data.List.Nodup

namespace Zfs

open BranchDB (civil padded)
open Strings

/-- The texts by which the reasons for a refusal are told apart. -/
def missingText : String := "dataset does not exist"
def clonesText : String := "has dependent clones"
def existsText : String := "dataset already exists"

structure Snapshot where
  name : String
  /-- The name it was created under. -/
  born : String
  guid : Nat
  /-- In seconds of the wall clock of the host. -/
  creation : UInt64
deriving DecidableEq, Repr

structure Filesystem where
  name : String
  origin : Option Nat
  sharenfs : String
  shared : Bool
deriving DecidableEq, Repr

structure Store where
  /-- In the order they were created. -/
  snapshots : List Snapshot
  filesystems : List Filesystem
  /-- The guid the next snapshot gets. -/
  next : Nat
deriving DecidableEq, Repr

inductive Command
  | destroy (force : Bool) (object : String)
  | snapshot (name : String)
  | rename (name target : String)
  | clone (snap target : String)
  | share (target : String)
  | shareAll
  | unshare (target : String)
  | getSharenfs (target : String)
  | getClones (snap : String)
  | listSnapshots (dataset : String)
  | listTree (dataset : String)
  | list (dataset : String)
deriving DecidableEq, Repr

/-- The arguments of `zfs`. -/
def Command.args : Command → List String
  | .destroy true object => ["destroy", "-f", object]
  | .destroy false object => ["destroy", object]
  | .snapshot name => ["snapshot", name]
  | .rename name target => ["rename", name, target]
  | .clone snap target => ["clone", snap, target]
  | .share target => ["share", target]
  | .shareAll => ["share", "-a"]
  | .unshare target => ["unshare", target]
  | .getSharenfs target => ["get", "-H", "-o", "value", "sharenfs", target]
  | .getClones snap => ["get", "-H", "-o", "value", "clones", snap]
  | .listSnapshots dataset => ["list", "-t", "snapshot", "-H", "-o", "name,creation", dataset]
  | .listTree dataset => ["list", "-r", "-H", "-o", "name", dataset]
  | .list dataset => ["list", "-H", "-o", "name", dataset]

/-- The objects a command names. -/
def Command.objects : Command → List String
  | .destroy _ object => [object]
  | .snapshot name => [name]
  | .rename name target => [name, target]
  | .clone snap target => [snap, target]
  | .share target | .unshare target | .getSharenfs target => [target]
  | .getClones snap => [snap]
  | .listSnapshots dataset | .listTree dataset | .list dataset => [dataset]
  | .shareAll => []

/-! ## Names -/

/-- What is before and after the first `@`. -/
def cutAt (l : List Char) : List Char × List Char :=
  (l.takeWhile (· ≠ '@'), (l.dropWhile (· ≠ '@')).drop 1)

/-- The characters the name of a filesystem or a snapshot consists of. -/
def nameChar (c : Char) : Bool := c.isAlphanum ∨ c ∈ ['-', '_', '.', ':', ' ']

/-- `ZFS_MAX_DATASET_NAME_LEN`, with the byte that ends it. -/
def maxNameLen : Nat := 256

def ValidFilesystem (name : List Char) : Prop :=
  (∀ c ∈ name, nameChar c ∨ c = '/') ∧ [] ∉ name.splitOn '/' ∧ name.length < maxNameLen

def ValidSnapshot (name : List Char) : Prop :=
  '@' ∈ name ∧ ValidFilesystem (cutAt name).1 ∧ (cutAt name).2 ≠ [] ∧
    (∀ c ∈ (cutAt name).2, nameChar c) ∧ name.length < maxNameLen

/-- Not all characters are looked at, only those of the name. -/
instance (name : List Char) : Decidable (ValidFilesystem name) :=
  @instDecidableAnd _ _ (List.decidableBAll _ name) inferInstance

instance (name : List Char) : Decidable (ValidSnapshot name) :=
  have : Decidable (∀ c ∈ (cutAt name).2, nameChar c = true) := List.decidableBAll _ _
  inferInstanceAs (Decidable (_ ∧ _))

theorem cutAt_append {a b : List Char} (h : '@' ∉ a) : cutAt (a ++ '@' :: b) = (a, b) := by
  have hall : ∀ c ∈ a, decide (c ≠ '@') = true :=
    fun c hc => decide_eq_true fun he => h (he ▸ hc)
  unfold cutAt
  rw [List.takeWhile_append_of_pos hall, List.dropWhile_append_of_pos hall]
  simp

theorem cutAt_eq {l : List Char} (h : '@' ∈ l) : l = (cutAt l).1 ++ '@' :: (cutAt l).2 := by
  obtain ⟨a, b, rfl, ha⟩ := List.eq_append_cons_of_mem h
  rw [cutAt_append ha]

/-- Neither `,` nor `%` nor a line break is in the name of a snapshot. -/
theorem ValidSnapshot.mem {name : List Char} (h : ValidSnapshot name) {c : Char} (hc : c ∈ name) :
    nameChar c ∨ c = '/' ∨ c = '@' := by
  obtain ⟨hat, hfs, -, hsnap, -⟩ := h
  rw [cutAt_eq hat] at hc
  rcases List.mem_append.mp hc with hc | hc
  · rcases hfs.1 c hc with h | h
    · exact Or.inl h
    · exact Or.inr (Or.inl h)
  · rcases List.mem_cons.mp hc with h | hc
    · exact Or.inr (Or.inr h)
    · exact Or.inl (hsnap c hc)

theorem ValidFilesystem.not_mem {name : List Char} (h : ValidFilesystem name) : '@' ∉ name :=
  fun hc => absurd (h.1 '@' hc) (by decide)

/-- The filesystem a name is directly below, empty if there is none. -/
def parent (name : String) : String :=
  String.ofList ((name.toList.reverse.dropWhile (· ≠ '/')).drop 1).reverse

/-- A name below another one: of a filesystem or of a snapshot. -/
def below (name x : String) : Bool :=
  (name ++ "/").toList.isPrefixOf x.toList ∨ (name ++ "@").toList.isPrefixOf x.toList

/-! ## Looking things up -/

namespace Store

variable (st : Store)

def filesystem (name : String) : Option Filesystem := st.filesystems.find? (·.name = name)

def snapshot (name : String) : Option Snapshot := st.snapshots.find? (·.name = name)

/-- The clones of a snapshot. -/
def clones (s : Snapshot) : List String :=
  (st.filesystems.filter (·.origin = some s.guid)).map (·.name)

/-- What is below a filesystem. -/
def children (name : String) : List String :=
  (st.filesystems.map (·.name) ++ st.snapshots.map (·.name)).filter (below name)

/-- `first%last`, both included; either may be left out. -/
def range (fs first last : List Char) : List Snapshot :=
  let own := st.snapshots.filter fun s => (fs ++ ['@']).isPrefixOf s.name.toList
  let start := if first = [] then own else own.dropWhile (·.name.toList ≠ fs ++ '@' :: first)
  let upto := start.takeWhile (·.name.toList ≠ fs ++ '@' :: last)
  if last = [] then start
  else if upto.length < start.length then start.take (upto.length + 1) else []

/-- Whether one part of the names after `fs@` names a snapshot. -/
def named (fs part : List Char) (s : Snapshot) : Bool :=
  if '%' ∈ part then
    s ∈ st.range fs (part.takeWhile (· ≠ '%')) ((part.dropWhile (· ≠ '%')).drop 1)
  else s.name.toList = fs ++ '@' :: part

/-- The snapshots `zfs destroy fs@spec` destroys: after the `@` there may be several names,
between commas, and ranges of names. -/
def selected (object : String) : List Snapshot :=
  st.snapshots.filter fun s =>
    ((cutAt object.toList).2.splitOn ',').any fun part => st.named (cutAt object.toList).1 part s

/-- Something of that name is there. -/
def Exists (name : String) : Prop := st.filesystem name ≠ none ∨ st.snapshot name ≠ none

instance (name : String) : Decidable (st.Exists name) := inferInstanceAs (Decidable (_ ∨ _))

end Store

/-- Nothing but one name is named after the `@`. -/
def PlainObject (object : String) : Prop :=
  '@' ∈ object.toList ∧ ',' ∉ (cutAt object.toList).2 ∧ '%' ∉ (cutAt object.toList).2

theorem ValidSnapshot.plain {object : String} (h : ValidSnapshot object.toList) :
    PlainObject object :=
  ⟨h.1, fun hc => absurd (h.2.2.2.1 ',' hc) (by decide),
    fun hc => absurd (h.2.2.2.1 '%' hc) (by decide)⟩

theorem selected_of_plain {st : Store} {object : String} (h : PlainObject object) :
    st.selected object = st.snapshots.filter (·.name = object) := by
  obtain ⟨hat, hcomma, hpercent⟩ := h
  refine List.filter_congr ?_
  intro s _
  have hname : s.name.toList = (cutAt object.toList).1 ++ '@' :: (cutAt object.toList).2 ↔
      s.name = object := by
    rw [← cutAt_eq hat, String.toList_inj]
  rw [List.splitOn_eq_singleton hcomma, List.any_cons, List.any_nil, Bool.or_false, Store.named,
    if_neg hpercent]
  exact decide_eq_decide.mpr hname

theorem mem_selected_of_plain {st : Store} {object : String} {s : Snapshot}
    (h : PlainObject object) :
    s ∈ st.selected object ↔ s ∈ st.snapshots ∧ s.name = object := by
  rw [selected_of_plain h, List.mem_filter, decide_eq_true_iff]

/-! ## Refusals -/

def complaint (verb object reason : String) : String :=
  verb ++ " " ++ "'" ++ object ++ "'" ++ ": " ++ reason ++ "\n"

/-- A text that is not cut by what stands between the parts of a complaint, and neither begins
nor ends with a blank. -/
def Phrase (text : String) : Prop :=
  text.toList ≠ [] ∧ '\'' ∉ text.toList ∧ ':' ∉ text.toList ∧ '\n' ∉ text.toList ∧
    text.toList.head? ≠ some ' ' ∧ text.toList.getLast? ≠ some ' '

instance (text : String) : Decidable (Phrase text) := inferInstanceAs (Decidable (_ ∧ _))

/-- A phrase is in a complaint if it is in one of its parts. -/
theorem Phrase.in_complaint {text : String} (htext : Phrase text) (verb object reason : String) :
    contains (complaint verb object reason) text = true ↔
      contains verb text = true ∨ contains object text = true ∨ contains reason text = true := by
  obtain ⟨hne, hquote, hcolon, hbreak, hhead, hlast⟩ := htext
  have hsplit : complaint verb object reason = (verb ++ " ") ++ (String.singleton '\'' ++
      (object ++ (String.singleton '\'' ++ ("" ++ (String.singleton ':' ++
        ((" " ++ reason) ++ (String.singleton '\n' ++ ""))))))) := by
    rw [← String.toList_inj]
    simp [complaint]
  have hverb : contains (verb ++ " ") text = true ↔ contains verb text = true := by
    rw [contains_iff, contains_iff, String.toList_append]
    exact infix_concat_iff_of_ne hlast
  have hreason : contains (" " ++ reason) text = true ↔ contains reason text = true := by
    rw [contains_iff, contains_iff, String.toList_append]
    exact infix_cons_iff_of_ne hhead
  have hnone : contains "" text = false := by
    rw [Bool.eq_false_iff, Ne, contains_iff]
    exact fun h => hne (List.eq_nil_of_infix_nil h)
  rw [hsplit, contains_separated hquote, contains_separated hquote, contains_separated hcolon,
    contains_separated hbreak, hverb, hreason, hnone]
  simp

/-- The texts that tell reasons apart are phrases. -/
theorem phrase_of_mem : ∀ text ∈ [missingText, clonesText, existsText], Phrase text := by decide

theorem contains_complaint {verb object reason text : String}
    (htext : text ∈ [missingText, clonesText, existsText]) :
    contains (complaint verb object reason) text = true ↔
      contains verb text = true ∨ contains object text = true ∨ contains reason text = true :=
  (phrase_of_mem text htext).in_complaint verb object reason

/-- If the rest of the complaint does not have it, it is in the name of the object. -/
theorem contains_complaint_object {verb object reason text : String}
    (htext : text ∈ [missingText, clonesText, existsText])
    (hverb : contains verb text = false) (hreason : contains reason text = false) :
    contains (complaint verb object reason) text = contains object text := by
  rw [Bool.eq_iff_iff, contains_complaint htext, hverb, hreason]
  simp

/-- What would have to be destroyed as well. -/
def advice (option : String) (names : List String) : String :=
  "use '" ++ option ++ "' to destroy the following datasets:\n" ++
    String.join (names.map (· ++ "\n"))

def refuseSnapshots (st : Store) (object : String) : Option String :=
  if st.selected object = [] then some (complaint "cannot destroy" object missingText)
  else ((st.selected object).find? (st.clones · ≠ [])).map fun s =>
    complaint "cannot destroy" s.name ("snapshot " ++ clonesText) ++ advice "-R" (st.clones s)

def refuseFilesystem (st : Store) (name : String) : Option String :=
  if st.filesystem name = none then some (complaint "cannot open" name missingText)
  else if st.children name = [] then none
  else some (complaint "cannot destroy" name "filesystem has children" ++
    advice "-r" (st.children name))

/-- Why a filesystem of that name cannot be used. -/
def notFilesystem (st : Store) (name : String) : String :=
  complaint "cannot open" name
    (if st.snapshot name = none then missingText
     else "operation not applicable to datasets of this type")

def refusal (st : Store) : Command → Option String
  | .destroy _ object =>
    if '@' ∈ object.toList then refuseSnapshots st object else refuseFilesystem st object
  | .snapshot name =>
    if ¬ ValidSnapshot name.toList then
      some (complaint "cannot create snapshot" name "invalid character in name")
    else if st.filesystem (String.ofList (cutAt name.toList).1) = none then
      some (complaint "cannot open" (String.ofList (cutAt name.toList).1) missingText)
    else if st.snapshot name ≠ none then
      some (complaint "cannot create snapshot" name existsText)
    else none
  | .rename name target =>
    if st.snapshot name = none then some (complaint "cannot open" name missingText)
    else if ¬ ValidSnapshot target.toList ∨ (cutAt target.toList).1 ≠ (cutAt name.toList).1 then
      some (complaint "cannot rename to" target "invalid name")
    else if st.snapshot target ≠ none then some (complaint "cannot rename to" target existsText)
    else none
  | .clone snap target =>
    if st.snapshot snap = none then some (complaint "cannot open" snap missingText)
    else if ¬ ValidFilesystem target.toList then
      some (complaint "cannot create" target "invalid character in name")
    else if st.filesystem target ≠ none then some (complaint "cannot create" target existsText)
    else if st.filesystem (parent target) = none then
      some (complaint "cannot create" target "parent does not exist")
    else none
  | .share target =>
    match st.filesystem target with
    | none => some (notFilesystem st target)
    | some f =>
      if f.sharenfs = "off" then some (complaint "cannot share" target "legacy share")
      else if f.shared then some (complaint "cannot share" target "filesystem already shared")
      else none
  | .unshare target =>
    match st.filesystem target with
    | none => some (notFilesystem st target)
    | some f =>
      if f.shared then none else some (complaint "cannot unshare" target "not currently shared")
  | .shareAll => none
  | .getSharenfs name | .getClones name | .list name =>
    if st.Exists name then none else some (complaint "cannot open" name missingText)
  | .listSnapshots name | .listTree name =>
    if st.filesystem name = none then some (notFilesystem st name) else none

/-! ## Answers -/

def weekdays : List String := ["Sun", "Mon", "Tue", "Wed", "Thu", "Fri", "Sat"]

def months : List String :=
  ["Jan", "Feb", "Mar", "Apr", "May", "Jun", "Jul", "Aug", "Sep", "Oct", "Nov", "Dec"]

/-- A number in two places, the first of them blank if need be. -/
def spaced (n : Int) : String := (if n < 10 then " " else "") ++ padded 1 n

/-- An instant to the minute: `Sun May 31 15:04 2026`. -/
def creationText (seconds : Int) : String :=
  let days := seconds / 86400
  let clock := seconds % 86400
  let (year, month, day) := civil days
  weekdays.getD ((days + 4) % 7).toNat "" ++ " " ++ months.getD (month - 1).toNat "" ++ " " ++
    spaced day ++ " " ++ spaced (clock / 3600) ++ ":" ++ padded 2 (clock / 60 % 60) ++ " " ++
    padded 4 year

example : creationText 1780239840 = "Sun May 31 15:04 2026" := by decide +kernel

example : creationText 1780634040 = "Fri Jun  5  4:34 2026" := by decide +kernel

def answer (st : Store) : Command → String
  | .getSharenfs name => ((st.filesystem name).map (·.sharenfs)).getD "-" ++ "\n"
  | .getClones name =>
    ((st.snapshot name).map fun s => ",".intercalate (st.clones s)).getD "-" ++ "\n"
  | .listSnapshots name =>
    String.join ((st.snapshots.filter fun s => String.ofList (cutAt s.name.toList).1 = name).map
      fun s => s.name ++ "\t" ++ creationText s.creation.toNat ++ "\n")
  | .listTree name =>
    String.join ((st.filesystems.filter fun f => f.name = name ∨ below name f.name).map
      (·.name ++ "\n"))
  | .list name => name ++ "\n"
  | .destroy .. | .snapshot _ | .rename .. | .clone .. | .share _ | .shareAll | .unshare _ => ""

/-! ## Effects -/

def Filesystem.export (f : Filesystem) : Filesystem := { f with shared := f.sharenfs ≠ "off" }

/-- What a command does that is not refused; a new clone inherits `sharenfs`. -/
def effect (clock : UInt64) (st : Store) : Command → Store
  | .destroy _ object =>
    if '@' ∈ object.toList then
      { st with snapshots := st.snapshots.filter (· ∉ st.selected object) }
    else { st with filesystems := st.filesystems.filter (·.name ≠ object) }
  | .snapshot name =>
    { st with snapshots := st.snapshots ++ [⟨name, name, st.next, clock⟩], next := st.next + 1 }
  | .rename name target =>
    { st with snapshots := st.snapshots.map fun s =>
        if s.name = name then { s with name := target } else s }
  | .clone snap target =>
    { st with filesystems := st.filesystems ++ [Filesystem.export
        { name := target
          origin := (st.snapshot snap).map (·.guid)
          sharenfs := ((st.filesystem (parent target)).map (·.sharenfs)).getD "off"
          shared := false }] }
  | .share target =>
    { st with filesystems := st.filesystems.map fun f => if f.name = target then f.export else f }
  | .shareAll => { st with filesystems := st.filesystems.map (·.export) }
  | .unshare target =>
    { st with filesystems := st.filesystems.map fun f =>
        if f.name = target then { f with shared := false } else f }
  | .getSharenfs _ | .getClones _ | .listSnapshots _ | .listTree _ | .list _ => st

end Zfs
