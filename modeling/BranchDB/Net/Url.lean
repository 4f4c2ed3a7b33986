/-
# `Net.Url` — URLs between a Go client and a Go server

A reference (path, query, fragment) as a client hands it to `http.NewRequest`, as it goes
over the wire, and as the server's handlers see it; `net/url` and the request line of
`net/http`, on bytes.

    parse             client: cut at `#`, refuse control bytes, cut at `?`, unescape the path
    requestURI        what the client writes: the path escaped, the query as it is
    parseRequestURI   server: refuse what the request line cannot hold, cut at `?`, unescape

The query is never escaped on the way, so whoever builds one from a text must; what a text
becomes otherwise is `get` of `parseQuery`.  Text that has none of the bytes with a meaning
in a query arrives as it is (`get_parseQuery_plain`).
-/
import Mathlib.Data.List.DropRight
import Mathlib.Data.List.GetD

namespace Net

abbrev Bytes := List UInt8

/-- The bytes of a text. -/
def utf8 (s : String) : Bytes := s.toByteArray.data.toList

theorem utf8_inj {s t : String} : utf8 s = utf8 t ↔ s = t := by
  refine ⟨fun h => ?_, fun h => h ▸ rfl⟩
  exact String.toByteArray_inj.mp (ByteArray.ext (Array.toList_inj.mp h))

theorem utf8_append (s t : String) : utf8 (s ++ t) = utf8 s ++ utf8 t := by
  simp [utf8]

theorem utf8_eq_nil {s : String} : utf8 s = [] ↔ s = "" :=
  utf8_inj (t := "")

/-- The characters of the first `n` of some bytes, `U+FFFD` standing for a byte that begins none. -/
def decodeText : Nat → Bytes → List Char
  | n + 1, b :: s =>
    match (ByteArray.mk (b :: s).toArray).utf8DecodeChar? 0 with
    | some c => c :: decodeText n ((b :: s).drop c.utf8Size)
    | none => '\uFFFD' :: decodeText n s
  | _, _ => []

/-- Bytes as `encoding/json` writes them. -/
def text (s : Bytes) : String := String.ofList (decodeText s.length s)

theorem utf8_eq_flatMap (s : String) : utf8 s = s.toList.flatMap String.utf8EncodeChar := by
  rw [utf8, ← String.utf8Encode_toList, List.utf8Encode]
  simp

theorem decodeText_encode {l : List Char} {n : Nat}
    (hn : (l.flatMap String.utf8EncodeChar).length ≤ n) :
    decodeText n (l.flatMap String.utf8EncodeChar) = l := by
  induction l generalizing n with
  | nil =>
      cases n with
      | zero => rfl
      | succ n => rfl
  | cons c l ih =>
      have hdecode : (ByteArray.mk
          ((c :: l).flatMap String.utf8EncodeChar).toArray).utf8DecodeChar? 0 = some c := by
        have hmk : ByteArray.mk ((c :: l).flatMap String.utf8EncodeChar).toArray =
            (c :: l).utf8Encode := by
          rw [List.utf8Encode]
          exact ByteArray.ext (by simp)
        rw [hmk, List.utf8DecodeChar?_utf8Encode_cons]
      have hlength : (String.utf8EncodeChar c).length = c.utf8Size := String.length_utf8EncodeChar c
      have hpos : 0 < c.utf8Size := Char.utf8Size_pos c
      have hdrop : ((c :: l).flatMap String.utf8EncodeChar).drop c.utf8Size =
          l.flatMap String.utf8EncodeChar := by
        rw [List.flatMap_cons, ← hlength, List.drop_left]
      have hsize : c.utf8Size + (l.flatMap String.utf8EncodeChar).length ≤ n := by
        rwa [List.flatMap_cons, List.length_append, hlength] at hn
      obtain ⟨n, rfl⟩ : ∃ k, n = k + 1 := ⟨n - 1, by omega⟩
      cases hbytes : (c :: l).flatMap String.utf8EncodeChar with
      | nil =>
          rw [List.flatMap_cons, List.append_eq_nil_iff] at hbytes
          rw [hbytes.1, List.length_nil] at hlength
          omega
      | cons b s =>
          rw [hbytes] at hdecode hdrop
          rw [decodeText, hdecode]
          dsimp only
          rw [hdrop, ih (by omega)]

/-- A text is read back from its bytes. -/
theorem text_utf8 (s : String) : text (utf8 s) = s := by
  rw [text, utf8_eq_flatMap, decodeText_encode (Nat.le_refl _), String.ofList_toList]

/-- A small byte is a character of its own. -/
theorem encode_small {c : Char} {b : UInt8} (hb : b ∈ String.utf8EncodeChar c)
    (h : b.toNat < 128) : String.utf8EncodeChar c = [b] ∧ c.toNat = b.toNat := by
  unfold String.utf8EncodeChar at hb ⊢
  dsimp only at hb ⊢
  have hval : c.val.toNat = c.toNat := rfl
  split at hb
  · next hsmall =>
    rw [if_pos hsmall]
    obtain rfl := List.mem_singleton.mp hb
    refine ⟨rfl, ?_⟩
    rw [UInt8.toNat_ofNat', hval, Nat.mod_eq_of_lt (by omega)]
  · -- every byte of a longer encoding has its high bit set
    have hlarge : ∀ k, 128 ≤ k → k < 256 → b = UInt8.ofNat k → False := by
      rintro k hlow hhigh rfl
      rw [UInt8.toNat_ofNat', Nat.mod_eq_of_lt hhigh] at h
      omega
    exfalso
    split at hb
    · simp only [List.mem_cons, List.not_mem_nil, or_false] at hb
      rcases hb with hb | hb
      · exact hlarge _ (by omega) (by omega) hb
      · exact hlarge _ (by omega) (by omega) hb
    · split at hb
      · simp only [List.mem_cons, List.not_mem_nil, or_false] at hb
        rcases hb with hb | hb | hb
        · exact hlarge _ (by omega) (by omega) hb
        · exact hlarge _ (by omega) (by omega) hb
        · exact hlarge _ (by omega) (by omega) hb
      · simp only [List.mem_cons, List.not_mem_nil, or_false] at hb
        rcases hb with hb | hb | hb | hb
        · exact hlarge _ (by omega) (by omega) hb
        · exact hlarge _ (by omega) (by omega) hb
        · exact hlarge _ (by omega) (by omega) hb
        · exact hlarge _ (by omega) (by omega) hb

/-- Small bytes at the end are characters of their own, each. -/
theorem encode_append {cs : List Char} {front back : Bytes}
    (h : cs.flatMap String.utf8EncodeChar = front ++ back) (hback : ∀ b ∈ back, b.toNat < 128) :
    ∃ key suffix : List Char, cs = key ++ suffix ∧ key.flatMap String.utf8EncodeChar = front ∧
      suffix.flatMap String.utf8EncodeChar = back ∧
      suffix.map Char.toNat = back.map UInt8.toNat := by
  induction back using List.reverseRecOn generalizing cs with
  | nil => exact ⟨cs, [], (List.append_nil _).symm, by rw [h, List.append_nil], rfl, rfl⟩
  | append_singleton back b ih =>
      have hb : b.toNat < 128 := hback b (List.mem_append_right _ (List.mem_singleton_self b))
      rw [← List.append_assoc] at h
      rcases List.eq_nil_or_concat cs with rfl | ⟨cs, c, rfl⟩
      · exact absurd h.symm (by simp)
      · rw [List.concat_eq_append, List.flatMap_append, List.flatMap_singleton] at h
        have hlast : b ∈ String.utf8EncodeChar c := by
          have hne : String.utf8EncodeChar c ≠ [] := String.utf8EncodeChar_ne_nil
          have hget := congrArg List.getLast? h
          rw [List.getLast?_append_of_ne_nil _ hne, List.getLast?_concat] at hget
          exact List.mem_of_getLast? hget
        obtain ⟨hone, hnat⟩ := encode_small hlast hb
        rw [hone] at h
        obtain ⟨key, suffix, rfl, hkey, hsuffix, hmap⟩ :=
          ih (List.append_cancel_right h) fun d hd => hback d (List.mem_append_left _ hd)
        refine ⟨key, suffix ++ [c], by simp, hkey, ?_, ?_⟩
        · rw [List.flatMap_append, hsuffix, List.flatMap_singleton, hone]
        · rw [List.map_append, List.map_append, hmap, List.map_singleton, List.map_singleton, hnat]

/-! ## Cutting -/

/-- `strings.Cut`: what is before and after the first `c`; nothing after if there is none. -/
def cut (c : UInt8) : Bytes → Bytes × Bytes
  | [] => ([], [])
  | b :: s => if b = c then ([], s) else (b :: (cut c s).1, (cut c s).2)

theorem cut_append {c : UInt8} {s : Bytes} (h : c ∉ s) (t : Bytes) :
    cut c (s ++ c :: t) = (s, t) := by
  induction s with
  | nil => simp [cut]
  | cons b s ih =>
      have hb : b ≠ c := fun he => h (he ▸ List.mem_cons_self)
      have hs : c ∉ s := fun hc => h (List.mem_cons_of_mem _ hc)
      simp [cut, hb, ih hs]

theorem cut_eq_self {c : UInt8} {s : Bytes} (h : c ∉ s) : cut c s = (s, []) := by
  induction s with
  | nil => rfl
  | cons b s ih =>
      have hb : b ≠ c := fun he => h (he ▸ List.mem_cons_self)
      have hs : c ∉ s := fun hc => h (List.mem_cons_of_mem _ hc)
      simp [cut, hb, ih hs]

theorem cut_fst (c : UInt8) (s : Bytes) : (cut c s).1 = s.takeWhile (· ≠ c) := by
  induction s with
  | nil => rfl
  | cons b s ih =>
      by_cases hb : b = c
      · simp [cut, hb]
      · simp [cut, hb, ih]

/-! ## Percent-encoding -/

/-- The value of a hexadecimal digit. -/
def unhex (b : UInt8) : Option UInt8 :=
  if 0x30 ≤ b ∧ b ≤ 0x39 then some (b - 0x30)
  else if 0x61 ≤ b ∧ b ≤ 0x66 then some (b - 0x61 + 10)
  else if 0x41 ≤ b ∧ b ≤ 0x46 then some (b - 0x41 + 10)
  else none

/-- `url.PathUnescape` and, with `plus`, `url.QueryUnescape`, where `+` stands for a blank. -/
def unescape (plus : Bool) : Bytes → Option Bytes
  | [] => some []
  | b :: s =>
    if b = '%'.toUInt8 then
      match s with
      | x :: y :: s => do return ((← unhex x) * 16 + (← unhex y)) :: (← unescape plus s)
      | _ => none
    else if plus ∧ b = '+'.toUInt8 then (unescape plus s).map (' '.toUInt8 :: ·)
    else (unescape plus s).map (b :: ·)

theorem unescape_plain {plus : Bool} {s : Bytes} (hpercent : '%'.toUInt8 ∉ s)
    (hplus : plus = true → '+'.toUInt8 ∉ s) : unescape plus s = some s := by
  induction s with
  | nil => rfl
  | cons b s ih =>
      have hp : b ≠ '%'.toUInt8 := fun he => hpercent (he ▸ List.mem_cons_self)
      have hq : ¬ (plus = true ∧ b = '+'.toUInt8) :=
        fun h => hplus h.1 (h.2 ▸ List.mem_cons_self)
      have hs := ih (fun h => hpercent (List.mem_cons_of_mem _ h))
        (fun hp h => hplus hp (List.mem_cons_of_mem _ h))
      unfold unescape
      rw [if_neg hp, if_neg hq, hs]
      rfl

def hexDigits : Bytes := utf8 "0123456789ABCDEF"

/-- A hexadecimal digit. -/
def hexDigit (n : UInt8) : UInt8 := hexDigits.getD n.toNat '0'.toUInt8

/-- Bytes a path may hold as they are. -/
def pathSafe (b : UInt8) : Bool :=
  (0x30 ≤ b ∧ b ≤ 0x39) ∨ (0x41 ≤ b ∧ b ≤ 0x5A) ∨ (0x61 ≤ b ∧ b ≤ 0x7A) ∨
    b ∈ utf8 "-_.~$&+,/:;=@"

/-- `escape(s, encodePath)`. -/
def escapePath (s : Bytes) : Bytes :=
  s.flatMap fun b =>
    if pathSafe b then [b] else ['%'.toUInt8, hexDigit (b / 16), hexDigit (b % 16)]

/-- `validEncoded(s, encodePath)`: nothing in it needs escaping. -/
def validEncoded (s : Bytes) : Bool :=
  s.all fun b => b ∈ utf8 "!$&'()*+,;=:@[]%" ∨ pathSafe b

theorem hexDigit_ne (n : UInt8) : hexDigit n ≠ '?'.toUInt8 := by
  have hmem : hexDigit n ∈ hexDigits := by
    unfold hexDigit
    by_cases hn : n.toNat < hexDigits.length
    · rw [List.getD_eq_getElem _ _ hn]
      exact List.getElem_mem hn
    · rw [List.getD_eq_default _ _ (Nat.le_of_not_lt hn)]
      decide
  exact fun he => absurd (he ▸ hmem) (by decide)

theorem not_mem_escapePath (s : Bytes) : '?'.toUInt8 ∉ escapePath s := by
  intro h
  obtain ⟨b, -, hb⟩ := List.mem_flatMap.mp h
  split at hb
  · next hsafe =>
    rw [← List.mem_singleton.mp hb] at hsafe
    exact absurd hsafe (by decide)
  · simp only [List.mem_cons, List.not_mem_nil, or_false] at hb
    rcases hb with hb | hb | hb
    · exact absurd hb (by decide)
    · exact hexDigit_ne _ hb.symm
    · exact hexDigit_ne _ hb.symm

theorem not_mem_of_validEncoded {s : Bytes} (h : validEncoded s) : '?'.toUInt8 ∉ s :=
  fun hmem => absurd (List.all_eq_true.mp h _ hmem) (by decide)

/-! ## Queries -/

/-- One piece of a query; pieces with a semicolon are refused. -/
def parsePair (piece : Bytes) : Option (Bytes × Bytes) :=
  if ';'.toUInt8 ∈ piece ∨ piece = [] then none
  else do
    let (key, value) := cut '='.toUInt8 piece
    return (← unescape true key, ← unescape true value)

/-- The number of parameters a query may have. -/
def maxParams : Nat := 10000

/-- `url.ParseQuery`, its error ignored: pieces that cannot be read are left out. -/
def parseQuery (query : Bytes) : List (Bytes × Bytes) :=
  if maxParams < query.count '&'.toUInt8 + 1 then []
  else (query.splitOn '&'.toUInt8).filterMap parsePair

/-- `Values.Get`: the first value of a key, empty if there is none. -/
def get (values : List (Bytes × Bytes)) (key : Bytes) : Bytes := (values.lookup key).getD []

/-- The bytes that mean something in a query, or end it. -/
def reserved : Bytes := utf8 "#&;%+"

/-- None of the bytes means something in a query. -/
def Plain (s : Bytes) : Prop := ∀ b ∈ reserved, b ∉ s

instance (s : Bytes) : Decidable (Plain s) := List.decidableBAll (· ∉ s) reserved

theorem get_parseQuery_plain {key value : Bytes} (hkey : Plain key) (heq : '='.toUInt8 ∉ key)
    (hvalue : Plain value) : get (parseQuery (key ++ '='.toUInt8 :: value)) key = value := by
  have hplain : ∀ b ∈ reserved, b ∉ key ++ '='.toUInt8 :: value := by
    intro b hb hmem
    rcases List.mem_append.mp hmem with hmem | hmem
    · exact hkey b hb hmem
    · rcases List.mem_cons.mp hmem with rfl | hmem
      · exact absurd hb (by decide)
      · exact hvalue b hb hmem
  have hamp : '&'.toUInt8 ∉ key ++ '='.toUInt8 :: value := hplain _ (by decide)
  have hpair : parsePair (key ++ '='.toUInt8 :: value) = some (key, value) := by
    have hsemi : ';'.toUInt8 ∉ key ++ '='.toUInt8 :: value := hplain _ (by decide)
    rw [parsePair, if_neg (by simpa using hsemi), cut_append heq]
    simp only [unescape_plain (hkey '%'.toUInt8 (by decide)) fun _ => hkey '+'.toUInt8 (by decide),
      unescape_plain (hvalue '%'.toUInt8 (by decide)) fun _ => hvalue '+'.toUInt8 (by decide)]
    rfl
  have hcount : (key ++ '='.toUInt8 :: value).count '&'.toUInt8 = 0 := List.count_eq_zero.mpr hamp
  rw [parseQuery, if_neg (by rw [hcount]; decide), List.splitOn_eq_singleton hamp]
  simp [hpair, get]

/-! ## URLs -/

/-- `url.URL` below the authority; `rawPath` is set when escaping `path` does not give the
path back. -/
structure Url where
  path : Bytes
  rawPath : Bytes
  rawQuery : Bytes
  forceQuery : Bool
deriving DecidableEq, Repr

/-- `stringContainsCTLByte`. -/
def hasControl (s : Bytes) : Bool := s.any fun b => b < 0x20 ∨ b = 0x7F

/-- A reference without a fragment. -/
def parseNoFragment (s : Bytes) : Option Url :=
  if hasControl s then none
  else do
    let (rest, rawQuery) := cut '?'.toUInt8 s
    let path ← unescape false rest
    return { path
             rawPath := if rest = escapePath path then [] else rest
             rawQuery
             forceQuery := rawQuery = [] ∧ '?'.toUInt8 ∈ s }

/-- `url.Parse`; the fragment only has to be well formed. -/
def parse (s : Bytes) : Option Url := do
  let (s, fragment) := cut '#'.toUInt8 s
  let u ← parseNoFragment s
  let _ ← unescape false fragment
  return u

/-- `URL.EscapedPath`. -/
def Url.escapedPath (u : Url) : Bytes :=
  if u.rawPath ≠ [] ∧ validEncoded u.rawPath ∧ unescape false u.rawPath = some u.path then u.rawPath
  else if u.path = utf8 "*" then utf8 "%2A"
  else escapePath u.path

/-- `URL.RequestURI`: what the client writes on the request line. -/
def Url.requestURI (u : Url) : Bytes :=
  let path := if u.escapedPath = [] then utf8 "/" else u.escapedPath
  if u.forceQuery ∨ u.rawQuery ≠ [] then path ++ '?'.toUInt8 :: u.rawQuery else path

/-- The request line has blanks around its URI, and is refused if there are more. -/
def parseRequestURI (uri : Bytes) : Option Url :=
  if ' '.toUInt8 ∈ uri then none else parseNoFragment uri

/-- The URL a server sees of a request for `s`, if the request gets there. -/
def wire (s : Bytes) : Option Url := do parseRequestURI (← parse s).requestURI

/-- The value of a header as the server sees it, without blanks around it; the client refuses
to send control bytes. -/
def headerValue (v : Bytes) : Option Bytes :=
  let blank (b : UInt8) : Bool := b = ' '.toUInt8 ∨ b = '\t'.toUInt8
  if v.any fun b => (b < 0x20 ∧ b ≠ '\t'.toUInt8) ∨ b = 0x7F then none
  else some ((v.dropWhile blank).rdropWhile blank)

theorem parseNoFragment_eq_some {s : Bytes} {u : Url} (h : parseNoFragment s = some u) :
    unescape false (cut '?'.toUInt8 s).1 = some u.path ∧
      u.rawPath =
        (if (cut '?'.toUInt8 s).1 = escapePath u.path then [] else (cut '?'.toUInt8 s).1) ∧
        u.rawQuery = (cut '?'.toUInt8 s).2 := by
  unfold parseNoFragment at h
  split at h
  · cases h
  · cases hpath : unescape false (cut '?'.toUInt8 s).1 with
    | none => simp [hpath] at h
    | some path =>
        simp only [hpath, Option.bind_eq_bind, Option.bind_some, Option.pure_def,
          Option.some.injEq] at h
        subst h
        exact ⟨rfl, rfl, rfl⟩

theorem Url.not_mem_escapedPath (u : Url) : '?'.toUInt8 ∉ u.escapedPath := by
  unfold Url.escapedPath
  split
  · next h => exact not_mem_of_validEncoded h.2.1
  · split
    · decide
    · exact not_mem_escapePath _

theorem Url.cut_requestURI (u : Url) :
    cut '?'.toUInt8 u.requestURI = (if u.escapedPath = [] then utf8 "/" else u.escapedPath,
      u.rawQuery) := by
  have hpath : '?'.toUInt8 ∉ (if u.escapedPath = [] then utf8 "/" else u.escapedPath) := by
    split
    · decide
    · exact u.not_mem_escapedPath
  unfold Url.requestURI
  by_cases hquery : u.forceQuery ∨ u.rawQuery ≠ []
  · rw [if_pos hquery, cut_append hpath]
  · rw [if_neg hquery, cut_eq_self hpath]
    exact congrArg _ (not_not.mp fun h => hquery (Or.inr h)).symm

theorem parseRequestURI_eq_some {uri : Bytes} {u : Url} (h : parseRequestURI uri = some u) :
    parseNoFragment uri = some u := by
  unfold parseRequestURI at h
  split at h
  · cases h
  · exact h

/-- A URL that arrived was parsed twice. -/
theorem wire_eq_some {s : Bytes} {u : Url} (h : wire s = some u) :
    ∃ v, parseNoFragment (cut '#'.toUInt8 s).1 = some v ∧
      parseNoFragment v.requestURI = some u := by
  unfold wire parse at h
  cases hsent : parseNoFragment (cut '#'.toUInt8 s).1 with
  | none => simp [hsent] at h
  | some v =>
      cases hfrag : unescape false (cut '#'.toUInt8 s).2 with
      | none => simp [hsent, hfrag] at h
      | some fragment =>
          exact ⟨v, rfl, parseRequestURI_eq_some (by simpa [hsent, hfrag] using h)⟩

/-- The query arrives as it was sent. -/
theorem wire_rawQuery {s : Bytes} {u : Url} (h : wire s = some u) :
    u.rawQuery = (cut '?'.toUInt8 (cut '#'.toUInt8 s).1).2 := by
  obtain ⟨v, hsent, hseen⟩ := wire_eq_some h
  obtain ⟨-, -, hquery⟩ := parseNoFragment_eq_some hsent
  obtain ⟨-, -, hquery'⟩ := parseNoFragment_eq_some hseen
  rw [hquery', v.cut_requestURI, hquery]

/-! ## The path that arrives -/

theorem unhex_hexDigit (b : UInt8) :
    unhex (hexDigit (b / 16)) = some (b / 16) ∧ unhex (hexDigit (b % 16)) = some (b % 16) ∧
      b / 16 * 16 + b % 16 = b := by
  have hall : ∀ n < 256, unhex (hexDigit (UInt8.ofNat n / 16)) = some (UInt8.ofNat n / 16) ∧
      unhex (hexDigit (UInt8.ofNat n % 16)) = some (UInt8.ofNat n % 16) ∧
        UInt8.ofNat n / 16 * 16 + UInt8.ofNat n % 16 = UInt8.ofNat n := by decide +kernel
  have hb := hall b.toNat b.toNat_lt
  rwa [UInt8.ofNat_toNat] at hb

theorem ne_percent_of_pathSafe {b : UInt8} (h : pathSafe b = true) : b ≠ '%'.toUInt8 := by
  rintro rfl
  exact absurd h (by decide)

theorem unescape_cons {b : UInt8} (h : b ≠ '%'.toUInt8) (s : Bytes) :
    unescape false (b :: s) = (unescape false s).map (b :: ·) := by
  rw [unescape.eq_def]
  simp [h]

/-- What was escaped is read back. -/
theorem unescape_escapePath (s : Bytes) : unescape false (escapePath s) = some s := by
  induction s with
  | nil => rfl
  | cons b s ih =>
      rw [escapePath, List.flatMap_cons]
      change unescape false (_ ++ escapePath s) = _
      by_cases hsafe : pathSafe b = true
      · rw [if_pos hsafe, List.singleton_append, unescape_cons (ne_percent_of_pathSafe hsafe), ih]
        rfl
      · obtain ⟨hhigh, hlow, hb⟩ := unhex_hexDigit b
        rw [if_neg hsafe, List.cons_append, List.cons_append, List.singleton_append, unescape,
          if_pos rfl, hhigh, hlow, ih]
        simp [hb]

/-- The path a router sees of one that was sent: unescaped, unless it is not how it would have
been escaped. -/
def received (path : Bytes) : Option Bytes :=
  (unescape false path).map fun p =>
    if validEncoded path ∧ escapePath p ≠ path then path else p

theorem escapePath_eq_nil {p : Bytes} : escapePath p = [] ↔ p = [] := by
  cases p with
  | nil => simp [escapePath]
  | cons b p =>
      rw [escapePath, List.flatMap_cons]
      split <;> simp

/-- What the client writes of the path. -/
theorem Url.escapedPath_eq {s : Bytes} {u : Url} (h : parseNoFragment s = some u)
    (hstar : u.path ≠ utf8 "*") :
    u.escapedPath = if validEncoded (cut '?'.toUInt8 s).1 then (cut '?'.toUInt8 s).1
      else escapePath u.path := by
  obtain ⟨hpath, hraw, -⟩ := parseNoFragment_eq_some h
  generalize (cut '?'.toUInt8 s).1 = sent at hpath hraw
  unfold Url.escapedPath
  rw [if_neg hstar, hraw]
  by_cases hesc : sent = escapePath u.path
  · rw [if_pos hesc, if_neg fun h => h.1 rfl]
    split
    · exact hesc.symm
    · rfl
  · rw [if_neg hesc]
    by_cases hvalid : validEncoded sent = true
    · have hne : sent ≠ [] := by
        rintro rfl
        have hnil : [] = u.path := Option.some.inj hpath
        exact hesc (by rw [← hnil]; rfl)
      rw [if_pos ⟨hne, hvalid, hpath⟩, if_pos hvalid]
    · rw [if_neg fun h => hvalid h.2.1, if_neg hvalid]

/-- The path arrives as it is received. -/
theorem wire_path {s : Bytes} {u : Url} (h : wire s = some u) {sent : Bytes}
    (hsent : (cut '?'.toUInt8 (cut '#'.toUInt8 s).1).1 = '/'.toUInt8 :: sent) :
    received ('/'.toUInt8 :: sent) = some (if u.rawPath ≠ [] then u.rawPath else u.path) := by
  obtain ⟨v, hv, hu⟩ := wire_eq_some h
  obtain ⟨hpath, hraw, -⟩ := parseNoFragment_eq_some hu
  obtain ⟨hsend, -, -⟩ := parseNoFragment_eq_some hv
  rw [hsent] at hsend
  have hslash : ∃ p, v.path = '/'.toUInt8 :: p := by
    rw [unescape_cons (by decide)] at hsend
    obtain ⟨p, -, hp⟩ := Option.map_eq_some_iff.mp hsend
    exact ⟨p, hp.symm⟩
  obtain ⟨p, hp⟩ := hslash
  have hstar : v.path ≠ utf8 "*" := by
    rw [hp]
    intro he
    exact absurd (show some '/'.toUInt8 = (utf8 "*").head? from congrArg List.head? he) (by decide)
  have hescaped := Url.escapedPath_eq hv hstar
  rw [hsent] at hescaped
  have hne : v.escapedPath ≠ [] := by
    rw [hescaped]
    split
    · nofun
    · rw [Ne, escapePath_eq_nil, hp]
      nofun
  rw [Url.cut_requestURI, if_neg hne] at hpath hraw
  dsimp only at hpath hraw
  unfold received
  rw [hsend, Option.map_some]
  by_cases hvalid : validEncoded ('/'.toUInt8 :: sent) = true
  · rw [if_pos hvalid] at hescaped
    rw [hescaped, hsend, Option.some.injEq] at hpath
    rw [hraw, hescaped, ← hpath]
    by_cases hesc : '/'.toUInt8 :: sent = escapePath v.path
    · rw [if_pos hesc, if_neg fun h => h.2 hesc.symm, if_neg fun h => h rfl]
    · rw [if_neg hesc, if_pos ⟨hvalid, fun he => hesc he.symm⟩, if_pos nofun]
  · rw [if_neg hvalid] at hescaped
    rw [hescaped, unescape_escapePath, Option.some.injEq] at hpath
    rw [hraw, hescaped, ← hpath, if_pos rfl, if_neg fun h => hvalid h.1, if_neg fun h => h rfl]

/-- What stands before a path as it is stays before it. -/
theorem received_append {pre : Bytes} (hpre : ∀ b ∈ pre, pathSafe b = true) (s : Bytes) :
    received (pre ++ s) = (received s).map (pre ++ ·) := by
  have hescape : ∀ p, escapePath (pre ++ p) = pre ++ escapePath p := by
    intro p
    induction pre with
    | nil => rfl
    | cons b pre ih =>
        rw [List.cons_append, escapePath, List.flatMap_cons, if_pos (hpre b List.mem_cons_self),
          List.singleton_append]
        exact congrArg (b :: ·) (ih fun c hc => hpre c (List.mem_cons_of_mem _ hc))
  have hunescape : unescape false (pre ++ s) = (unescape false s).map (pre ++ ·) := by
    clear hescape
    induction pre with
    | nil => simp
    | cons b pre ih =>
        rw [List.cons_append, unescape_cons (ne_percent_of_pathSafe (hpre b List.mem_cons_self)),
          ih fun c hc => hpre c (List.mem_cons_of_mem _ hc), Option.map_map]
        rfl
  have hvalid : validEncoded (pre ++ s) = validEncoded s := by
    have hall : validEncoded pre = true :=
      List.all_eq_true.mpr fun b hb => decide_eq_true (Or.inr (hpre b hb))
    unfold validEncoded at hall ⊢
    rw [List.all_append, hall, Bool.true_and]
  unfold received
  rw [hunescape, hvalid, Option.map_map, Option.map_map]
  refine congrArg (Option.map · _) (funext fun p => ?_)
  simp only [Function.comp_apply, hescape, ne_eq, List.append_cancel_left_eq]
  split <;> rfl

/-- Decoding makes a text shorter, if there is anything to decode. -/
theorem length_unescape {s p : Bytes} (h : unescape false s = some p) :
    p.length ≤ s.length ∧ ('%'.toUInt8 ∈ s → p.length < s.length) := by
  induction s using unescape.induct false generalizing p with
  | case1 =>
      cases h
      exact ⟨Nat.le_refl _, fun hmem => absurd hmem List.not_mem_nil⟩
  | case2 x y s ih =>
      rw [unescape, if_pos rfl] at h
      obtain ⟨high, -, h⟩ := Option.bind_eq_some_iff.mp h
      obtain ⟨low, -, h⟩ := Option.bind_eq_some_iff.mp h
      obtain ⟨q, hq, h⟩ := Option.bind_eq_some_iff.mp h
      cases h
      have hlt : q.length + 1 < s.length + 3 := by
        have := (ih hq).1
        omega
      exact ⟨Nat.le_of_lt hlt, fun _ => hlt⟩
  | case3 s hs =>
      simp [unescape.eq_def] at h
  | case4 b s _ hplus => exact absurd hplus.1 Bool.false_ne_true
  | case5 b s hb _ ih =>
      rw [unescape_cons hb] at h
      obtain ⟨q, hq, rfl⟩ := Option.map_eq_some_iff.mp h
      obtain ⟨hle, hlt⟩ := ih hq
      refine ⟨Nat.succ_le_succ hle, fun hmem => Nat.succ_lt_succ (hlt ?_)⟩
      exact (List.mem_cons.mp hmem).resolve_left fun he => hb he.symm

theorem length_received {s seen : Bytes} (h : received s = some seen) : seen.length ≤ s.length := by
  obtain ⟨p, hp, rfl⟩ := Option.map_eq_some_iff.mp h
  split
  · exact Nat.le_refl _
  · exact (length_unescape hp).1

/-- A path that arrives as it was sent: nothing in it is decoded, or it is an encoding that is
not the usual one, and the characters in it are fit to be sent. -/
def Kept (s : Bytes) : Prop :=
  '%'.toUInt8 ∉ s ∨ (validEncoded s ∧ (unescape false s).map escapePath ≠ some s)

instance (s : Bytes) : Decidable (Kept s) := inferInstanceAs (Decidable (_ ∨ _))

theorem received_eq_self {s seen : Bytes} (h : received s = some seen) : seen = s ↔ Kept s := by
  obtain ⟨p, hp, rfl⟩ := Option.map_eq_some_iff.mp h
  unfold Kept
  by_cases hpercent : '%'.toUInt8 ∈ s
  · have hne : p ≠ s := by
      rintro rfl
      exact absurd ((length_unescape hp).2 hpercent) (Nat.lt_irrefl _)
    simp [hpercent, hp, hne]
  · have hself : unescape false s = some s := unescape_plain hpercent (fun h => by cases h)
    rw [hself, Option.some.injEq] at hp
    simp [hpercent, ← hp]

/-! ## URLs that arrive whole -/

theorem cut_append_left {c : UInt8} {s : Bytes} (h : c ∉ s) (t : Bytes) :
    cut c (s ++ t) = (s ++ (cut c t).1, (cut c t).2) := by
  induction s with
  | nil => rfl
  | cons b s ih =>
      have hb : b ≠ c := fun he => h (he ▸ List.mem_cons_self)
      have hs : c ∉ s := fun hc => h (List.mem_cons_of_mem _ hc)
      rw [List.cons_append, cut, if_neg hb, ih hs]
      rfl

/-- A query that can be sent: it does not end there, and the request line holds it. -/
def QuerySafe (q : Bytes) : Prop := hasControl q = false ∧ '#'.toUInt8 ∉ q ∧ ' '.toUInt8 ∉ q

instance (q : Bytes) : Decidable (QuerySafe q) := inferInstanceAs (Decidable (_ ∧ _))

/-- A reference with a path and a query, if there is one. -/
def reference (p q : Bytes) : Bytes := if q = [] then p else p ++ '?'.toUInt8 :: q

section

variable {p q : Bytes}

/-- Bytes of a path are none of those that mean something. -/
theorem pathSafe_ne {b : UInt8} (h : pathSafe b = true) :
    (¬ (b < 0x20 ∨ b = 0x7F)) ∧ b ≠ '?'.toUInt8 ∧ b ≠ '#'.toUInt8 ∧ b ≠ ' '.toUInt8 := by
  have hall : ∀ n < 256, pathSafe (UInt8.ofNat n) = true →
      (¬ (UInt8.ofNat n < 0x20 ∨ UInt8.ofNat n = 0x7F)) ∧ UInt8.ofNat n ≠ '?'.toUInt8 ∧
        UInt8.ofNat n ≠ '#'.toUInt8 ∧ UInt8.ofNat n ≠ ' '.toUInt8 := by decide +kernel
  have hb := hall b.toNat b.toNat_lt
  rw [UInt8.ofNat_toNat] at hb
  exact hb h

theorem escapePath_safe (hp : ∀ b ∈ p, pathSafe b = true) : escapePath p = p := by
  induction p with
  | nil => rfl
  | cons b p ih =>
      rw [escapePath, List.flatMap_cons, if_pos (hp b List.mem_cons_self), List.singleton_append]
      exact congrArg (b :: ·) (ih fun c hc => hp c (List.mem_cons_of_mem _ hc))

theorem hasControl_reference (hp : ∀ b ∈ p, pathSafe b = true) (hq : hasControl q = false) :
    hasControl (reference p q) = false := by
  have hpath : hasControl p = false := by
    rw [hasControl, List.any_eq_false]
    intro b hb hbad
    exact (pathSafe_ne (hp b hb)).1 (of_decide_eq_true hbad)
  unfold reference
  split
  · exact hpath
  · have hmark : hasControl ('?'.toUInt8 :: q) = hasControl q := rfl
    unfold hasControl at hpath hmark hq ⊢
    rw [List.any_append, hpath, hmark, hq]
    rfl

theorem parseNoFragment_reference (hp : ∀ b ∈ p, pathSafe b = true) (hq : hasControl q = false) :
    parseNoFragment (reference p q) = some ⟨p, [], q, false⟩ := by
  have hmark : '?'.toUInt8 ∉ p := fun hmem => (pathSafe_ne (hp _ hmem)).2.1 rfl
  have hpercent : '%'.toUInt8 ∉ p := fun hmem => ne_percent_of_pathSafe (hp _ hmem) rfl
  have hcut : cut '?'.toUInt8 (reference p q) = (p, q) := by
    unfold reference
    split
    · next hnil => rw [cut_eq_self hmark, hnil]
    · exact cut_append hmark q
  have hforce : ¬ (q = [] ∧ '?'.toUInt8 ∈ reference p q) := by
    rintro ⟨rfl, hmem⟩
    exact hmark hmem
  have hpath : unescape false p = some p := unescape_plain hpercent (fun h => by cases h)
  unfold parseNoFragment
  rw [hasControl_reference hp hq, hcut]
  simp [hpath, escapePath_safe hp, hforce]

/-- A path of plain characters and a query that can be sent arrive as they are. -/
theorem wire_reference (hslash : ∃ rest, p = '/'.toUInt8 :: rest)
    (hp : ∀ b ∈ p, pathSafe b = true) (hq : QuerySafe q) :
    wire (reference p q) = some ⟨p, [], q, false⟩ := by
  obtain ⟨hcontrol, hfragment, hblank⟩ := hq
  have hmem : ∀ c ∉ p, c ≠ '?'.toUInt8 → c ∉ q → c ∉ reference p q := by
    intro c hcp hne hcq hmem
    unfold reference at hmem
    split at hmem
    · exact hcp hmem
    · rcases List.mem_append.mp hmem with hmem | hmem
      · exact hcp hmem
      · rcases List.mem_cons.mp hmem with he | hmem
        · exact hne he
        · exact hcq hmem
  have hwhole : '#'.toUInt8 ∉ reference p q :=
    hmem _ (fun hmem => (pathSafe_ne (hp _ hmem)).2.2.1 rfl) (by decide) hfragment
  have hline : ' '.toUInt8 ∉ reference p q :=
    hmem _ (fun hmem => (pathSafe_ne (hp _ hmem)).2.2.2 rfl) (by decide) hblank
  have hparsed := parseNoFragment_reference hp hcontrol
  have hsent : parse (reference p q) = some ⟨p, [], q, false⟩ := by
    unfold parse
    rw [cut_eq_self hwhole]
    simp [hparsed, unescape]
  have huri : Url.requestURI ⟨p, [], q, false⟩ = reference p q := by
    obtain ⟨rest, rfl⟩ := hslash
    have hstar : '/'.toUInt8 :: rest ≠ utf8 "*" := by
      intro he
      exact absurd (show some '/'.toUInt8 = (utf8 "*").head? from congrArg List.head? he)
        (by decide)
    have hescaped : Url.escapedPath ⟨'/'.toUInt8 :: rest, [], q, false⟩ = '/'.toUInt8 :: rest := by
      simp [Url.escapedPath, hstar, escapePath_safe hp]
    unfold Url.requestURI reference
    rw [hescaped]
    by_cases hnil : q = []
    · simp [hnil]
    · simp [hnil]
  unfold wire
  rw [hsent, Option.bind_eq_bind, Option.bind_some, huri, parseRequestURI, if_neg hline]
  exact hparsed

end

end Net
