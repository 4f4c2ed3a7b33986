/-
# `BranchDB.Json` — request bodies

`encoding/json` as the handlers use it: `json.NewDecoder(r.Body).Decode(&req)` reads the
first JSON value of the body and stores it into a struct.  A body that does not begin with
one leaves the struct as it was.  Of an object, each member whose key is a field's name (up
to case) is stored there; a value of the wrong type is passed over, and reported when the
rest has been stored.  Strings stand for themselves, numbers for their literals.
-/
import Mathlib.Algebra.Group.Int.Defs
import Mathlib.Data.List.Basic

namespace BranchDB

inductive Json
  | null
  | bool (b : Bool)
  | number (literal : String)
  | string (s : String)
  | array (items : List Json)
  | object (members : List (String × Json))

/-- What the decoder finds in a request: its first JSON value, if it begins with one. -/
abbrev Body := Option Json

/-! ## Writing -/

/-- One character of a string; those that mean something in HTML are escaped as well. -/
def escapeChar : Char → String
  | '"' => "\\\""
  | '\\' => "\\\\"
  | '\n' => "\\n"
  | '\r' => "\\r"
  | '\t' => "\\t"
  | '\x08' => "\\b"
  | '\x0c' => "\\f"
  | c =>
    if c < ' ' ∨ c ∈ ['<', '>', '&', '\u2028', '\u2029'] then
      let digits := Nat.toDigits 16 c.toNat
      "\\u" ++ String.ofList (List.replicate (4 - digits.length) '0' ++ digits)
    else c.toString

def renderString (s : String) : String := "\"" ++ String.join (s.toList.map escapeChar) ++ "\""

namespace Json

mutual

/-- `json.Marshal`. -/
def render : Json → String
  | .null => "null"
  | .bool b => if b then "true" else "false"
  | .number literal => literal
  | .string s => renderString s
  | .array items => "[" ++ ",".intercalate (renderItems items) ++ "]"
  | .object members => "\x7b" ++ ",".intercalate (renderMembers members) ++ "\x7d"

def renderItems : List Json → List String
  | [] => []
  | item :: items => item.render :: renderItems items

def renderMembers : List (String × Json) → List String
  | [] => []
  | (key, value) :: members => (renderString key ++ ":" ++ value.render) :: renderMembers members

end

example : (object [("error", .string "a < \"b\"")]).render =
    "\x7b\"error\":\"a \\u003c \\\"b\\\"\"\x7d" := by decide +kernel

end Json

/-! ## Reading -/

/-- What a key is compared by.  Besides the ASCII capitals, two letters fold to ASCII. -/
def foldName (key : String) : List Char :=
  key.toList.map fun c => if c = 'ſ' then 's' else if c = '\u212A' then 'k' else c.toLower

/-- The `int` a number literal denotes. -/
def parseInt (literal : String) : Option Int :=
  literal.toInt?.filter fun n => -2 ^ 63 ≤ n ∧ n < 2 ^ 63

/-- A field of a struct, by its tag; `store` fails on a value of the wrong type. -/
structure Field (α : Type) where
  tag : String
  store : Json → α → Option α

namespace Field

variable {α : Type} (tag : String)

def string (set : String → α → α) : Field α where
  tag := tag
  store
    | .string s, x => some (set s x)
    | .null, x => some x
    | _, _ => none

def int (set : Int → α → α) : Field α where
  tag := tag
  store
    | .number literal, x => (parseInt literal).map (set · x)
    | .null, x => some x
    | _, _ => none

def bool (set : Bool → α → α) : Field α where
  tag := tag
  store
    | .bool b, x => some (set b x)
    | .null, x => some x
    | _, _ => none

/-- A slice of strings. -/
def strings (set : List String → α → α) : Field α where
  tag := tag
  store
    | .array values, x => (values.mapM element).map (set · x)
    | .null, x => some (set [] x)
    | _, _ => none
where
  element : Json → Option String
    | .string s => some s
    | .null => some ""
    | _ => none

end Field

/-- A struct after decoding, and whether `Decode` returned nil. -/
structure Decoded (α : Type) where
  value : α
  ok : Bool

def decodeMember {α : Type} (fields : List (Field α)) (d : Decoded α) (member : String × Json) :
    Decoded α :=
  match fields.find? fun f => foldName f.tag = foldName member.1 with
  | none => d
  | some f =>
    match f.store member.2 d.value with
    | some value => { d with value }
    | none => { d with ok := false }

/-- Decode into a struct that was `zero`. -/
def decode {α : Type} (fields : List (Field α)) (zero : α) : Body → Decoded α
  | none => ⟨zero, false⟩
  | some .null => ⟨zero, true⟩
  | some (.object members) => members.foldl (decodeMember fields) ⟨zero, true⟩
  | some _ => ⟨zero, false⟩

/-- Decode into a slice of structs that was nil. -/
def decodeSlice {α : Type} (fields : List (Field α)) (zero : α) : Body → Decoded (List α)
  | none => ⟨[], false⟩
  | some .null => ⟨[], true⟩
  | some (.array items) =>
    let decoded := items.map fun item => decode fields zero (some item)
    ⟨decoded.map (·.value), decoded.all (·.ok)⟩
  | some _ => ⟨[], false⟩

end BranchDB
