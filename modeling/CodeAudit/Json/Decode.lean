import CodeAudit.Json.Basic
import CodeAudit.Text.Quoted
/-!
# Typed values from JSON

A decoder reads a typed value out of a JSON value, or says why it cannot. A record is read from an
object, field by field, or from a list of the field values in their order. The fields of an object
are looked at in the order of their names, so of several bad ones the first in that order is
reported; fields that are missing are reported after that, in the order of the record.
-/
namespace CodeAudit.Json

/-- Why a value cannot be read. -/
inductive DecodeError where
  /-- A value of another type. -/
  | wrongType (got : Json) (want : String)
  /-- An integer that the type does not hold. -/
  | outOfRange (n : Int) (want : String)
  /-- An object in the place of a variant that does not have exactly one field. -/
  | notOneVariant
  | unknownVariant (name : String) (variants : List String)
  | missingField (name : String)
  /-- A list with too few items for a record. -/
  | tooFewItems (given : Nat) (record : String) (fields : Nat)
  /-- A list with too many items for a record. -/
  | tooManyItems (given : Nat)
  /-- A text that is not in the format of its type. -/
  | badFormat (reason : String)
deriving Inhabited

/-- A value as a message names it. -/
def describe : Json → String
  | null => "null"
  | bool b => "boolean `" ++ (if b then "true" else "false") ++ "`"
  | int n => "integer `" ++ toString n ++ "`"
  | float x => "floating point `" ++ Decimal.json x ++ "`"
  | text s => "string " ++ Text.quoted s
  | list _ => "sequence"
  | object _ => "map"

/-- The variants of a type as a message names them. -/
def describeVariants (variants : List String) : String :=
  let ticked := variants.map fun v => "`" ++ v ++ "`"
  match ticked with
  | [] => "no variants"
  | [one] => one
  | [one, two] => one ++ " or " ++ two
  | _ => "one of " ++ ", ".intercalate ticked

namespace DecodeError

/-- The text of an error. -/
def message : DecodeError → String
  | wrongType got want => "invalid type: " ++ got.describe ++ ", expected " ++ want
  | outOfRange n want => "invalid value: integer `" ++ toString n ++ "`, expected " ++ want
  | notOneVariant => "invalid value: map, expected map with a single key"
  | unknownVariant name variants =>
    match variants with
    | [] => "unknown variant `" ++ name ++ "`, there are no variants"
    | _ => "unknown variant `" ++ name ++ "`, expected " ++ describeVariants variants
  | missingField name => "missing field `" ++ name ++ "`"
  | tooFewItems given record fields =>
    "invalid length " ++ toString given ++ ", expected struct " ++ record ++ " with "
      ++ toString fields ++ (if fields = 1 then " element" else " elements")
  | tooManyItems given =>
    "invalid length " ++ toString given ++ ", expected fewer elements in array"
  | badFormat reason => reason

end DecodeError

/-- Reads a value of a type out of a JSON value. -/
abbrev Decoder (α : Type) := Json → Except DecodeError α

namespace Decoder

/-- Takes the value as it is. -/
def value : Decoder Json := .ok

def boolean : Decoder Bool
  | .bool b => .ok b
  | other => .error (.wrongType other "a boolean")

def string : Decoder String
  | .text s => .ok s
  | other => .error (.wrongType other "a string")

/-- An integer from `least` to `greatest`. -/
def integer (want : String) (least greatest : Int) : Decoder Int
  | .int n => if least ≤ n ∧ n ≤ greatest then .ok n else .error (.outOfRange n want)
  | other => .error (.wrongType other want)

/-- An unsigned integer of the given number of bits. -/
def natural (want : String) (bits : Nat) : Decoder Nat := fun v =>
  (integer want 0 (Int.pow 2 bits - 1) v).map Int.toNat

/-- A 32-bit number that is not negative. -/
def nat32 : Decoder Nat := natural "u32" 32

/-- A 64-bit number that is not negative. -/
def nat64 : Decoder Nat := natural "u64" 64

/-- A count or a place in a text. -/
def size : Decoder Nat := natural "usize" 64

/-- A 32-bit number with a sign. -/
def int32 : Decoder Int := integer "i32" (-Int.pow 2 31) (Int.pow 2 31 - 1)

/-- The floating-point number nearest to an integer of at most 64 bits. -/
def floatOfInt (n : Int) : Float :=
  if n < 0 then -(n.natAbs.toUInt64.toFloat) else n.toNat.toUInt64.toFloat

/-- A floating-point number; an integer is one too. -/
def float : Decoder Float
  | .float x => .ok x
  | .int n => .ok (floatOfInt n)
  | other => .error (.wrongType other "f64")

/-- Null for none. -/
def optional {α : Type} (decode : Decoder α) : Decoder (Option α)
  | .null => .ok none
  | other => (decode other).map some

/-- A list of values. -/
def listOf {α : Type} (decode : Decoder α) : Decoder (List α)
  | .list items => items.mapM decode
  | other => .error (.wrongType other "a sequence")

/-- An object whose fields all have values of one type. -/
def mapOf {α : Type} (decode : Decoder α) : Decoder (List (String × α))
  | .object fields => fields.mapM fun (name, value) => (decode value).map (name, ·)
  | other => .error (.wrongType other "a map")

/-- The variant of the given name. -/
def variantNamed {α : Type} (variants : List (String × α)) (name : String) : Except DecodeError α :=
  match variants.find? (·.1 == name) with
  | some (_, a) => .ok a
  | none => .error (.unknownVariant name (variants.map Prod.fst))

/-- A variant, by its name; an object of one field with that name and a null is accepted too. -/
def variant {α : Type} (variants : List (String × α)) : Decoder α
  | .text name => variantNamed variants name
  | .object [(name, payload)] =>
    match variantNamed variants name, payload with
    | .ok a, .null => .ok a
    | .ok _, other => .error (.wrongType other "unit")
    | .error e, _ => .error e
  | .object _ => .error .notOneVariant
  | other => .error (.wrongType other "string or map")

end Decoder

/-- What comes of reading some fields out of an object. -/
inductive Outcome (α : Type) where
  | value (a : α)
  /-- A field that has to be there is not. -/
  | missing (name : String)
  /-- The value of a field is bad. -/
  | bad (name : String) (error : DecodeError)

namespace Outcome

variable {α β : Type}

/-- Two outcomes together: the bad field whose name comes first, else the first missing one. -/
def seq : Outcome (α → β) → Outcome α → Outcome β
  | bad m d, bad n e => if n < m then bad n e else bad m d
  | bad m d, _ => bad m d
  | _, bad n e => bad n e
  | missing m, _ => missing m
  | _, missing n => missing n
  | value f, value a => value (f a)

end Outcome

/-- Why some items of a list cannot be read as fields. -/
inductive ItemError where
  /-- The items end before the field with this number. -/
  | ended (index : Nat)
  | bad (error : DecodeError)

/-- How some fields of a record are read, in the order of the record. -/
structure Fields (α : Type) where
  /-- The number of the fields. -/
  count : Nat
  /-- Reads them out of the fields of an object. -/
  ofObject : List (String × Json) → Outcome α
  /-- Reads them out of a list, the first having the given number, and gives the items after them. -/
  ofItems : Nat → List Json → Except ItemError (α × List Json)

namespace Fields

variable {α β : Type}

/-- No field. -/
def pure (a : α) : Fields α where
  count := 0
  ofObject _ := .value a
  ofItems _ items := .ok (a, items)

/-- Some fields, then some more. -/
def seq (f : Fields (α → β)) (x : Fields α) : Fields β where
  count := f.count + x.count
  ofObject fields := (f.ofObject fields).seq (x.ofObject fields)
  ofItems index items :=
    match f.ofItems index items with
    | .error e => .error e
    | .ok (g, rest) =>
      match x.ofItems (index + f.count) rest with
      | .error e => .error e
      | .ok (a, rest) => .ok (g a, rest)

instance : Applicative Fields where
  pure := pure
  seq f x := seq f (x ())

/-- A field that is read by `decode`; if it is not there, `absent` says what to take. -/
def field (name : String) (decode : Decoder α) (absent : Option α) : Fields α where
  count := 1
  ofObject fields :=
    match NameMap.get? name fields with
    | some value =>
      match decode value with
      | .ok a => .value a
      | .error e => .bad name e
    | none =>
      match absent with
      | some a => .value a
      | none => .missing name
  ofItems index items :=
    match items with
    | value :: rest =>
      match decode value with
      | .ok a => .ok (a, rest)
      | .error e => .error (.bad e)
    | [] =>
      match absent with
      | some a => .ok (a, [])
      | none => .error (.ended index)

/-- A field that has to be there. -/
def required (name : String) (decode : Decoder α) : Fields α :=
  field name decode none

/-- A field that may be left out. -/
def defaulted (name : String) (decode : Decoder α) (default : α) : Fields α :=
  field name decode (some default)

end Fields

/-- Reads a record; `surplus` says whether a list may have items after the last field. -/
def Decoder.recordWith {α : Type} (surplus : Bool) (name : String) (fields : Fields α) : Decoder α
  | .object given =>
    match fields.ofObject given with
    | .value a => .ok a
    | .missing field => .error (.missingField field)
    | .bad _ e => .error e
  | .list items =>
    match fields.ofItems 0 items with
    | .ok (a, rest) =>
      if surplus ∨ rest.isEmpty then .ok a else .error (.tooManyItems items.length)
    | .error (.ended index) => .error (.tooFewItems index name fields.count)
    | .error (.bad e) => .error e
  | other => .error (.wrongType other ("struct " ++ name))

/-- Reads a record. -/
def Decoder.record {α : Type} (name : String) (fields : Fields α) : Decoder α :=
  recordWith false name fields

/-- Reads a record; items of a list after the last field are passed over. -/
def Decoder.openRecord {α : Type} (name : String) (fields : Fields α) : Decoder α :=
  recordWith true name fields

end CodeAudit.Json
