import CodeAudit.Json.Decode
import CodeAudit.Proofs.NameMap
/-!
# Shapes of JSON values

A shape says where the records of a JSON value are and which fields they have. A value is widened when
fields of other names are put into its records, at any depth, and nothing else is changed.
-/
namespace CodeAudit.Json

/-- Where the records of a value are. -/
inductive Shape where
  /-- A value that is read as a whole. -/
  | whole
  | list (item : Shape)
  /-- An object with some fields. Those of the optional ones that are empty are left out; the spare
  ones are always written, but may be missing in what is read. -/
  | record (fields : List (String × Shape)) (optional spare : List String)

/-- The value of a field of an object. -/
def field? (name : String) : Json → Option Json
  | .object fields => NameMap.get? name fields
  | _ => none

namespace Shape

mutual

/-- The second value is the first one with more fields in its records. -/
def Widens : Shape → Json → Json → Prop
  | whole, j, j' => j' = j
  | list item, .list items, .list items' => List.Forall₂ (fun j j' => Widens item j j') items items'
  | record fields _ _, .object given, .object given' => WidensFields fields given given'
  | _, _, _ => False

/-- The fields of these names are in both objects or in neither, and nothing but wider. -/
def WidensFields : List (String × Shape) → NameMap Json → NameMap Json → Prop
  | [], _, _ => True
  | (name, shape) :: rest, given, given' =>
    Option.Rel (fun j j' => Widens shape j j') (NameMap.get? name given) (NameMap.get? name given') ∧
      WidensFields rest given given'

end

mutual

/-- The value has the shape, and no field that the shape does not have. -/
def Fits : Shape → Json → Prop
  | whole, _ => True
  | list item, .list items => ∀ j ∈ items, Fits item j
  | record fields optional _, .object given =>
    (∀ name, NameMap.get? name given ≠ none → name ∈ fields.map Prod.fst) ∧
      (∀ name ∈ fields.map Prod.fst, name ∉ optional → NameMap.get? name given ≠ none) ∧
      FitsFields fields given
  | _, _ => False

/-- The values of these names fit, where there are such. -/
def FitsFields : List (String × Shape) → NameMap Json → Prop
  | [], _ => True
  | (name, shape) :: rest, given =>
    (∀ j, NameMap.get? name given = some j → Fits shape j) ∧ FitsFields rest given

end

mutual

/-- No object in the place of a record lacks a field that is neither optional nor spare. -/
def Complete : Shape → Json → Prop
  | list item, .list items => ∀ j ∈ items, Complete item j
  | record fields optional spare, .object given =>
    (∀ name ∈ fields.map Prod.fst, name ∉ optional ++ spare → NameMap.get? name given ≠ none) ∧
      CompleteFields fields given
  | _, _ => True

/-- The values of these names are complete, where there are such. -/
def CompleteFields : List (String × Shape) → NameMap Json → Prop
  | [], _ => True
  | (name, shape) :: rest, given =>
    (∀ j, NameMap.get? name given = some j → Complete shape j) ∧ CompleteFields rest given

end

variable {fields : List (String × Shape)} {optional spare : List String} {given given' : NameMap Json}

/-- The fields of an object are widened if each of them is. -/
lemma widensFields_iff :
    WidensFields fields given given' ↔ ∀ field ∈ fields,
      Option.Rel field.2.Widens (NameMap.get? field.1 given) (NameMap.get? field.1 given') := by
  induction fields with
  | nil => simp [WidensFields]
  | cons field rest ih => rw [WidensFields, ih, List.forall_mem_cons]

/-- The fields of an object fit if each one that is there does. -/
lemma fitsFields_iff :
    FitsFields fields given ↔ ∀ field ∈ fields, ∀ j, NameMap.get? field.1 given = some j →
      field.2.Fits j := by
  induction fields with
  | nil => simp [FitsFields]
  | cons field rest ih => rw [FitsFields, ih, List.forall_mem_cons]

/-- The fields of an object are complete if each one that is there is. -/
lemma completeFields_iff :
    CompleteFields fields given ↔ ∀ field ∈ fields, ∀ j, NameMap.get? field.1 given = some j →
      field.2.Complete j := by
  induction fields with
  | nil => simp [CompleteFields]
  | cons field rest ih => rw [CompleteFields, ih, List.forall_mem_cons]

/-- What is a record stays one when it is widened, and each of its fields is widened. -/
lemma widens_record_iff {j : Json} :
    (record fields optional spare).Widens (.object given) j ↔ ∃ given', j = .object given' ∧
      ∀ field ∈ fields, Option.Rel field.2.Widens (NameMap.get? field.1 given)
        (NameMap.get? field.1 given') := by
  cases j with
  | object given' =>
    rw [Widens, widensFields_iff]
    simp
  | _ => simp [Widens]

/-- A list is widened item by item. -/
lemma widens_list_iff {item : Shape} {items : List Json} {j : Json} :
    (list item).Widens (.list items) j ↔ ∃ items', j = .list items' ∧
      List.Forall₂ item.Widens items items' := by
  cases j with
  | list items' => simp [Widens]
  | _ => simp [Widens]

mutual

/-- A value that has a shape is one of those that it is widened to. -/
lemma Fits.widens_refl : ∀ {shape : Shape} {j : Json}, shape.Fits j → shape.Widens j j
  | whole, _, _ => rfl
  | list _, .list _, h =>
    List.forall₂_same.2 fun j hj => Fits.widens_refl (h j hj)
  | record _ _ _, .object _, h => FitsFields.widens_refl h.2.2

/-- Fields that fit are widened to themselves. -/
lemma FitsFields.widens_refl : ∀ {fields : List (String × Shape)} {given : NameMap Json},
    FitsFields fields given → WidensFields fields given given
  | [], _, _ => trivial
  | (name, shape) :: rest, given, h => by
    refine ⟨?_, FitsFields.widens_refl h.2⟩
    cases hvalue : NameMap.get? name given with
    | none => exact .none
    | some j => exact .some (Fits.widens_refl (h.1 j hvalue))

end

end Shape

end CodeAudit.Json
