import CodeAudit.Proofs.Except
import CodeAudit.Proofs.Json.Shape
/-!
# Reading what has been written

A decoder reads a JSON value of some shape as a typed value if it does so however the value is widened.
Records are read field by field, so it is enough to know this of the values of their fields, and of the
fields that have been left out that the decoder puts the right values in their places.
-/
namespace CodeAudit.Json

variable {α β : Type}

/-- The value has the shape, and the decoder reads it as the given one, however it is widened. -/
structure Reads (shape : Shape) (decode : Decoder α) (j : Json) (a : α) : Prop where
  fits : shape.Fits j
  widened : ∀ j', shape.Widens j j' → decode j' = .ok a

/-- A value that is read however it is widened is read as it is. -/
lemma Reads.self {shape : Shape} {decode : Decoder α} {j : Json} {a : α}
    (h : Reads shape decode j a) : decode j = .ok a :=
  h.widened j h.fits.widens_refl

/-- A value without records is never widened. -/
lemma Reads.whole {decode : Decoder α} {j : Json} {a : α} (h : decode j = .ok a) :
    Reads .whole decode j a := by
  refine ⟨trivial, ?_⟩
  rintro j' rfl
  exact h

/-- An optional value that is there is read as one that has to be, unless null could be read as well. -/
lemma Reads.optional {shape : Shape} {decode : Decoder α} {j : Json} {a : α}
    (h : Reads shape decode j a) (hnull : ∀ a, decode .null ≠ .ok a) :
    Reads shape (Decoder.optional decode) j (some a) := by
  refine ⟨h.fits, fun j' hj' => ?_⟩
  have hread := h.widened j' hj'
  cases j' with
  | null => exact absurd hread (hnull a)
  | _ =>
    show (decode _).map some = _
    rw [hread]
    rfl

/-- A list is read item by item. -/
lemma Reads.list {item : Shape} {decode : Decoder α} {encode : α → Json} {as : List α}
    (h : ∀ a ∈ as, Reads item decode (encode a) a) :
    Reads (.list item) (Decoder.listOf decode) (.list (as.map encode)) as := by
  refine ⟨List.forall_mem_map.2 fun a ha => (h a ha).fits, fun j' hj' => ?_⟩
  obtain ⟨items', rfl, hitems⟩ := Shape.widens_list_iff.1 hj'
  show items'.mapM decode = .ok as
  induction as generalizing items' with
  | nil =>
    obtain rfl := List.forall₂_nil_left_iff.1 hitems
    rfl
  | cons a rest ih =>
    obtain ⟨ha, hrest⟩ := List.forall_mem_cons.1 h
    obtain ⟨j, more, hj, hmore, rfl⟩ := List.forall₂_cons_left_iff.1 hitems
    rw [List.mapM_cons, ha.widened j hj,
      ih hrest more (Shape.widens_list_iff.2 ⟨more, rfl, hmore⟩) hmore]
    rfl

/-- The fields of an object are read as the given value, however they are widened. -/
structure FieldsRead (known : List (String × Shape)) (given : NameMap Json) (fields : Fields α)
    (a : α) : Prop where
  fits : ∀ field ∈ known, ∀ j, NameMap.get? field.1 given = some j → field.2.Fits j
  widened : ∀ given', (∀ field ∈ known, Option.Rel field.2.Widens (NameMap.get? field.1 given)
    (NameMap.get? field.1 given')) → fields.ofObject given' = .value a

section Fields

variable {known known' : List (String × Shape)} {given : NameMap Json} {name : String} {shape : Shape}
  {decode : Decoder α} {fallback : Option α} {a : α}

/-- The value of some fields can be mapped. -/
lemma FieldsRead.map {x : Fields α} (h : FieldsRead known given x a) (f : α → β) :
    FieldsRead known given (f <$> x) (f a) := by
  refine ⟨h.fits, fun given' hgiven' => ?_⟩
  show (Outcome.value f).seq (x.ofObject given') = _
  rw [h.widened given' hgiven']
  rfl

/-- What is read of some fields and of some others is put together. -/
lemma FieldsRead.seq {f : Fields (α → β)} {x : Fields α} {g : α → β}
    (hf : FieldsRead known given f g) (hx : FieldsRead known' given x a) :
    FieldsRead (known ++ known') given (f <*> x) (g a) := by
  refine ⟨List.forall_mem_append.2 ⟨hf.fits, hx.fits⟩, fun given' hgiven' => ?_⟩
  obtain ⟨hknown, hknown'⟩ := List.forall_mem_append.1 hgiven'
  show (f.ofObject given').seq (x.ofObject given') = _
  rw [hf.widened given' hknown, hx.widened given' hknown']
  rfl

/-- A field that is there is read by the decoder of its values. -/
lemma FieldsRead.present {j : Json} (hj : NameMap.get? name given = some j)
    (h : Reads shape decode j a) :
    FieldsRead [(name, shape)] given (Fields.field name decode fallback) a := by
  constructor
  case fits =>
    rw [List.forall_mem_singleton]
    rintro j' hj'
    obtain rfl := Option.some.inj (hj.symm.trans hj')
    exact h.fits
  case widened =>
    intro given' hgiven'
    have hrel := List.forall_mem_singleton.1 hgiven'
    rw [hj] at hrel
    cases hvalue : NameMap.get? name given' with
    | none =>
      rw [hvalue] at hrel
      exact absurd hrel nofun
    | some j' =>
      rw [hvalue] at hrel
      obtain ⟨hwidens⟩ := hrel
      simp only [Fields.field, hvalue, h.widened j' hwidens]

/-- A field that is not there takes the value that stands in for it. -/
lemma FieldsRead.absent (shape : Shape) (hnone : NameMap.get? name given = none) :
    FieldsRead [(name, shape)] given (Fields.field name decode (some a)) a := by
  constructor
  case fits =>
    rw [List.forall_mem_singleton]
    intro j hj
    exact absurd (hj.symm.trans hnone) (Option.some_ne_none j)
  case widened =>
    intro given' hgiven'
    have hrel := List.forall_mem_singleton.1 hgiven'
    rw [hnone] at hrel
    cases hvalue : NameMap.get? name given' with
    | none => simp only [Fields.field, hvalue]
    | some j' =>
      rw [hvalue] at hrel
      cases hrel

/-- A field that is left out if it has no value. -/
lemma FieldsRead.option {option : Option α} {encode : α → Json}
    (hgiven : NameMap.get? name given = option.map encode)
    (h : ∀ a ∈ option, Reads shape decode (encode a) a) (hnull : ∀ a, decode .null ≠ .ok a) :
    FieldsRead [(name, shape)] given (Fields.field name (Decoder.optional decode) (some none))
      option := by
  cases option with
  | none => exact .absent shape hgiven
  | some a => exact .present hgiven ((h a rfl).optional hnull)

/-- A list that is left out if it is empty. -/
lemma FieldsRead.list {as : List α} {encode : α → Json}
    (hgiven : NameMap.get? name given
      = if as.isEmpty then Option.none else some (.list (as.map encode)))
    (h : ∀ a ∈ as, Reads shape decode (encode a) a) :
    FieldsRead [(name, .list shape)] given (Fields.field name (Decoder.listOf decode) (some []))
      as := by
  cases as with
  | nil => exact .absent _ hgiven
  | cons a rest => exact .present hgiven (.list h)

/-- A field that is there or is left out, in which case the fallback takes its place. -/
lemma FieldsRead.kept {there : Prop} [Decidable there] {j : Json} {fallback : α}
    (hgiven : NameMap.get? name given = if there then some j else Option.none)
    (h : Reads shape decode j a) :
    FieldsRead [(name, shape)] given (Fields.field name decode (some fallback))
      (if there then a else fallback) := by
  by_cases hthere : there
  · rw [if_pos hthere] at hgiven ⊢
    exact .present hgiven h
  · rw [if_neg hthere] at hgiven ⊢
    exact .absent shape hgiven

/-- A record is read from an object that has its fields, whatever others it has. -/
lemma FieldsRead.record_eq_ok {label : String} {fields : Fields α}
    (h : FieldsRead known given fields a) :
    Decoder.record label fields (.object given) = .ok a := by
  have hvalue : fields.ofObject given = .value a := by
    apply h.widened
    intro field hfield
    cases hget : NameMap.get? field.1 given with
    | none => exact .none
    | some j => exact .some (h.fits field hfield j hget).widens_refl
  simp only [Decoder.record, Decoder.recordWith, hvalue]

end Fields

/-- A record is read if its fields are. -/
lemma Reads.record {label : String} {fields : Fields α} {read known : List (String × Shape)}
    {optional spare : List String} {pairs : List (String × Json)} {a : α}
    (h : FieldsRead read pairs fields a) (hread : read = known)
    (hnodup : (pairs.map Prod.fst).Nodup) (hin : pairs.map Prod.fst ⊆ known.map Prod.fst)
    (hall : ∀ name ∈ known.map Prod.fst, name ∉ optional → name ∈ pairs.map Prod.fst) :
    Reads (.record known optional spare) (Decoder.record label fields) (.ofFields pairs) a := by
  subst hread
  have hget (name : String) : NameMap.get? name (NameMap.ofList pairs) = NameMap.get? name pairs :=
    NameMap.get?_ofList hnodup name
  constructor
  case fits =>
    show (Shape.record read optional spare).Fits (.object _)
    simp only [Shape.Fits, hget, ne_eq, NameMap.get?_eq_none_iff, not_not, Shape.fitsFields_iff]
    exact ⟨fun name hname => hin hname, hall, h.fits⟩
  case widened =>
    intro j' hj'
    obtain ⟨given', rfl, hgiven'⟩ := Shape.widens_record_iff.1 hj'
    simp only [hget] at hgiven'
    simp only [Decoder.record, Decoder.recordWith, h.widened given' hgiven']

/-- A record of which no field may be left out. -/
lemma Reads.fullRecord {label : String} {fields : Fields α} {read known : List (String × Shape)}
    {spare : List String} {pairs : List (String × Json)} {a : α}
    (h : FieldsRead read pairs fields a) (hread : read = known)
    (hpairs : pairs.map Prod.fst = known.map Prod.fst) (hnodup : (known.map Prod.fst).Nodup) :
    Reads (.record known [] spare) (Decoder.record label fields) (.ofFields pairs) a :=
  .record h hread (hpairs ▸ hnodup) (hpairs ▸ List.Subset.refl _) fun _ hname _ => hpairs ▸ hname

section Values

variable {want : String} {bits n : Nat}

/-- A text is read as itself. -/
lemma Reads.string (text : String) : Reads .whole Decoder.string (.text text) text :=
  .whole rfl

/-- A truth value is read as itself. -/
lemma Reads.boolean (b : Bool) : Reads .whole Decoder.boolean (.bool b) b :=
  .whole rfl

/-- Where any value will do, it is read as itself. -/
lemma Reads.value (j : Json) : Reads .whole Decoder.value j j :=
  .whole rfl

/-- A whole number between the bounds is decoded as itself. -/
lemma integer_int {least greatest n : Int} (hleast : least ≤ n) (hgreatest : n ≤ greatest) :
    Decoder.integer want least greatest (.int n) = .ok n :=
  if_pos ⟨hleast, hgreatest⟩

/-- A whole number between the bounds is read as itself. -/
lemma Reads.integer {least greatest n : Int} (hleast : least ≤ n) (hgreatest : n ≤ greatest) :
    Reads .whole (Decoder.integer want least greatest) (.int n) n :=
  .whole (integer_int hleast hgreatest)

/-- A number that fits the bits of its type is read. -/
lemma natural_count (h : n < Nat.pow 2 bits) : Decoder.natural want bits (.count n) = .ok n := by
  have hle : (n : Int) ≤ Int.pow 2 bits - 1 := by
    have hpow : Int.pow 2 bits = ((Nat.pow 2 bits : Nat) : Int) := (Nat.cast_pow 2 bits).symm
    rw [hpow]
    omega
  show (Decoder.integer want 0 (Int.pow 2 bits - 1) (.int n)).map Int.toNat = _
  rw [integer_int (Int.natCast_nonneg n) hle]
  rfl

/-- A count that fits the bits is read as itself. -/
lemma Reads.natural (h : n < Nat.pow 2 bits) :
    Reads .whole (Decoder.natural want bits) (.count n) n :=
  .whole (natural_count h)

/-- A finite number is read as itself. -/
lemma Reads.float {x : Float} (h : x.isFinite = true) : Reads .whole Decoder.float (.ofFloat x) x := by
  apply Reads.whole
  rw [ofFloat, if_pos h]
  rfl

/-- The name of a variant is read as the variant. -/
lemma Reads.variant {variants : List (String × α)} {name : String} {a : α}
    (h : variants.find? (·.1 == name) = some (name, a)) :
    Reads .whole (Decoder.variant variants) (.text name) a := by
  apply Reads.whole
  show Decoder.variantNamed variants name = _
  rw [Decoder.variantNamed, h]

/-- A list of texts is read as it is. -/
lemma Reads.strings (texts : List String) :
    Reads (.list .whole) (Decoder.listOf Decoder.string) (.list (texts.map .text)) texts :=
  .list fun text _ => .string text

/-- What is written under names that come in order is read as it stands. -/
lemma Reads.mapOf {decode : Decoder α} {encode : α → Json} {entries : List (String × α)}
    (hsorted : NameMap.Sorted entries)
    (h : ∀ entry ∈ entries, decode (encode entry.2) = .ok entry.2) :
    Reads .whole (Decoder.mapOf decode)
      (.ofFields (entries.map fun (name, a) => (name, encode a))) entries := by
  apply Reads.whole
  have hmap : NameMap.Sorted (entries.map fun entry => (entry.1, encode entry.2)) := by
    rw [NameMap.Sorted, List.pairwise_map]
    exact hsorted
  show Decoder.mapOf decode (.object (NameMap.ofList (entries.map fun entry =>
    (entry.1, encode entry.2)))) = _
  rw [hmap.ofList_eq]
  show (entries.map fun entry => (entry.1, encode entry.2)).mapM _ = _
  clear hsorted hmap
  induction entries with
  | nil => rfl
  | cons entry rest ih =>
    obtain ⟨hentry, hrest⟩ := List.forall_mem_cons.1 h
    rw [List.map_cons, List.mapM_cons, ih hrest]
    show (Except.map _ (decode (encode entry.2))).bind _ = _
    rw [hentry]
    rfl

/-- Numbers by names that come in order are read as they stand. -/
lemma Reads.counts {entries : List (String × Nat)} (hsorted : NameMap.Sorted entries)
    (h : ∀ entry ∈ entries, entry.2 < Nat.pow 2 bits) :
    Reads .whole (Decoder.mapOf (Decoder.natural want bits))
      (.ofFields (entries.map fun (name, n) => (name, .count n))) entries :=
  .mapOf hsorted fun entry hentry => natural_count (h entry hentry)

end Values

/-- What is read of two groups of fields together is read of each of them. -/
lemma Outcome.seq_eq_value {f : Outcome (α → β)} {x : Outcome α} {b : β}
    (h : f.seq x = .value b) : ∃ g a, f = .value g ∧ x = .value a ∧ g a = b := by
  cases f with
  | value g =>
    cases x with
    | value a => exact ⟨g, a, rfl, rfl, Outcome.value.inj h⟩
    | missing name => exact absurd h nofun
    | bad name error => exact absurd h nofun
  | missing name => cases x <;> exact absurd h nofun
  | bad name error =>
    cases x with
    | bad name' error' =>
      rw [seq] at h
      split at h <;> exact absurd h nofun
    | _ => exact absurd h nofun

/-- A field that is not there is read as what stands in its place. -/
lemma Fields.eq_of_field_absent {name : String} {decode : Decoder α} {fallback a : α}
    {given : NameMap Json} (hnone : NameMap.get? name given = none)
    (h : (field name decode (some fallback)).ofObject given = .value a) : a = fallback := by
  simp only [field, hnone] at h
  exact (Outcome.value.inj h).symm

/-- A record that is decoded from an object has its fields there. -/
lemma Decoder.ofObject_of_record {label : String} {fields : Fields α} {given : NameMap Json} {a : α}
    (h : Decoder.record label fields (.object given) = .ok a) : fields.ofObject given = .value a := by
  simp only [record, recordWith] at h
  split at h
  · next hvalue =>
    rw [hvalue, Except.ok.inj h]
  · exact absurd h nofun
  · exact absurd h nofun

/-- What the decoder reads lacks no field that may not be left out. -/
def Demands (shape : Shape) (decode : Decoder α) : Prop :=
  ∀ j a, decode j = .ok a → shape.Complete j

/-- Objects of which the fields are read have all of them that may not be left out. -/
def FieldsDemand (known : List (String × Shape)) (free : List String) (fields : Fields α) : Prop :=
  ∀ given a, fields.ofObject given = .value a → ∀ field ∈ known,
    (field.1 ∉ free → NameMap.get? field.1 given ≠ none) ∧
      ∀ j, NameMap.get? field.1 given = some j → field.2.Complete j

section Demands

variable {known known' : List (String × Shape)} {free : List String} {name : String}
  {shape : Shape} {decode : Decoder α}

/-- A value without records lacks no field. -/
lemma Demands.whole : Demands .whole decode := by
  intro j a _
  trivial

/-- A null lacks nothing. -/
lemma Demands.optional (h : Demands shape decode) : Demands shape (Decoder.optional decode) := by
  intro j option hread
  cases j with
  | null => cases shape <;> trivial
  | _ =>
    obtain ⟨a, ha, -⟩ := exists_of_map_eq_ok hread
    exact h _ a ha

/-- A list lacks no field if its items do not. -/
lemma Demands.list (h : Demands shape decode) :
    Demands (.list shape) (Decoder.listOf decode) := by
  intro j as hread
  cases j with
  | list items =>
    show ∀ j ∈ items, shape.Complete j
    replace hread : items.mapM decode = .ok as := hread
    induction items generalizing as with
    | nil => exact nofun
    | cons j rest ih =>
      rw [List.mapM_cons] at hread
      obtain ⟨a, ha, hread⟩ := exists_of_bind_eq_ok hread
      obtain ⟨more, hmore, -⟩ := exists_of_bind_eq_ok hread
      exact List.forall_mem_cons.2 ⟨h j a ha, ih more hmore⟩
  | _ => trivial

/-- Fields whose value is mapped lack none of theirs. -/
lemma FieldsDemand.map {x : Fields α} (h : FieldsDemand known free x) (f : α → β) :
    FieldsDemand known free (f <$> x) := by
  intro given b hb
  obtain ⟨_, a, -, ha, -⟩ := Outcome.seq_eq_value hb
  exact h given a ha

/-- Some fields and some others lack none if neither do. -/
lemma FieldsDemand.seq {f : Fields (α → β)} {x : Fields α} (hf : FieldsDemand known free f)
    (hx : FieldsDemand known' free x) : FieldsDemand (known ++ known') free (f <*> x) := by
  intro given b hb
  obtain ⟨g, a, hg, ha, -⟩ := Outcome.seq_eq_value hb
  exact List.forall_mem_append.2 ⟨hf given g hg, hx given a ha⟩

/-- The value of a field that is there is read, so it is complete. -/
lemma FieldsDemand.field {fallback : Option α} (h : Demands shape decode)
    (hfallback : name ∉ free → fallback = none) :
    FieldsDemand [(name, shape)] free (Fields.field name decode fallback) := by
  intro given a ha
  rw [List.forall_mem_singleton]
  simp only [Fields.field] at ha
  cases hvalue : NameMap.get? name given with
  | none =>
    refine ⟨fun hname => ?_, fun j hj => absurd hj.symm (Option.some_ne_none j)⟩
    rw [hvalue, hfallback hname] at ha
    cases ha
  | some j =>
    refine ⟨fun _ => Option.some_ne_none j, fun j' hj' => ?_⟩
    obtain rfl := Option.some.inj hj'
    simp only [hvalue] at ha
    split at ha
    · next hread => exact h j _ hread
    · cases ha

/-- A required field is there. -/
lemma FieldsDemand.required (h : Demands shape decode) :
    FieldsDemand [(name, shape)] free (Fields.required name decode) :=
  .field h fun _ => rfl

/-- A field that something stands in for may be left out. -/
lemma FieldsDemand.defaulted {fallback : α} (h : Demands shape decode) (hname : name ∈ free) :
    FieldsDemand [(name, shape)] free (Fields.defaulted name decode fallback) :=
  .field h fun hnot => absurd hname hnot

/-- Of the values in the place of a record only an object has to have the fields. -/
lemma Demands.record {label : String} {fields : Fields α} {read known : List (String × Shape)}
    {optional spare : List String} (h : FieldsDemand read (optional ++ spare) fields)
    (hread : read = known) :
    Demands (.record known optional spare) (Decoder.record label fields) := by
  subst hread
  intro j a ha
  cases j with
  | object given =>
    have hfields := h given a (Decoder.ofObject_of_record ha)
    refine ⟨fun name hname => ?_,
      Shape.completeFields_iff.2 fun field hfield => (hfields field hfield).2⟩
    obtain ⟨field, hfield, rfl⟩ := List.mem_map.1 hname
    exact (hfields field hfield).1
  | _ => trivial

end Demands

end CodeAudit.Json
