import CodeAudit.NameMap
import CodeAudit.Proofs.List
/-!
# Maps from names

A map whose names come in order has each name once, so the value of a name is the one that is
replaced when the name is set.
-/
namespace CodeAudit.NameMap

variable {α : Type}

/-- The names of a map come in order, each once. -/
def Sorted (map : NameMap α) : Prop :=
  map.Pairwise fun a b => a.1 < b.1

/-- What is in a map after a name has been set was there before, or is the name with its value. -/
lemma eq_or_mem_of_mem_insert {name : String} {value : α} {map : NameMap α} {pair : String × α}
    (h : pair ∈ insert name value map) : pair = (name, value) ∨ pair ∈ map := by
  induction map with
  | nil => exact Or.inl (List.mem_singleton.1 h)
  | cons head rest ih =>
    obtain ⟨other, old⟩ := head
    rw [insert] at h
    split at h
    · exact List.mem_cons.1 h
    · split at h
      · obtain h | h := List.mem_cons.1 h
        · exact Or.inl h
        · exact Or.inr (List.mem_cons_of_mem _ h)
      · obtain h | h := List.mem_cons.1 h
        · exact Or.inr (h ▸ List.mem_cons_self)
        · exact (ih h).imp_right (List.mem_cons_of_mem _)

/-- A value that is set leaves a map in order. -/
lemma Sorted.insert {map : NameMap α} (h : Sorted map) (name : String) (value : α) :
    Sorted (map.insert name value) := by
  induction map with
  | nil => exact List.pairwise_singleton _ _
  | cons head rest ih =>
    obtain ⟨other, old⟩ := head
    obtain ⟨hother, hrest⟩ := List.pairwise_cons.1 h
    rw [NameMap.insert]
    split
    · next hlt =>
      refine List.pairwise_cons.2 ⟨fun pair hpair => ?_, h⟩
      obtain rfl | hpair := List.mem_cons.1 hpair
      · exact hlt
      · exact hlt.trans (hother pair hpair)
    · next hlt =>
      split
      · next heq =>
        subst heq
        exact List.pairwise_cons.2 ⟨hother, hrest⟩
      · next hne =>
        refine List.pairwise_cons.2 ⟨fun pair hpair => ?_, ih hrest⟩
        obtain rfl | hpair := eq_or_mem_of_mem_insert hpair
        · exact lt_of_le_of_ne (not_lt.1 hlt) (Ne.symm hne)
        · exact hother pair hpair

/-- The first name of a map has its value. -/
lemma get?_cons_self (name : String) (value : α) (rest : NameMap α) :
    get? name ((name, value) :: rest) = some value := by
  rw [get?, List.find?_cons_of_pos (by simp)]
  rfl

/-- The first value of a map is not that of another name. -/
lemma get?_cons_of_ne {name other : String} (h : other ≠ name) (value : α) (rest : NameMap α) :
    get? name ((other, value) :: rest) = get? name rest := by
  rw [get?, get?, List.find?_cons_of_neg (by simpa using h)]

/-- A value that is set changes that of no other name. -/
lemma get?_insert_of_ne {name other : String} (h : other ≠ name) (value : α) (map : NameMap α) :
    get? other (insert name value map) = get? other map := by
  induction map with
  | nil => exact get?_cons_of_ne h.symm value []
  | cons head rest ih =>
    obtain ⟨first, old⟩ := head
    rw [insert]
    split
    · exact get?_cons_of_ne h.symm value _
    · split
      · next heq =>
        subst heq
        rw [get?_cons_of_ne h.symm, get?_cons_of_ne h.symm]
      · by_cases hfirst : first = other
        · rw [hfirst, get?_cons_self, get?_cons_self]
        · rw [get?_cons_of_ne hfirst, get?_cons_of_ne hfirst, ih]

/-- The value of a name is the one that was set. -/
lemma get?_insert_self (name : String) (value : α) (map : NameMap α) :
    get? name (insert name value map) = some value := by
  induction map with
  | nil => exact get?_cons_self name value []
  | cons head rest ih =>
    obtain ⟨other, old⟩ := head
    rw [insert]
    split
    · exact get?_cons_self name value _
    · split
      · exact get?_cons_self name value _
      · next hne => rw [get?_cons_of_ne (Ne.symm hne), ih]

/-- In two maps in a row the first one counts. -/
lemma get?_append (name : String) (front back : NameMap α) :
    get? name (front ++ back) = (get? name front).or (get? name back) := by
  rw [get?, get?, get?, List.find?_append]
  cases List.find? (fun pair => pair.1 == name) front <;> rfl

/-- A name without a value is not in the map. -/
lemma get?_eq_none_iff {name : String} {map : NameMap α} :
    get? name map = none ↔ name ∉ map.map Prod.fst := by
  rw [get?, Option.map_eq_none_iff, List.find?_eq_none, List.mem_map]
  simp only [beq_iff_eq, not_exists, not_and]

/-- Where no name comes twice, putting a map together does not change what is found. -/
lemma get?_ofList {pairs : List (String × α)} (h : (pairs.map Prod.fst).Nodup) (name : String) :
    get? name (ofList pairs) = get? name pairs := by
  rw [ofList]
  induction pairs using List.reverseRecOn with
  | nil => rfl
  | append_singleton front pair ih =>
    obtain ⟨other, value⟩ := pair
    rw [List.map_append, List.nodup_append] at h
    rw [List.foldl_append, get?_append]
    show get? name (insert other value _) = _
    by_cases hname : name = other
    · subst hname
      have hfront : get? name front = none :=
        get?_eq_none_iff.2 fun hmem => h.2.2 _ hmem _ (List.mem_singleton_self _) rfl
      rw [get?_insert_self, hfront, get?_cons_self]
      rfl
    · rw [get?_insert_of_ne hname, ih h.1, get?_cons_of_ne (Ne.symm hname)]
      exact Option.or_none.symm

/-- A name after all others is set at the end. -/
lemma insert_of_forall_lt {name : String} {map : NameMap α} (h : ∀ pair ∈ map, pair.1 < name)
    (value : α) : insert name value map = map ++ [(name, value)] := by
  induction map with
  | nil => rfl
  | cons head rest ih =>
    obtain ⟨other, old⟩ := head
    obtain ⟨hother, hrest⟩ := List.forall_mem_cons.1 h
    rw [insert, if_neg (not_lt_of_gt hother), if_neg (ne_of_gt hother), ih hrest]
    rfl

/-- A pair after which its name does not come again. -/
def IsLast (pairs : List (String × α)) (pair : String × α) : Prop :=
  ∃ before after, pairs = before ++ pair :: after ∧ ∀ later ∈ after, later.1 ≠ pair.1

section Last

variable {pairs front : List (String × α)} {pair pair' last : String × α}

/-- The last pair of its name is one of the pairs. -/
lemma IsLast.mem (h : IsLast pairs pair) : pair ∈ pairs := by
  obtain ⟨before, after, rfl, -⟩ := h
  exact List.mem_append_cons_self

/-- One more pair takes the place of those of its name. -/
lemma isLast_concat_iff :
    IsLast (front ++ [last]) pair ↔ pair = last ∨ IsLast front pair ∧ pair.1 ≠ last.1 := by
  constructor
  · rintro ⟨before, after, hpairs, hafter⟩
    cases after using List.reverseRecOn with
    | nil =>
      obtain ⟨-, hlast⟩ := List.append_inj' hpairs rfl
      exact .inl (List.cons.inj hlast).1.symm
    | append_singleton after later =>
      rw [← List.cons_append, ← List.append_assoc] at hpairs
      obtain ⟨rfl, hlast⟩ := List.append_inj' hpairs rfl
      obtain rfl := (List.cons.inj hlast).1
      rw [List.forall_mem_append, List.forall_mem_singleton] at hafter
      exact .inr ⟨⟨before, after, rfl, hafter.1⟩, Ne.symm hafter.2⟩
  · rintro (rfl | ⟨⟨before, after, rfl, hafter⟩, hne⟩)
    · exact ⟨front, [], rfl, fun _ h => absurd h List.not_mem_nil⟩
    · refine ⟨before, after ++ [last], List.append_assoc .., ?_⟩
      rw [List.forall_mem_append, List.forall_mem_singleton]
      exact ⟨hafter, Ne.symm hne⟩

/-- A name has one last pair. -/
lemma IsLast.unique (h : IsLast pairs pair) (h' : IsLast pairs pair') (hname : pair.1 = pair'.1) :
    pair = pair' := by
  induction pairs using List.reverseRecOn with
  | nil => exact absurd h.mem List.not_mem_nil
  | append_singleton front last ih =>
    obtain rfl | ⟨h, hne⟩ := isLast_concat_iff.1 h
    · obtain rfl | ⟨-, hne⟩ := isLast_concat_iff.1 h'
      · rfl
      · exact absurd hname.symm hne
    · obtain rfl | ⟨h', -⟩ := isLast_concat_iff.1 h'
      · exact absurd hname hne
      · exact ih h h'

/-- Where no name comes twice, every pair is the last one of its name. -/
lemma isLast_iff_mem (h : (pairs.map Prod.fst).Nodup) : IsLast pairs pair ↔ pair ∈ pairs := by
  refine ⟨IsLast.mem, fun hpair => ?_⟩
  obtain ⟨before, after, rfl⟩ := List.append_of_mem hpair
  refine ⟨before, after, rfl, fun later hlater hname => ?_⟩
  rw [List.map_append, List.map_cons] at h
  exact (List.nodup_cons.1 h.of_append_right).1 (hname ▸ List.mem_map_of_mem hlater)

end Last

/-- A map in order has each name once. -/
lemma Sorted.nodup_names {map : NameMap α} (h : Sorted map) : (map.map Prod.fst).Nodup :=
  List.pairwise_map.2 (h.imp ne_of_lt)

/-- A map in order has the pairs of its names and values. -/
lemma Sorted.mem_iff {map : NameMap α} (h : Sorted map) {name : String} {value : α} :
    (name, value) ∈ map ↔ get? name map = some value := by
  induction map with
  | nil => exact iff_of_false List.not_mem_nil fun h => Option.some_ne_none value h.symm
  | cons head rest ih =>
    obtain ⟨other, old⟩ := head
    obtain ⟨hother, hrest⟩ := List.pairwise_cons.1 h
    rw [List.mem_cons]
    by_cases heq : other = name
    · subst heq
      have hnot : (other, value) ∉ rest := fun hmem =>
        lt_irrefl other (hother (other, value) hmem)
      rw [get?_cons_self, or_iff_left hnot, Prod.mk.injEq, Option.some.injEq]
      exact ⟨fun h => h.2.symm, fun h => ⟨rfl, h.symm⟩⟩
    · rw [get?_cons_of_ne heq, ← ih hrest, or_iff_right]
      exact fun h => heq (Prod.mk.inj h).1.symm

/-- The last of some pairs is set last. -/
lemma ofList_concat (front : List (String × α)) (pair : String × α) :
    ofList (front ++ [pair]) = insert pair.1 pair.2 (ofList front) :=
  List.foldl_append

/-- A map that is made of pairs is in order. -/
lemma sorted_ofList (pairs : List (String × α)) : Sorted (ofList pairs) := by
  induction pairs using List.reverseRecOn with
  | nil => exact .nil
  | append_singleton front pair ih =>
    rw [ofList_concat]
    exact ih.insert pair.1 pair.2

/-- A map of some pairs has the last one of each name. -/
lemma mem_ofList_iff {pairs : List (String × α)} {pair : String × α} :
    pair ∈ ofList pairs ↔ IsLast pairs pair := by
  induction pairs using List.reverseRecOn with
  | nil => exact iff_of_false List.not_mem_nil fun h => List.not_mem_nil h.mem
  | append_singleton front last ih =>
    obtain ⟨name, value⟩ := pair
    have hsorted := sorted_ofList (front ++ [last])
    rw [hsorted.mem_iff, ofList_concat, isLast_concat_iff, ← ih, (sorted_ofList front).mem_iff]
    by_cases heq : name = last.1
    · subst heq
      rw [get?_insert_self, Option.some.injEq, or_iff_left fun h => h.2 rfl]
      exact ⟨fun h => Prod.ext rfl h.symm, fun h => (congrArg Prod.snd h).symm⟩
    · rw [get?_insert_of_ne heq, and_iff_left heq, or_iff_right]
      exact fun h => heq (congrArg Prod.fst h)

/-- A map keeps all pairs if and only if no two of them have one name. -/
lemma ofList_perm_iff {pairs : List (String × α)} :
    (ofList pairs).Perm pairs ↔ (pairs.map Prod.fst).Nodup := by
  have hnames := (sorted_ofList pairs).nodup_names
  refine ⟨fun h => (h.map Prod.fst).nodup hnames, fun h => ?_⟩
  rw [List.perm_ext_iff_of_nodup hnames.of_map h.of_map]
  exact fun pair => mem_ofList_iff.trans (isLast_iff_mem h)

/-- The map without a name. -/
def without (name : String) (map : NameMap α) : NameMap α :=
  map.filter fun pair => pair.1 != name

/-- A name that is taken out has no value. -/
lemma get?_without_self (name : String) (map : NameMap α) : get? name (without name map) = none := by
  rw [get?_eq_none_iff, without, List.mem_map]
  rintro ⟨pair, hpair, rfl⟩
  simpa using (List.mem_filter.1 hpair).2

/-- What is taken out of a map takes the value of no other name along. -/
lemma get?_without_of_ne {name other : String} (h : other ≠ name) (map : NameMap α) :
    get? other (without name map) = get? other map := by
  induction map with
  | nil => rfl
  | cons head rest ih =>
    obtain ⟨first, value⟩ := head
    rw [without, List.filter_cons]
    by_cases hfirst : first = name
    · subst hfirst
      rw [if_neg (by simp), get?_cons_of_ne h.symm]
      exact ih
    · rw [if_pos (by simpa using hfirst)]
      by_cases hother : first = other
      · subst hother
        rw [get?_cons_self, get?_cons_self]
      · rw [get?_cons_of_ne hother, get?_cons_of_ne hother]
        exact ih

/-- Names in order are put together as they stand. -/
lemma Sorted.ofList_eq {map : NameMap α} (h : Sorted map) : ofList map = map := by
  rw [ofList]
  induction map using List.reverseRecOn with
  | nil => rfl
  | append_singleton front pair ih =>
    obtain ⟨hfront, -, hpair⟩ := List.pairwise_append.1 h
    rw [List.foldl_append, ih hfront]
    exact insert_of_forall_lt (fun other hother => hpair other hother pair (List.mem_singleton_self _)) _

/-- Setting a name does not look at the values. -/
lemma map_insert {β : Type} (f : α → β) (name : String) (value : α) (map : NameMap α) :
    (insert name value map).map (Prod.map id f) = insert name (f value) (map.map (Prod.map id f)) := by
  induction map with
  | nil => rfl
  | cons head rest ih =>
    obtain ⟨other, old⟩ := head
    have hcons : ((other, old) :: rest).map (Prod.map id f)
        = (other, f old) :: rest.map (Prod.map id f) := rfl
    rw [hcons, insert, insert]
    by_cases hlt : name < other
    · rw [if_pos hlt, if_pos hlt]
      rfl
    · rw [if_neg hlt, if_neg hlt]
      by_cases heq : name = other
      · rw [if_pos heq, if_pos heq]
        rfl
      · rw [if_neg heq, if_neg heq, List.map_cons, ih]
        rfl

/-- The values of a map can be replaced before it is put together. -/
lemma map_ofList {β : Type} (f : α → β) (pairs : List (String × α)) :
    (ofList pairs).map (Prod.map id f) = ofList (pairs.map (Prod.map id f)) := by
  rw [ofList, ofList]
  induction pairs using List.reverseRecOn with
  | nil => rfl
  | append_singleton front pair ih =>
    rw [List.map_append, List.foldl_append, List.foldl_append, ← ih]
    exact map_insert f _ _ _

/-- A name that comes before all names of a map has no value in it. -/
lemma get?_eq_none_of_lt {name : String} {map : NameMap α} (h : ∀ pair ∈ map, name < pair.1) :
    get? name map = none := by
  induction map with
  | nil => rfl
  | cons head rest ih =>
    obtain ⟨other, old⟩ := head
    obtain ⟨hother, hrest⟩ := List.forall_mem_cons.1 h
    rw [get?_cons_of_ne (ne_of_gt hother)]
    exact ih hrest

/-- Setting the value of a name takes its old value out of the sum. -/
lemma sum_insert {map : NameMap Nat} (h : Sorted map) (name : String) (value : Nat) :
    ((map.insert name value).map Prod.snd).sum + (map.get? name).getD 0
      = (map.map Prod.snd).sum + value := by
  induction map with
  | nil => exact Nat.add_comm _ _
  | cons head rest ih =>
    obtain ⟨other, old⟩ := head
    obtain ⟨hother, hrest⟩ := List.pairwise_cons.1 h
    rw [NameMap.insert]
    split
    · next hlt =>
      have hnone : get? name ((other, old) :: rest) = none := by
        apply get?_eq_none_of_lt
        exact List.forall_mem_cons.2 ⟨hlt, fun pair hpair => hlt.trans (hother pair hpair)⟩
      rw [hnone, List.map_cons, List.sum_cons]
      show value + _ + 0 = _ + value
      rw [Nat.add_zero, Nat.add_comm]
    · split
      · next heq =>
        subst heq
        rw [get?_cons_self, List.map_cons, List.sum_cons, List.map_cons, List.sum_cons]
        show value + _ + old = old + _ + value
        omega
      · next hne =>
        have hsum := ih hrest
        rw [get?_cons_of_ne (Ne.symm hne), List.map_cons, List.sum_cons, List.map_cons,
          List.sum_cons]
        omega

end CodeAudit.NameMap
