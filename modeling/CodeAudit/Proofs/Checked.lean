import Mathlib
/-!
# Computations that may abort

On a machine a sum may be too large for a size, an index may lie beyond the end of a list, and a text can
only be cut between its characters. A checked computation gives up at the first step that cannot be done.
-/
namespace CodeAudit

/-- What makes a computation abort. -/
inductive Abort where
  /-- A sum or a difference that is no size. -/
  | overflow
  /-- An index or a slice that goes beyond the end of its list. -/
  | outOfRange
  /-- A cut through a text that is not between two of its characters or at an end. -/
  | offBoundary
  /-- A loop that goes on when its steps are used up. -/
  | unfinished
deriving DecidableEq, Repr

/-- A computation that comes to a value or aborts. -/
abbrev Checked := Except Abort

namespace Checked

variable {α β ε : Type}

/-- A sum of sizes, of which `limit` is the greatest. -/
def sum (limit m n : Nat) : Checked Nat :=
  if m + n ≤ limit then pure (m + n) else throw .overflow

def difference (m n : Nat) : Checked Nat :=
  if n ≤ m then pure (m - n) else throw .overflow

def item (items : List α) (index : Nat) : Checked α :=
  match items[index]? with
  | some a => pure a
  | none => throw .outOfRange

/-- The items from the one numbered `first` to the one before `last`. -/
def slice (items : List α) (first last : Nat) : Checked (List α) :=
  if first ≤ last ∧ last ≤ items.length then pure ((items.take last).drop first)
  else throw .outOfRange

/-- A sum within the limit is the sum. -/
lemma sum_eq_ok {limit m n : Nat} (h : m + n ≤ limit) : sum limit m n = .ok (m + n) :=
  if_pos h

/-- A difference that is not negative is the difference. -/
lemma difference_eq_ok {m n : Nat} (h : n ≤ m) : difference m n = .ok (m - n) :=
  if_pos h

/-- An item that is there is found. -/
lemma item_eq_ok {items : List α} {index : Nat} {a : α} (h : items[index]? = some a) :
    item items index = .ok a := by
  rw [item, h]
  rfl

/-- A slice that ends within the list is there. -/
lemma slice_eq_ok {items : List α} {first size : Nat} (h : first + size ≤ items.length) :
    slice items first (first + size) = .ok ((items.drop first).take size) := by
  rw [slice, if_pos ⟨Nat.le_add_right first size, h⟩, List.drop_take, Nat.add_sub_cancel_left]
  rfl

/-- Of two steps that succeed the second one gives the result. -/
lemma bind_eq_ok {x : Checked α} {f : α → Checked β} {a : α} {b : β} (hx : x = .ok a)
    (hf : f a = .ok b) : x >>= f = .ok b := by
  rw [hx]
  exact hf

/-- A fold none of whose steps aborts. -/
lemma foldlM_eq_ok {f : β → α → Checked β} {g : β → α → β} {items : List α}
    (hstep : ∀ b, ∀ a ∈ items, f b a = .ok (g b a)) (b : β) :
    items.foldlM f b = .ok (items.foldl g b) := by
  induction items generalizing b with
  | nil => rfl
  | cons a rest ih =>
    rw [List.foldlM_cons]
    apply bind_eq_ok (hstep b a List.mem_cons_self)
    exact ih (fun b a ha => hstep b a (List.mem_cons_of_mem _ ha)) (g b a)

/-- If each item can be mapped, so can the list. -/
lemma mapM_eq_ok {f : α → Checked β} {g : α → β} {items : List α}
    (h : ∀ a ∈ items, f a = .ok (g a)) : items.mapM f = .ok (items.map g) := by
  induction items with
  | nil => rfl
  | cons a rest ih =>
    rw [List.mapM_cons]
    apply bind_eq_ok (h a List.mem_cons_self)
    apply bind_eq_ok (ih fun a ha => h a (List.mem_cons_of_mem _ ha))
    rfl

section Failing

/-- A checked computation that may also fail with an error. -/
lemma run_bind_eq_ok {x : ExceptT ε Checked α} {f : α → ExceptT ε Checked β} {result : Except ε α}
    {g : α → Except ε β} (hx : x.run = .ok result) (hf : ∀ a, (f a).run = .ok (g a)) :
    (x >>= f).run = .ok (result >>= g) := by
  rw [ExceptT.run_bind, hx]
  cases result with
  | ok a => exact hf a
  | error e => rfl

/-- A step that cannot fail is taken before one that may fail with an error of its own. -/
lemma run_lift_bind_eq_ok {x : Checked α} {f : α → ExceptT ε Checked β} {a : α}
    {result : Except ε β} (hx : x = .ok a) (hf : (f a).run = .ok result) :
    ((liftM x : ExceptT ε Checked α) >>= f).run = .ok result := by
  rw [hx]
  exact hf

/-- If each step of a fold can be taken, the fold ends as the one that is not checked. -/
lemma run_foldlM_eq_ok {f : β → α → ExceptT ε Checked β} {g : β → α → Except ε β} {items : List α}
    (hstep : ∀ b, ∀ a ∈ items, (f b a).run = .ok (g b a)) (b : β) :
    (items.foldlM f b).run = .ok (items.foldlM g b) := by
  induction items generalizing b with
  | nil => rfl
  | cons a rest ih =>
    rw [List.foldlM_cons, List.foldlM_cons]
    apply run_bind_eq_ok (hstep b a List.mem_cons_self)
    exact ih fun b a ha => hstep b a (List.mem_cons_of_mem _ ha)

end Failing

end Checked

end CodeAudit
