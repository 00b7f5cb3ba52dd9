import Mathlib
/-!
# Values that may be errors

What comes of a computation that may fail, if it does not.
-/
namespace CodeAudit

variable {ε α β : Type}

/-- A value that is mapped to another one is there. -/
lemma exists_of_map_eq_ok {x : Except ε α} {f : α → β} {b : β} (h : x.map f = .ok b) :
    ∃ a, x = .ok a ∧ f a = b := by
  cases x with
  | ok a => exact ⟨a, rfl, Except.ok.inj h⟩
  | error e => exact absurd h nofun

/-- If two steps in turn come to a value, each of them does. -/
lemma exists_of_bind_eq_ok {x : Except ε α} {f : α → Except ε β} {b : β} (h : x >>= f = .ok b) :
    ∃ a, x = .ok a ∧ f a = .ok b := by
  cases x with
  | ok a => exact ⟨a, rfl, h⟩
  | error e => exact absurd h nofun

/-- A fold over numbered items none of whose steps fails, where the numbers do not matter. -/
lemma foldlM_zipIdx_eq_foldl {f : β → α × Nat → Except ε β} {g : β → α → β}
    (hstep : ∀ b a index b', f b (a, index) = .ok b' → b' = g b a) {items : List α} {start : Nat}
    {b b' : β} (h : (items.zipIdx start).foldlM f b = .ok b') : b' = items.foldl g b := by
  induction items generalizing b start with
  | nil => exact (Except.ok.inj h).symm
  | cons a rest ih =>
    rw [List.zipIdx_cons, List.foldlM_cons] at h
    obtain ⟨next, hnext, hrest⟩ := exists_of_bind_eq_ok h
    obtain rfl := hstep b a start next hnext
    exact ih hrest

/-- A fold over numbered items all of whose steps come to something. -/
lemma foldlM_zipIdx_eq_ok {f : β → α × Nat → Except ε β} {g : β → α → β}
    (hstep : ∀ b a index, f b (a, index) = .ok (g b a)) (items : List α) (start : Nat) (b : β) :
    (items.zipIdx start).foldlM f b = .ok (items.foldl g b) := by
  induction items generalizing b start with
  | nil => rfl
  | cons a rest ih =>
    rw [List.zipIdx_cons, List.foldlM_cons, hstep]
    exact ih (start + 1) (g b a)

end CodeAudit
