import Mathlib.Tactic.Common

/-!
# Computations that log their operations

A program evaluates operations on its way to a value; some of them may be undefined for the operands
that they get, whatever the value.  A `Logged` computation is a value with the operations in the
order of their evaluation, so that a statement about all of them is one about a list.

* `value_bind`, `value_ite`, … — the value is computed as without the log.
* `Every` — all the operations have a property; `every_bind` is the rule for sequences, and
  `every_ite` the one for branches.

It is a monad, so a program is copied into it by writing its steps in a `do` block.  Both families
of lemmas are simp lemmas: the first removes the log from a computation, the second turns a property
of its log into a conjunction over its steps.
-/

universe u v

/-- A value, and the operations that were evaluated for it. -/
structure Logged (ω : Type u) (α : Type v) where
  value : α
  log : List ω

namespace Logged

variable {ω : Type u} {α β : Type v}

instance instMonad : Monad (Logged ω) where
  pure a := ⟨a, []⟩
  bind x f := ⟨(f x.value).value, x.log ++ (f x.value).log⟩

/-! ## The value

The log has no part in it. -/

@[simp] theorem value_pure (a : α) : (pure a : Logged ω α).value = a := rfl

@[simp] theorem value_bind (x : Logged ω α) (f : α → Logged ω β) :
    (x >>= f).value = (f x.value).value := rfl

@[simp] theorem value_map (f : α → β) (x : Logged ω α) : (f <$> x).value = f x.value := rfl

@[simp] theorem value_ite (c : Prop) [Decidable c] (x y : Logged ω α) :
    (if c then x else y).value = if c then x.value else y.value :=
  apply_ite value c x y

/-! ## The operations

A property of all operations, step by step. -/

/-- All the operations have the property. -/
def Every (P : ω → Prop) (x : Logged ω α) : Prop := ∀ e ∈ x.log, P e

section Every

variable {P : ω → Prop}

@[simp] theorem every_pure (a : α) : (pure a : Logged ω α).Every P :=
  fun _ he => absurd he List.not_mem_nil

@[simp] theorem every_bind (x : Logged ω α) (f : α → Logged ω β) :
    (x >>= f).Every P ↔ x.Every P ∧ (f x.value).Every P := by
  constructor
  · exact fun h => ⟨fun e he => h e (List.mem_append_left _ he),
      fun e he => h e (List.mem_append_right _ he)⟩
  · rintro ⟨hx, hf⟩ e he
    exact (List.mem_append.mp he).elim (hx e) (hf e)

@[simp] theorem every_map (f : α → β) (x : Logged ω α) : (f <$> x).Every P ↔ x.Every P := by
  have hmap : (f <$> x) = x >>= fun a => pure (f a) := rfl
  rw [hmap, every_bind, and_iff_left (every_pure _)]

@[simp] theorem every_ite (c : Prop) [Decidable c] (x y : Logged ω α) :
    (if c then x else y).Every P ↔ if c then x.Every P else y.Every P := by
  split_ifs <;> rfl

/-- One operation. -/
@[simp] theorem every_singleton (a : α) (e : ω) :
    (⟨a, [e]⟩ : Logged ω α).Every P ↔ P e := List.forall_mem_singleton

end Every

end Logged
