import Mathlib.Data.List.Basic

/-!
# Stores and the last write to a cell

A store maps cells to contents.  A *write* gives new contents to some of the cells at once, and
leaves the others alone.  After a history of writes a cell holds what the last write that touched it
gave, and its initial contents if none did.

* `overwrite` — a store after a write.
* `lastWrite` — the last contents that a history gives to a cell.
* `foldl_view` — the rule for programs: if every operation overwrites what is seen of the state by
  the write the operation stands for, then after any sequence of operations every cell shows its
  last write.

A write that touches many cells is one write, so an operation that stores a run of bytes or one that
reaches a register under several names is a single step of a history.  The rule carries an invariant
of the state and a restriction on the operations, for programs whose operations are right under
conditions only.
-/

universe u v w x

namespace LastWrite

variable {ι : Type u} {α : Type v}

/-- A store after a write. -/
def overwrite (s : ι → α) (write : ι → Option α) : ι → α := fun i => (write i).getD (s i)

/-- The contents given to a cell by the last write of a history that touches it. -/
def lastWrite : List (ι → Option α) → ι → Option α
  | [], _ => none
  | write :: writes, i => (lastWrite writes i).or (write i)

section Programs

variable {σ : Type w} {ε : Type x} {step : σ → ε → σ} (view : σ → ι → α)
  {writes : ε → ι → Option α} {P : σ → Prop} {E : ε → Prop}

/-- **Rule of the last write.**  Under an invariant `P` that every operation of the kind
`E` preserves, every cell shows its last write. -/
theorem foldl_view
    (hstep : ∀ s e, E e → P s → P (step s e) ∧
      view (step s e) = overwrite (view s) (writes e)) :
    ∀ (es : List ε) (s : σ), (∀ e ∈ es, E e) → P s →
      P (es.foldl step s) ∧
        ∀ i, view (es.foldl step s) i = (lastWrite (es.map writes) i).getD (view s i) := by
  intro es
  induction es with
  | nil => exact fun s _ hs => ⟨hs, fun _ => rfl⟩
  | cons e es ih =>
      intro s hes hs
      obtain ⟨hnext, hview⟩ := hstep s e (hes e List.mem_cons_self) hs
      obtain ⟨hend, hcells⟩ := ih (step s e) (fun f hf => hes f (List.mem_cons_of_mem e hf)) hnext
      refine ⟨hend, fun i => ?_⟩
      rw [List.foldl_cons, hcells i, hview, List.map_cons, lastWrite, overwrite]
      cases lastWrite (es.map writes) i <;> rfl

end Programs

end LastWrite
