import Mathlib.Data.List.Basic

/-!
# Deterministic machines driven by events

A machine reads one event at a time; a step may fail, and then the run has ended without a state.
Everything a safety argument needs of such a machine is one induction, done here once:

* `run` — the state after a list of events.
* `run_invariant` — what every step preserves, every run preserves; `run_invariant_on`, the same for
  the runs of a kind of events.
* `run_rounds` — a round that leaves one round less to go, as often as there are rounds.
* `run_rel` — a reflexive, transitive relation that every step respects relates the two ends of a
  run.
* `run_bisim` — two machines that agree in every step, also on failure, agree in every run;
  `run_simulation`, one machine that follows another where that does not fail.
* `Visits` — the run of `es` from `s` takes event `e` in state `t`, and `visits_invariant`, the
  invariant at each such moment.

A result about runs has then two parts that are proved apart: what one step preserves, which is a
matter of the program, and the rule, which is not.  The rules with two machines compare a program
with a specification of it; the relation of `run_simulation` may depend on the number of steps that
have been made, so that a quantity which every step raises need not be in the state of the
specification.

Failure is the empty value of `Option`, and two runs agree on it when they are related by
`Option.Rel`.
-/

universe u v

/-- A machine: from a state, an event leads to the next state, or to none. -/
structure Machine (σ : Type u) (ε : Type v) where
  /-- One event. -/
  step : σ → ε → Option σ

namespace Machine

variable {σ : Type u} {ε : Type v} (M : Machine σ ε)

/-- The state after the events of a list, if every step succeeds. -/
def run : σ → List ε → Option σ
  | s, [] => some s
  | s, e :: es => (M.step s e).bind fun t => run t es

@[simp] theorem run_nil (s : σ) : M.run s [] = some s := rfl

@[simp] theorem run_cons (s : σ) (e : ε) (es : List ε) :
    M.run s (e :: es) = (M.step s e).bind fun t => M.run t es := rfl

/-- Events one after the other. -/
theorem run_append (s : σ) (first second : List ε) :
    M.run s (first ++ second) = (M.run s first).bind fun t => M.run t second := by
  induction first generalizing s with
  | nil => rfl
  | cons e first ih =>
      rw [List.cons_append, run_cons, run_cons, Option.bind_assoc]
      exact congrArg (Option.bind _) (funext ih)

/-- **Invariant rule**, for runs of the events of a kind.  A property that every
event of the kind preserves holds at the end of every run of such events. -/
theorem run_invariant_on {P : σ → Prop} {E : ε → Prop}
    (hstep : ∀ s e t, E e → P s → M.step s e = some t → P t) :
    ∀ {es : List ε} {s t : σ}, (∀ e ∈ es, E e) → P s → M.run s es = some t → P t := by
  intro es
  induction es with
  | nil =>
      intro s t _ hs hrun
      obtain rfl : s = t := by simpa using hrun
      exact hs
  | cons e es ih =>
      intro s t hes hs hrun
      rw [run_cons, Option.bind_eq_some_iff] at hrun
      obtain ⟨m, hm, hrest⟩ := hrun
      have he := hes e List.mem_cons_self
      exact ih (fun f hf => hes f (List.mem_cons_of_mem e hf)) (hstep s e m he hs hm) hrest

/-- **Invariant rule.**  A property that every step preserves holds at the end of
every run that starts with it. -/
theorem run_invariant {P : σ → Prop}
    (hstep : ∀ s e t, P s → M.step s e = some t → P t) {es : List ε} {s t : σ} (hs : P s)
    (hrun : M.run s es = some t) : P t :=
  M.run_invariant_on (E := fun _ => True) (fun s e t _ => hstep s e t) (fun _ _ => trivial)
    hs hrun

/-- **Relational rule.**  A reflexive and transitive relation that holds across
every step taken under an invariant holds across every run. -/
theorem run_rel {P : σ → Prop} {R : σ → σ → Prop} (hrefl : ∀ s, R s s)
    (htrans : ∀ {a b c}, R a b → R b c → R a c)
    (hstep : ∀ s e t, P s → M.step s e = some t → P t ∧ R s t) :
    ∀ {es : List ε} {s t : σ}, P s → M.run s es = some t → P t ∧ R s t := by
  intro es s t hs hrun
  refine M.run_invariant (P := fun x => P x ∧ R s x) ?_ ⟨hs, hrefl s⟩ hrun
  rintro a e b ⟨ha, hsa⟩ hab
  obtain ⟨hb, hstepR⟩ := hstep a e b ha hab
  exact ⟨hb, htrans hsa hstepR⟩

/-- **Loop rule.**  A round of events that takes every state with a number of rounds to go to one
with a round less brings the loop to its end. -/
theorem run_rounds {I : ℕ → σ → Prop} {es : List ε}
    (hround : ∀ n s, I (n + 1) s → ∃ t, M.run s es = some t ∧ I n t) :
    ∀ (n : ℕ) {s : σ}, I n s → ∃ t, M.run s (List.replicate n es).flatten = some t ∧ I 0 t := by
  intro n
  induction n with
  | zero => exact fun hs => ⟨_, rfl, hs⟩
  | succ n ih =>
      intro s hs
      obtain ⟨m, hm, hnext⟩ := hround n s hs
      obtain ⟨t, ht, hend⟩ := ih hnext
      refine ⟨t, ?_, hend⟩
      rw [List.replicate_succ, List.flatten_cons, run_append, hm, Option.bind_some, ht]

/-- Along the run of `es` from `s`, the machine takes event `e` in state `t`.  It is how a statement
about every step of a run is made. -/
def Visits (s : σ) (es : List ε) (t : σ) (e : ε) : Prop :=
  ∃ before after, es = before ++ e :: after ∧ M.run s before = some t

/-- The invariant holds at every moment of a run, not only at its end. -/
theorem visits_invariant {P : σ → Prop}
    (hstep : ∀ s e t, P s → M.step s e = some t → P t)
    {es : List ε} {s t : σ} {e : ε} (hs : P s) (h : M.Visits s es t e) : P t := by
  obtain ⟨before, _, _, hrun⟩ := h
  exact M.run_invariant hstep hs hrun

/-! ## Two machines

The events of the two machines correspond one to one. -/

section Bisimulation

universe x y

variable {τ : Type x} {δ : Type y} {M} {N : Machine τ δ}

/-- Partial values that agree are both there or both not. -/
theorem rel_cases {R : σ → τ → Prop} {a : Option σ} {b : Option τ} (h : Option.Rel R a b) :
    a = none ∧ b = none ∨ ∃ s t, a = some s ∧ b = some t ∧ R s t := by
  cases h with
  | none => exact Or.inl ⟨rfl, rfl⟩
  | some hst => exact Or.inr ⟨_, _, rfl, rfl, hst⟩

/-- Partial functions that agree on related values, after partial values that agree. -/
theorem rel_bind {α : Type u} {β : Type x} {R : σ → τ → Prop} {S : α → β → Prop} {a : Option σ}
    {b : Option τ} {f : σ → Option α} {g : τ → Option β} (hab : Option.Rel R a b)
    (hfg : ∀ {s t}, R s t → Option.Rel S (f s) (g t)) : Option.Rel S (a.bind f) (b.bind g) := by
  cases hab with
  | some hst => exact hfg hst
  | none => exact .none

/-- **Bisimulation.**  Machines that agree in every step agree in every run: both fail, or they end
in related states. -/
theorem run_bisim {R : σ → τ → Prop} {C : ε → δ → Prop}
    (hstep : ∀ {s t e d}, R s t → C e d → Option.Rel R (M.step s e) (N.step t d)) :
    ∀ {es : List ε} {ds : List δ} {s : σ} {t : τ}, R s t → List.Forall₂ C es ds →
      Option.Rel R (M.run s es) (N.run t ds) := by
  intro es ds s t hst hes
  induction hes generalizing s t with
  | nil => exact .some hst
  | @cons e d es ds hed _ ih =>
      rw [run_cons, run_cons]
      exact rel_bind (hstep hst hed) fun hnext => ih hnext

/-- **Forward simulation.**  A machine that follows every step of another follows its runs; the
relation may count the steps. -/
theorem run_simulation {R : ℕ → σ → τ → Prop} {C : ε → δ → Prop}
    (hstep : ∀ {n s t e d s'}, R n s t → C e d → M.step s e = some s' →
      ∃ t', N.step t d = some t' ∧ R (n + 1) s' t') :
    ∀ {es : List ε} {ds : List δ} {n : ℕ} {s s' : σ} {t : τ}, R n s t → List.Forall₂ C es ds →
      M.run s es = some s' → ∃ t', N.run t ds = some t' ∧ R (n + es.length) s' t' := by
  intro es ds n s s' t hst hes hrun
  induction hes generalizing n s t with
  | nil =>
      obtain rfl : s = s' := by simpa using hrun
      exact ⟨t, rfl, hst⟩
  | @cons e d es ds hed _ ih =>
      rw [run_cons, Option.bind_eq_some_iff] at hrun
      obtain ⟨m, hm, hrest⟩ := hrun
      obtain ⟨u, hu, hmu⟩ := hstep hst hed hm
      obtain ⟨t', ht', hend⟩ := ih hmu hrest
      refine ⟨t', by rw [run_cons, hu, Option.bind_some, ht'], ?_⟩
      rw [List.length_cons, Nat.add_comm es.length 1, ← Nat.add_assoc]
      exact hend

end Bisimulation

end Machine
