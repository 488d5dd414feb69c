import ArmSimulator.Library.Machine
import Mathlib.Tactic.Common

/-!
# The loop `do … while`

The body may fail, and may depend on the number of the round; the test may fail too.  The loop is
run with fuel: `doWhile_iff` says that for some fuel it ends exactly when there is a first round
after which the test stops it.

* `rounds`, the body alone, a given number of times.
* `StopsFrom`, a round that is the first to stop the loop.
* `doWhile_mono`, more fuel than is needed.
* `doWhile_rel`, two loops whose bodies and tests agree.

The fuel is a device of the definition and no part of a result.  A statement about a loop that ends
is made with `StopsFrom`, which does not mention it: so many rounds go well, the test stops the last
of them and none before.  Both directions are needed, since a loop that never ends satisfies every
statement of the form *if it ends*.
-/

universe u

namespace DoWhile

variable {σ : Type u} (body : ℕ → σ → Option σ) (stop : σ → Option Bool)

/-- The state after `n` rounds of the body. -/
def rounds : ℕ → σ → Option σ
  | 0, s => some s
  | n + 1, s => (rounds n s).bind (body n)

/-- `do body while (!stop)` from round `n` on, at most `fuel` times: the number of rounds
and the last state. -/
def doWhile : ℕ → ℕ → σ → Option (ℕ × σ)
  | 0, _, _ => none
  | fuel + 1, n, s =>
      (body n s).bind fun t => (stop t).bind fun b =>
        if b then some (n + 1, t) else doWhile fuel (n + 1) t

/-- The rounds from `n` on go well: round `k` ends in `t` and stops, and no round between
does. -/
structure StopsFrom (s : σ) (n k : ℕ) (t : σ) : Prop where
  lt : n < k
  last : rounds body k s = some t
  stops : stop t = some true
  goesOn : ∀ j, n < j → j < k → ∃ u, rounds body j s = some u ∧ stop u = some false

variable {body stop}

/-- **Soundness**: a loop that ends has stopped at its first opportunity. -/
theorem StopsFrom.of_doWhile {s : σ} :
    ∀ {fuel n : ℕ} {u : σ} {k : ℕ} {t : σ}, rounds body n s = some u →
      doWhile body stop fuel n u = some (k, t) → StopsFrom body stop s n k t := by
  intro fuel
  induction fuel with
  | zero => exact fun _ h => nomatch h
  | succ fuel ih =>
      intro n u k t hrounds h
      rw [doWhile] at h
      obtain ⟨v, hbody, hrest⟩ := Option.bind_eq_some_iff.mp h
      obtain ⟨b, hstop, hrest⟩ := Option.bind_eq_some_iff.mp hrest
      have hnext : rounds body (n + 1) s = some v := by
        rw [rounds, hrounds, Option.bind_some, hbody]
      cases b with
      | true =>
          cases hrest
          exact ⟨Nat.lt_succ_self n, hnext, hstop, fun j hnj hj => absurd hj (by omega)⟩
      | false =>
          have hfrom := ih hnext hrest
          refine ⟨Nat.lt_of_succ_lt hfrom.lt, hfrom.last, hfrom.stops, fun j hnj hjk => ?_⟩
          rcases Nat.eq_or_lt_of_le (Nat.succ_le_of_lt hnj) with rfl | hlt
          · exact ⟨v, hnext, hstop⟩
          · exact hfrom.goesOn j hlt hjk

/-- **Completeness**: fuel for the rounds that remain is enough. -/
theorem StopsFrom.doWhile {s : σ} {k : ℕ} {t : σ} :
    ∀ {fuel n : ℕ} {u : σ}, n + fuel = k → rounds body n s = some u →
      StopsFrom body stop s n k t → DoWhile.doWhile body stop fuel n u = some (k, t) := by
  intro fuel
  induction fuel with
  | zero => exact fun hk _ h => absurd h.lt (by omega)
  | succ fuel ih =>
      intro n u hk hrounds h
      have hnext : rounds body (n + 1) s = body n u := by rw [rounds, hrounds, Option.bind_some]
      rw [DoWhile.doWhile, ← hnext]
      rcases Nat.eq_or_lt_of_le (Nat.succ_le_of_lt h.lt) with rfl | hlt
      · rw [h.last, Option.bind_some, h.stops, Option.bind_some, if_pos rfl]
      · obtain ⟨v, hv, hstop⟩ := h.goesOn (n + 1) (Nat.lt_succ_self n) hlt
        rw [hv, Option.bind_some, hstop, Option.bind_some, if_neg Bool.false_ne_true]
        exact ih (by omega) hv
          ⟨hlt, h.last, h.stops, fun j hj => h.goesOn j (Nat.lt_of_succ_lt hj)⟩

/-- **The loop** ends for some fuel exactly when a round is the first to stop it. -/
theorem doWhile_iff {s : σ} {k : ℕ} {t : σ} :
    (∃ fuel, doWhile body stop fuel 0 s = some (k, t)) ↔ StopsFrom body stop s 0 k t :=
  ⟨fun ⟨_, h⟩ => .of_doWhile rfl h, fun h => ⟨k, h.doWhile (Nat.zero_add k) rfl⟩⟩

/-- More fuel changes nothing. -/
theorem doWhile_mono {r : ℕ × σ} :
    ∀ {fuel fuel' n : ℕ} {s : σ}, fuel ≤ fuel' → doWhile body stop fuel n s = some r →
      doWhile body stop fuel' n s = some r := by
  intro fuel
  induction fuel with
  | zero => exact fun _ h => nomatch h
  | succ fuel ih =>
      intro fuel' n s hle h
      obtain ⟨more, rfl⟩ := Nat.exists_eq_succ_of_ne_zero (Nat.ne_of_gt (Nat.lt_of_lt_of_le
        (Nat.succ_pos fuel) hle))
      rw [doWhile] at h ⊢
      obtain ⟨t, hbody, hrest⟩ := Option.bind_eq_some_iff.mp h
      obtain ⟨b, hstop, hend⟩ := Option.bind_eq_some_iff.mp hrest
      rw [hbody, Option.bind_some, hstop, Option.bind_some]
      cases b with
      | true => exact hend
      | false => exact ih (Nat.le_of_succ_le_succ hle) hend

/-! ## Two loops

The relation may be any; agreement on failure is part of the conclusion. -/

section Relation

universe v

variable {τ : Type v} {body' : ℕ → τ → Option τ} {stop' : τ → Option Bool}

/-- Loops whose bodies and tests agree on related states agree: both fail, or they take as many
rounds and end in related states. -/
theorem doWhile_rel {R : σ → τ → Prop}
    (hbody : ∀ {n s t}, R s t → Option.Rel R (body n s) (body' n t))
    (hstop : ∀ {s t}, R s t → stop s = stop' t) :
    ∀ {fuel n : ℕ} {s : σ} {t : τ}, R s t →
      Option.Rel (fun p q => p.1 = q.1 ∧ R p.2 q.2) (doWhile body stop fuel n s)
        (doWhile body' stop' fuel n t) := by
  intro fuel
  induction fuel with
  | zero => exact fun _ => .none
  | succ fuel ih =>
      intro n s t hst
      rw [doWhile, doWhile]
      refine Machine.rel_bind (hbody hst) fun {u v} huv => ?_
      rw [hstop huv]
      cases stop' v with
      | none => exact .none
      | some b =>
          cases b with
          | true => exact .some ⟨rfl, huv⟩
          | false => exact ih huv

end Relation

end DoWhile
