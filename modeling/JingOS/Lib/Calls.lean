import JingOS.Lib.Moves

/-!
# Calls, and what happens between them

A system makes calls, one after the other, and does other things between them. A run of it is
described by the list of its calls: each of them begins in the state that the steps before it have
led to, and the next part of the run begins in the state that the call has left.

* `Run` — such a run, from one state to another;
* `Run.append`, `Run.before` — runs are put together;
* `Run.into` — what every step and every call does, in a preorder, the run does;
* `Run.of_mem` — the run around one of its calls.
-/

universe u

namespace Calls

open Relation

variable {σ : Type} {α : Type u}

/-- From one state to another by the given calls, with steps before, between and behind them. -/
inductive Run (step : σ → σ → Prop) (call : α → σ → σ → Prop) : σ → List α → σ → Prop where
  | idle {s s' : σ} (h : ReflTransGen step s s') : Run step call s [] s'
  | call {s s₁ s₂ s' : σ} {a : α} {as : List α} (hbefore : ReflTransGen step s s₁)
      (hcall : call a s₁ s₂) (hrest : Run step call s₂ as s') : Run step call s (a :: as) s'

section

variable {step : σ → σ → Prop} {call : α → σ → σ → Prop} {s s' s'' : σ} {a : α}
  {as as' : List α}

theorem Run.refl (s : σ) : Run step call s [] s := .idle .refl

/-- Steps before the run. -/
theorem Run.before (hbefore : ReflTransGen step s s') (h : Run step call s' as s'') :
    Run step call s as s'' := by
  cases h with
  | idle h => exact .idle (hbefore.trans h)
  | call h hcall hrest => exact .call (hbefore.trans h) hcall hrest

/-- One run behind the other. -/
theorem Run.append (h : Run step call s as s') (h' : Run step call s' as' s'') :
    Run step call s (as ++ as') s'' := by
  induction h with
  | idle hidle => exact h'.before hidle
  | call hbefore hcall _ ih => exact .call hbefore hcall (ih h')

/-- A run moves in every preorder in which its steps and its calls do. -/
theorem Run.into {t : σ → σ → Prop} (hrefl : ∀ s, t s s) (htrans : ∀ a b c, t a b → t b c → t a c)
    (hstep : ∀ s s', step s s' → t s s') (h : Run step call s as s')
    (hcall : ∀ a ∈ as, ∀ s s', call a s s' → t s s') : t s s' := by
  have hsteps : ∀ {s s' : σ}, ReflTransGen step s s' → t s s' := Hoare.into hrefl htrans hstep
  induction h with
  | idle h => exact hsteps h
  | call hbefore h _ ih =>
    refine htrans _ _ _ (hsteps hbefore) (htrans _ _ _ (hcall _ List.mem_cons_self _ _ h) ?_)
    exact ih fun a ha => hcall a (List.mem_cons_of_mem _ ha)

/-- Around a call there is a run up to it and a run behind it. -/
theorem Run.of_mem (h : Run step call s as s') (ha : a ∈ as) :
    ∃ front back s₁ s₂, as = front ++ a :: back ∧ Run step call s front s₁ ∧ call a s₁ s₂ ∧
      Run step call s₂ back s' := by
  induction h with
  | idle => exact absurd ha List.not_mem_nil
  | @call s s₁ s₂ _ first rest hbefore hcall hrest ih =>
    rcases List.mem_cons.mp ha with rfl | ha
    · exact ⟨[], rest, s₁, s₂, rfl, .idle hbefore, hcall, hrest⟩
    · rcases ih ha with ⟨front, back, t₁, t₂, rfl, hfront, hmiddle, hback⟩
      exact ⟨first :: front, back, t₁, t₂, rfl, .call hbefore hcall hfront, hmiddle, hback⟩

/-- A run of one call. -/
theorem Run.of_singleton (h : Run step call s [a] s') :
    ∃ s₁ s₂, ReflTransGen step s s₁ ∧ call a s₁ s₂ ∧ ReflTransGen step s₂ s' := by
  cases h with
  | call hbefore hcall hrest =>
    cases hrest with
    | idle hafter => exact ⟨_, _, hbefore, hcall, hafter⟩

end

end Calls
