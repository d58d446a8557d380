import JingOS.Lib.Hoare
import Mathlib.Logic.Relation

/-!
# What a program may do to its state

A transition system on the states of a program says which atomic changes there are. `Moves r x`
is that every run of the program, whether it returns or stops, is a sequence of such changes.

* rules for `pure`, `bind`, reading and writing the state, and loops, as for `Hoare.Ensures`;
* `MovesFrom` — the same from one state, for a program whose next change depends on what it
  has just read;
* `into` — what every change does, in a preorder, every sequence does.
-/

namespace Hoare

open Relation

variable {ε σ δ α β : Type} {r : σ → σ → Prop} {s s' : σ}

/-- The state at the return, or at the stop. -/
def endState : EStateM.Result ε σ α → σ
  | .ok _ s => s
  | .error _ s => s

/-- From `s` the program takes its changes from `r`. -/
def MovesFrom (r : σ → σ → Prop) (s : σ) (x : EStateM ε σ α) : Prop :=
  ReflTransGen r s (endState (x.run s))

/-- From every state the program takes its changes from `r`. -/
def Moves (r : σ → σ → Prop) (x : EStateM ε σ α) : Prop := ∀ s, MovesFrom r s x

/-! ## Rules -/

theorem MovesFrom.at_ok {x : EStateM ε σ α} {a : α} (h : MovesFrom r s x)
    (hrun : x.run s = .ok a s') : ReflTransGen r s s' := by
  unfold MovesFrom at h
  rwa [hrun] at h

theorem MovesFrom.at_error {x : EStateM ε σ α} {e : ε} (h : MovesFrom r s x)
    (hrun : x.run s = .error e s') : ReflTransGen r s s' := by
  unfold MovesFrom at h
  rwa [hrun] at h

/-- One program after the other, from where the first one has ended. -/
theorem MovesFrom.bind {x : EStateM ε σ α} {f : α → EStateM ε σ β} (hx : MovesFrom r s x)
    (hf : ∀ a s', x.run s = .ok a s' → MovesFrom r s' (f a)) : MovesFrom r s (x >>= f) := by
  unfold MovesFrom
  cases hrun : x.run s with
  | ok a s' =>
    rw [run_bind_ok hrun]
    exact (hx.at_ok hrun).trans (hf a s' hrun)
  | error e s' =>
    rw [run_bind_error hrun]
    exact hx.at_error hrun

theorem Moves.pure (a : α) : Moves r (Pure.pure a : EStateM ε σ α) := fun _ => .refl

theorem Moves.throw (e : ε) : Moves r (throw e : EStateM ε σ α) := fun _ => .refl

theorem Moves.lift {reason : Panic → ε} (x : Checked α) :
    Moves r (Hoare.lift reason x : EStateM ε σ α) := by
  cases x with
  | ok a => exact Moves.pure a
  | error p => exact Moves.throw _

theorem Moves.bind {x : EStateM ε σ α} {f : α → EStateM ε σ β} (hx : Moves r x)
    (hf : ∀ a, Moves r (f a)) : Moves r (x >>= f) :=
  fun s => (hx s).bind fun a s' _ => hf a s'

/-- A checked computation leaves the state as it is. -/
theorem MovesFrom.lift_bind {reason : Panic → ε} {x : Checked α} {f : α → EStateM ε σ β}
    (hf : ∀ a, MovesFrom r s (f a)) : MovesFrom r s (Hoare.lift reason x >>= f) := by
  cases x with
  | ok a => exact hf a
  | error p => exact .refl

/-- The program goes on from the state that it has read. -/
theorem Moves.get {f : σ → EStateM ε σ α} (hf : ∀ s, MovesFrom r s (f s)) :
    Moves r (get >>= f) := hf

theorem Moves.modify {f : σ → σ} (hf : ∀ s, r s (f s)) :
    Moves r (modify f : EStateM ε σ PUnit) := fun s => .single (hf s)

theorem Moves.modifyGet {f : σ → α × σ} (hf : ∀ s, r s (f s).2) :
    Moves r (modifyGet f : EStateM ε σ α) := fun s => .single (hf s)

/-- Writing a whole state is one change when it is one from the state that is there. -/
theorem MovesFrom.set (h : r s s') : MovesFrom r s (set s' : EStateM ε σ PUnit) := .single h

theorem Moves.forM {f : α → EStateM ε σ PUnit} (hf : ∀ a, Moves r (f a)) (xs : List α) :
    Moves r (xs.forM f) := by
  induction xs with
  | nil => exact Moves.pure _
  | cons a xs ih => exact (hf a).bind fun _ => ih

theorem Moves.exceptBind {x : ExceptT δ (EStateM ε σ) α} {f : α → ExceptT δ (EStateM ε σ) β}
    (hx : Moves r x.run) (hf : ∀ a, Moves r (f a).run) : Moves r (x >>= f).run := by
  refine Moves.bind (x := x.run) hx fun result => ?_
  cases result with
  | ok a => exact hf a
  | error e => exact Moves.pure _

/-- A run of two programs that returns, taken apart. -/
theorem of_run_bind_ok {x : EStateM ε σ α} {f : α → EStateM ε σ β} {b : β} {s'' : σ}
    (h : (x >>= f).run s = .ok b s'') :
    ∃ a s', x.run s = .ok a s' ∧ (f a).run s' = .ok b s'' := by
  cases hrun : x.run s with
  | ok a s' =>
    rw [run_bind_ok hrun] at h
    exact ⟨a, s', rfl, h⟩
  | error e s' =>
    rw [run_bind_error hrun] at h
    cases h

/-! ## What the changes have in common -/

/-- A preorder that every change respects. -/
theorem into {t : σ → σ → Prop} (hrefl : ∀ s, t s s)
    (htrans : ∀ a b c, t a b → t b c → t a c) (hstep : ∀ s s', r s s' → t s s')
    (h : ReflTransGen r s s') : t s s' := by
  induction h with
  | refl => exact hrefl _
  | tail _ hlast ih => exact htrans _ _ _ ih (hstep _ _ hlast)

end Hoare
