import Mathlib.Data.List.Basic
import Mathlib.Data.List.Induction

/-!
# Mealy machines and their runs

A deterministic machine reads an input in a state, gives an output and moves to
the next state. Everything that is said about *whole runs* of such a machine goes
through this file: runs and traces of a list of inputs, how they split, and the
three induction rules (a plain invariant, an invariant that only holds while a
budget lasts, and a relation between a state and the trace that led to it). `Since` says
of a trace that something has happened and has not been ended since.
-/

universe u v w

/-- A deterministic machine with outputs. -/
structure Mealy (σ : Type u) (α : Type v) (β : Type w) where
  /-- One step: the output, and the state after it. -/
  next : σ → α → β × σ

namespace Mealy

variable {σ : Type u} {α : Type v} {β : Type w} (M : Mealy σ α β)

/-- The state after a list of inputs. -/
def run (s : σ) : List α → σ
  | [] => s
  | a :: as => run (M.next s a).2 as

/-- The inputs of a run, each with the output it got. -/
def trace (s : σ) : List α → List (α × β)
  | [] => []
  | a :: as => (a, (M.next s a).1) :: trace (M.next s a).2 as

/-- The state before the `k`-th input of a run is taken. -/
def stateAt (s : σ) (as : List α) (k : ℕ) : σ := M.run s (as.take k)

/-- `s` is reached from `s₀` by some run. -/
def Reachable (s₀ s : σ) : Prop := ∃ as, M.run s₀ as = s

/-! ## Splitting a run -/

@[simp] theorem run_nil (s : σ) : M.run s [] = s := rfl

@[simp] theorem run_cons (s : σ) (a : α) (as : List α) :
    M.run s (a :: as) = M.run (M.next s a).2 as := rfl

@[simp] theorem trace_nil (s : σ) : M.trace s [] = [] := rfl

@[simp] theorem trace_cons (s : σ) (a : α) (as : List α) :
    M.trace s (a :: as) = (a, (M.next s a).1) :: M.trace (M.next s a).2 as := rfl

theorem run_append (s : σ) (as bs : List α) :
    M.run s (as ++ bs) = M.run (M.run s as) bs := by
  induction as generalizing s with
  | nil => rfl
  | cons a as ih => exact ih (M.next s a).2

theorem trace_append (s : σ) (as bs : List α) :
    M.trace s (as ++ bs) = M.trace s as ++ M.trace (M.run s as) bs := by
  induction as generalizing s with
  | nil => rfl
  | cons a as ih => simp [ih]

@[simp] theorem stateAt_zero (s : σ) (as : List α) : M.stateAt s as 0 = s := by
  simp [stateAt]

@[simp] theorem stateAt_cons_succ (s : σ) (a : α) (as : List α) (k : ℕ) :
    M.stateAt s (a :: as) (k + 1) = M.stateAt (M.next s a).2 as k := by
  simp [stateAt]

/-- The next state of a run comes from the next input. -/
theorem stateAt_succ {s : σ} {as : List α} {k : ℕ} {a : α} (h : as[k]? = some a) :
    M.stateAt s as (k + 1) = (M.next (M.stateAt s as k) a).2 := by
  simp [stateAt, List.take_add_one, h, run_append]

/-- A run can be cut at any place and a window of it taken from there. -/
theorem stateAt_window (s : σ) (as : List α) {k m c : ℕ} (hm : m ≤ c) :
    M.stateAt (M.stateAt s as k) ((as.drop k).take c) m = M.stateAt s as (k + m) := by
  rw [stateAt, stateAt, stateAt, List.take_take, Nat.min_eq_left hm, List.take_add, run_append]

/-- An event of a trace comes from a step of the run: the inputs split there. -/
theorem trace_split {s : σ} {as : List α} {pre post : List (α × β)} {a : α} {b : β}
    (h : M.trace s as = pre ++ (a, b) :: post) :
    ∃ as₁ as₂, as = as₁ ++ a :: as₂ ∧ M.trace s as₁ = pre ∧
      (M.next (M.run s as₁) a).1 = b := by
  induction pre generalizing s as with
  | nil =>
    cases as with
    | nil => simp at h
    | cons x xs =>
      simp only [trace_cons, List.nil_append, List.cons.injEq, Prod.mk.injEq] at h
      obtain ⟨⟨rfl, rfl⟩, _⟩ := h
      exact ⟨[], xs, rfl, rfl, rfl⟩
  | cons p pre ih =>
    cases as with
    | nil => simp at h
    | cons x xs =>
      simp only [trace_cons, List.cons_append, List.cons.injEq] at h
      obtain ⟨rfl, h⟩ := h
      obtain ⟨as₁, as₂, rfl, htr, hb⟩ := ih h
      exact ⟨x :: as₁, as₂, rfl, by simp [htr], by simpa using hb⟩

/-! ## Induction over runs -/

/-- Inductive invariance. -/
theorem run_invariant (I : σ → Prop) (hstep : ∀ s a, I s → I (M.next s a).2)
    {s : σ} (hs : I s) (as : List α) : I (M.run s as) := by
  induction as generalizing s with
  | nil => exact hs
  | cons a as ih => exact ih (hstep s a hs)

/-- Inductive invariance under a budget: `G` (say, a counter below its limit) can
only be lost along a run, never regained, and steps need to keep `I` only while
`G` still holds after them. -/
theorem run_invariant_while (G I : σ → Prop) (hG : ∀ s a, G (M.next s a).2 → G s)
    (hstep : ∀ s a, I s → G (M.next s a).2 → I (M.next s a).2)
    {s : σ} (hs : I s) (as : List α) (hend : G (M.run s as)) : I (M.run s as) := by
  have hback : ∀ (as : List α) (s : σ), G (M.run s as) → G s := by
    intro as
    induction as with
    | nil => exact fun s h => h
    | cons a as ih => exact fun s h => hG s a (ih _ h)
  induction as generalizing s with
  | nil => exact hs
  | cons a as ih => exact ih (hstep s a hs (hback as _ hend)) hend

/-- Induction on a run together with its trace: a relation between the trace so far
and the state holds at the end if it holds at the start and every step, read as one
more event of the trace, keeps it. -/
theorem run_trace_invariant (R : List (α × β) → σ → Prop)
    (hstep : ∀ tr s a, R tr s → R (tr ++ [(a, (M.next s a).1)]) (M.next s a).2)
    {s : σ} (hs : R [] s) (as : List α) : R (M.trace s as) (M.run s as) := by
  have hgen : ∀ (as : List α) (tr : List (α × β)) (s : σ), R tr s →
      R (tr ++ M.trace s as) (M.run s as) := by
    intro as
    induction as with
    | nil => intro tr s h; simpa using h
    | cons a as ih =>
      intro tr s h
      simpa using ih _ _ (hstep tr s a h)
  simpa using hgen as [] s hs

/-! ## What has not been ended since -/

section Since

variable {ε : Type u}

/-- `e` has happened, after `pre`, and nothing since then `ends` it. -/
def Since (ends : ε → Bool) (pre : List ε) (e : ε) (tr : List ε) : Prop :=
  ∃ post, tr = pre ++ e :: post ∧ ∀ later ∈ post, ends later = false

theorem not_since_nil (ends : ε → Bool) (pre : List ε) (e : ε) : ¬ Since ends pre e [] := by
  rintro ⟨post, heq, -⟩
  simp at heq

/-- One event later: it is the one looked for, or it does not end it. -/
theorem since_append {ends : ε → Bool} {pre tr : List ε} {e last : ε} :
    Since ends pre e (tr ++ [last]) ↔
      (pre = tr ∧ e = last) ∨ (ends last = false ∧ Since ends pre e tr) := by
  constructor
  · rintro ⟨post, heq, hpost⟩
    rcases List.eq_nil_or_concat post with rfl | ⟨front, x, rfl⟩
    · rcases List.append_inj' heq rfl with ⟨rfl, hlast⟩
      exact Or.inl ⟨rfl, (List.singleton_inj.mp hlast).symm⟩
    · rw [List.concat_eq_append, ← List.cons_append, ← List.append_assoc] at heq
      rcases List.append_inj' heq rfl with ⟨rfl, hlast⟩
      obtain rfl := List.singleton_inj.mp hlast
      refine Or.inr ⟨hpost _ (by simp), front, rfl, ?_⟩
      intro later hlater
      exact hpost later (by simp [hlater])
  · rintro (⟨rfl, rfl⟩ | ⟨hlast, post, rfl, hpost⟩)
    · exact ⟨[], rfl, by simp⟩
    · refine ⟨post ++ [last], by simp, ?_⟩
      intro later hlater
      rcases List.mem_append.mp hlater with hlater | hlater
      · exact hpost later hlater
      · rwa [List.mem_singleton.mp hlater]

/-- What has not been ended since the start of a trace that goes on after its end, has happened
after that end. -/
theorem since_mem {ends : ε → Bool} {pre front back : List ε} {e stop : ε}
    (h : Since ends pre e (front ++ stop :: back)) (hstop : ends stop = true) (hne : e ≠ stop) :
    e ∈ back := by
  induction back using List.reverseRecOn with
  | nil =>
    rcases since_append.mp h with ⟨-, heq⟩ | ⟨hquiet, -⟩
    · exact absurd heq hne
    · rw [hstop] at hquiet
      cases hquiet
  | append_singleton back last ih =>
    rw [← List.cons_append, ← List.append_assoc] at h
    rcases since_append.mp h with ⟨-, rfl⟩ | ⟨-, hsince⟩
    · simp
    · exact List.mem_append_left _ (ih hsince)

end Since

end Mealy
