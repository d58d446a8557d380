import Mathlib.Data.List.Nodup

/-!
# Partial maps that grow

Names are bound to values one after the other. `Binds f g log` says that `g` is `f` with the
bindings of the log: no name had a value before, none is bound twice, and every other name is as
it was. The values come from a sequence that is used up from the front; `Drawn` says between which
positions.

* `Binds.append`, `Drawn.append` — one stretch after the other;
* `Drawn.nodup` — a sequence without repetitions gives every name a value of its own.
-/

namespace Binding

variable {α β : Type}

/-! ## Names -/

/-- `g` has the bindings of the log, and otherwise those of `f`. -/
structure Binds (f g : α → Option β) (log : List (α × β)) : Prop where
  fresh : ∀ entry ∈ log, f entry.1 = none
  names : (log.map Prod.fst).Nodup
  bound : ∀ entry ∈ log, g entry.1 = some entry.2
  others : ∀ a, a ∉ log.map Prod.fst → g a = f a

variable {f g k : α → Option β} {log log' : List (α × β)}

/-- Nothing has been bound. -/
theorem Binds.nil (h : ∀ a, g a = f a) : Binds f g [] where
  fresh entry hentry := by cases hentry
  names := List.nodup_nil
  bound entry hentry := by cases hentry
  others a _ := h a

/-- One name has been bound. -/
theorem Binds.single {a : α} {b : β} (hfresh : f a = none) (hbound : g a = some b)
    (hothers : ∀ a', a' ≠ a → g a' = f a') : Binds f g [(a, b)] where
  fresh entry hentry := by
    rw [List.mem_singleton] at hentry
    rw [hentry]
    exact hfresh
  names := List.nodup_singleton a
  bound entry hentry := by
    rw [List.mem_singleton] at hentry
    rw [hentry]
    exact hbound
  others a' ha' := by
    apply hothers
    rintro rfl
    exact ha' List.mem_cons_self

/-- A name that has a value keeps it. -/
theorem Binds.keeps (h : Binds f g log) {a : α} {b : β} (hb : f a = some b) : g a = some b := by
  rw [h.others a, hb]
  intro hmem
  rcases List.mem_map.mp hmem with ⟨entry, hentry, rfl⟩
  rw [h.fresh entry hentry] at hb
  cases hb

/-- A name that has none at the end had none before. -/
theorem Binds.none_of_none (h : Binds f g log) {a : α} (ha : g a = none) : f a = none := by
  cases hb : f a with
  | none => rfl
  | some b =>
    rw [h.keeps hb] at ha
    cases ha

/-- One binding after the other. -/
theorem Binds.append (h : Binds f g log) (h' : Binds g k log') : Binds f k (log ++ log') where
  fresh entry hentry := by
    rcases List.mem_append.mp hentry with hold | hnew
    · exact h.fresh entry hold
    · exact h.none_of_none (h'.fresh entry hnew)
  names := by
    rw [List.map_append, List.nodup_append']
    refine ⟨h.names, h'.names, ?_⟩
    intro a hold hnew
    -- a name of the first stretch has a value when the second begins
    rcases List.mem_map.mp hold with ⟨entry, hentry, rfl⟩
    rcases List.mem_map.mp hnew with ⟨entry', hentry', hsame⟩
    have hbound := h.bound entry hentry
    rw [← hsame, h'.fresh entry' hentry'] at hbound
    cases hbound
  bound entry hentry := by
    rcases List.mem_append.mp hentry with hold | hnew
    · exact h'.keeps (h.bound entry hold)
    · exact h'.bound entry hnew
  others a ha := by
    rw [List.map_append, List.mem_append, not_or] at ha
    rw [h'.others a ha.2, h.others a ha.1]

/-! ## Values -/

/-- The values are elements of the sequence from one position up to another, in its order. -/
def Drawn (xs : List β) (start stop : ℕ) (values : List β) : Prop :=
  start ≤ stop ∧ values.Sublist ((xs.drop start).take (stop - start))

theorem Drawn.nil {xs : List β} {start stop : ℕ} (h : start ≤ stop) : Drawn xs start stop [] :=
  ⟨h, List.nil_sublist _⟩

theorem Drawn.single {xs : List β} {start stop : ℕ} {b : β} (hb : xs[start]? = some b)
    (h : start < stop) : Drawn xs start stop [b] := by
  refine ⟨Nat.le_of_lt h, ?_⟩
  rcases List.getElem?_eq_some_iff.mp hb with ⟨hlt, rfl⟩
  rcases Nat.exists_eq_add_of_lt h with ⟨n, rfl⟩
  rw [List.drop_eq_getElem_cons hlt, show start + n + 1 - start = n + 1 by omega,
    List.take_succ_cons]
  exact List.Sublist.cons_cons _ (List.nil_sublist _)

theorem Drawn.append {xs : List β} {start middle stop : ℕ} {values values' : List β}
    (h : Drawn xs start middle values) (h' : Drawn xs middle stop values') :
    Drawn xs start stop (values ++ values') := by
  refine ⟨Nat.le_trans h.1 h'.1, ?_⟩
  have hsplit : (xs.drop start).take (stop - start) =
      (xs.drop start).take (middle - start) ++ (xs.drop middle).take (stop - middle) := by
    have hdrop : xs.drop middle = (xs.drop start).drop (middle - start) := by
      rw [List.drop_drop, Nat.add_sub_cancel' h.1]
    have hlength : stop - start = (middle - start) + (stop - middle) := by
      have := h.1
      have := h'.1
      omega
    rw [hdrop, hlength, List.take_add]
  rw [hsplit]
  exact h.2.append h'.2

/-- What has been drawn is in the sequence, behind what had been drawn before. -/
theorem Drawn.subset {xs : List β} {start stop : ℕ} {values : List β}
    (h : Drawn xs start stop values) {b : β} (hb : b ∈ values) : b ∈ xs.drop start :=
  List.mem_of_mem_take (h.2.subset hb)

theorem Drawn.nodup {xs : List β} {start stop : ℕ} {values : List β}
    (h : Drawn xs start stop values) (hxs : xs.Nodup) : values.Nodup :=
  h.2.nodup ((hxs.sublist (List.drop_sublist _ _)).sublist (List.take_sublist _ _))

end Binding
