import JingOS.Task.Invariant
import Mathlib.Tactic.IntervalCases

/-!
# Fairness of the round-robin cursor

One cursor serves all priority levels. `selected_eq` makes a `step` one round of
`RoundRobin` with the ready tasks of top priority as candidates, so everything here is
the measure of that library carried through the other calls, none of which moves the
cursor.

* `top_priority_rotation` — among the tasks of top priority nobody waits longer than
  eight steps, and a fixed set of them is served in exact rotation;
* `equals_alternate` — two ready tasks of one priority alternate, except when a task of
  a higher priority is run from a slot between the two: that puts the shared cursor
  behind the one whose turn it was. `equal_task_passed_over` is such a run.
-/

namespace JingOS.Task

open RoundRobin

/-- `step now` on `t` runs the task in slot `i`. -/
def Selects (t : TaskTable) (now : UInt64) (i : Fin maxTasks) : Prop :=
  (t.woken now).selected = some i

instance (t : TaskTable) (now : UInt64) (i : Fin maxTasks) : Decidable (Selects t now i) :=
  inferInstanceAs (Decidable (_ = _))

/-- Is the call a `step`? -/
def Op.isStep : Op → Bool
  | .step _ => true
  | _ => false

/-! ## The cursor -/

/-- Only a `step` moves the cursor. -/
theorem nextRrIndex_of_call {t t' : TaskTable} {op : Op} {r : Reply} (hcall : Call t op r t')
    (hop : op.isStep = false) : t'.nextRrIndex = t.nextRrIndex := by
  cases hcall with
  | stepIdle | stepRun => simp [Op.isStep] at hop
  | _ => rfl

theorem cursor_of_exec (t : TaskTable) {op : Op} (hop : op.isStep = false) :
    (exec t op).2.cursor = t.cursor := by
  rw [TaskTable.cursor, nextRrIndex_of_call (exec_call t op) hop, TaskTable.cursor]

/-- A `step` reports the task of the slot it selects and puts the cursor behind it. -/
theorem step_of_selects {t : TaskTable} {now : UInt64} {i : Fin maxTasks}
    (h : Selects t now i) :
    (t.step now).1.map (·.id) = (t.slots i).map (·.id) ∧ (t.step now).2.cursor = i + 1 := by
  have hcall := step_call t now
  revert hcall
  generalize (t.step now).1 = r, (t.step now).2 = t'
  intro hcall
  cases hcall with
  | stepIdle hsel => simp [Selects, hsel] at h
  | @stepRun _ j task hsel hslot =>
    obtain rfl : j = i := Option.some.inj (hsel.symm.trans h)
    obtain ⟨old, hold, rfl⟩ := TaskTable.woken_slots_eq_some.mp hslot
    refine ⟨by simp [hold, reportOf], ?_⟩
    ext
    simp [TaskTable.cursor, Fin.val_add]

/-- In a round of the scheduler some slot is selected as soon as one is top-ready. -/
theorem exists_selects {t : TaskTable} {now : UInt64} {i : Fin maxTasks}
    (h : (t.woken now).topReady i = true) : ∃ j, Selects t now j := by
  cases hsel : (t.woken now).selected with
  | some j => exact ⟨j, hsel⟩
  | none =>
    obtain ⟨task, hslot, hready, -⟩ := TaskTable.topReady_iff.mp h
    exact absurd hready (TaskTable.selected_none hsel hslot)

theorem firstFrom_of_selects {t : TaskTable} {now : UInt64} {i : Fin maxTasks}
    (h : Selects t now i) : firstFrom (t.woken now).topReady t.cursor = some i := by
  have heq := TaskTable.selected_eq (t.woken now)
  rw [show (t.woken now).selected = some i from h] at heq
  exact heq.symm

/-! ## Bounded bypass -/

/-- While `i` is top-ready at every step, more steps than its distance from the cursor
include one that selects it. -/
theorem selects_within (ops : List Op) (i : Fin maxTasks) (n : ℕ) :
    ∀ t : TaskTable, dist t.cursor i < n → n ≤ ops.countP Op.isStep →
      (∀ k now, ops[k]? = some (.step now) →
        ((scheduler.stateAt t ops k).woken now).topReady i = true) →
      ∃ k now, ops[k]? = some (.step now) ∧ (ops.take k).countP Op.isStep < n ∧
        Selects (scheduler.stateAt t ops k) now i := by
  induction ops generalizing n with
  | nil => intro t hdist hsteps _; simp at hsteps; omega
  | cons op ops ih =>
    intro t hdist hsteps htop
    have htail : ∀ k now, ops[k]? = some (.step now) →
        ((scheduler.stateAt (exec t op).2 ops k).woken now).topReady i = true := by
      intro k now hk
      simpa using htop (k + 1) now (by simpa using hk)
    cases hop : op.isStep with
    | false =>
      -- another call: the cursor stays where it is
      have hsteps' : n ≤ ops.countP Op.isStep := by simpa [hop] using hsteps
      obtain ⟨k, now, hk, hcount, hsel⟩ :=
        ih n (exec t op).2 (by rwa [cursor_of_exec t hop]) hsteps' htail
      exact ⟨k + 1, now, by simpa using hk, by simpa [hop] using hcount, by simpa using hsel⟩
    | true =>
      obtain ⟨now, rfl⟩ : ∃ now, op = .step now := by
        cases op <;> simp [Op.isStep] at hop
        exact ⟨_, rfl⟩
      have hcand : (t.woken now).topReady i = true := by simpa using htop 0 now rfl
      obtain ⟨j, hj⟩ := exists_selects hcand
      by_cases hji : i = j
      · subst hji
        exact ⟨0, now, rfl, by simp; omega, by simpa using hj⟩
      · -- passed over: the distance to `i` has shrunk
        have hlt : dist (j + 1) i < dist t.cursor i :=
          dist_lt_of_pick (firstFrom_of_selects hj) hcand hji
        have hcursor : (exec t (.step now)).2.cursor = j + 1 := (step_of_selects hj).2
        have hsteps' : n - 1 ≤ ops.countP Op.isStep := by
          rw [List.countP_cons_of_pos hop] at hsteps
          omega
        obtain ⟨k, later, hk, hcount, hsel⟩ :=
          ih (n - 1) (exec t (.step now)).2 (by rw [hcursor]; omega) hsteps' htail
        refine ⟨k + 1, later, by simpa using hk, ?_, by simpa using hsel⟩
        rw [List.take_succ_cons, List.countP_cons_of_pos hop]
        omega

/-! ## Exact rotation -/

/-- The slots that consecutive steps at the given ticks run. -/
def selections (t : TaskTable) : List UInt64 → List (Fin maxTasks)
  | [] => []
  | now :: nows => (t.woken now).selected.toList ++ selections (t.step now).2 nows

/-- The ready tasks of top priority, as a set of slots. -/
def topSlots (t : TaskTable) : Finset (Fin maxTasks) := candidates t.topReady

/-- With the same top-ready slots at every step, the selections are the picks of a round
robin over them. -/
theorem selections_eq_picks {S : Finset (Fin maxTasks)} (hS : S.Nonempty) (nows : List UInt64) :
    ∀ t : TaskTable,
      (∀ k now, nows[k]? = some now →
        topSlots ((scheduler.stateAt t (nows.map .step) k).woken now) = S) →
      selections t nows = picks (fun i => decide (i ∈ S)) t.cursor nows.length := by
  induction nows with
  | nil => intro t _; rfl
  | cons now nows ih =>
    intro t hsame
    have hnow : topSlots (t.woken now) = S := by simpa using hsame 0 now rfl
    have hfun : (t.woken now).topReady = fun i => decide (i ∈ S) := by
      funext i
      rw [← hnow, Bool.eq_iff_iff]
      simp [topSlots]
    obtain ⟨i, hi⟩ := hS
    obtain ⟨j, hj⟩ := exists_selects (show (t.woken now).topReady i = true by rw [hfun]; simpa using hi)
    have hpick := firstFrom_of_selects hj
    rw [hfun] at hpick
    have hrest := ih (t.step now).2 (by
      intro k later hk
      simpa [exec] using hsame (k + 1) later (by simpa using hk))
    rw [selections, show (t.woken now).selected = some j from hj, hrest,
      (step_of_selects hj).2, List.length_cons, picks, hpick]
    rfl

/-- Any window of as many consecutive steps as there are top-ready slots selects each of
them once. -/
theorem count_selections {S : Finset (Fin maxTasks)} {t : TaskTable} {nows : List UInt64}
    (hsame : ∀ k now, nows[k]? = some now →
      topSlots ((scheduler.stateAt t (nows.map .step) k).woken now) = S)
    {k : ℕ} (hk : k + S.card ≤ nows.length) {i : Fin maxTasks} (hi : i ∈ S) :
    (selections (scheduler.stateAt t (nows.map .step) k) ((nows.drop k).take S.card)).count i
      = 1 := by
  have hlen : ((nows.drop k).take S.card).length = S.card := by
    rw [List.length_take, List.length_drop]
    omega
  -- the tasks of the window are those that the round robin picks
  have hwindow : selections (scheduler.stateAt t (nows.map .step) k) ((nows.drop k).take S.card) =
      picks (fun j => decide (j ∈ S)) (scheduler.stateAt t (nows.map .step) k).cursor S.card := by
    rw [selections_eq_picks ⟨i, hi⟩ _ _ ?_, hlen]
    intro m now hm
    have hmlt : m < S.card := by
      have := (List.getElem?_eq_some_iff.mp hm).1
      omega
    rw [List.map_take, List.map_drop, Mealy.stateAt_window _ _ _ (Nat.le_of_lt hmlt)]
    refine hsame (k + m) now ?_
    rwa [List.getElem?_take_of_lt hmlt, List.getElem?_drop] at hm
  -- each of them once in as many steps as there are
  have hcard : (candidates fun j => decide (j ∈ S)).card = S.card := by
    congr 1
    ext j
    simp
  have hcount := count_picks (p := fun j => decide (j ∈ S)) (s := i) (by simpa using hi)
    (scheduler.stateAt t (nows.map .step) k).cursor
  rwa [hwindow, ← hcard]

/-- **Bounded bypass and exact rotation at the top priority**, from every table.
First, in a run with at least eight steps, whatever the other calls between them: if at
every step the task `id` is in slot `i`, ready, and no ready task has a higher priority
(sleepers due at that step included), then one of the first eight steps selects it.
Second, as long as consecutive steps see the same `k` ready tasks of top priority, every
`k` steps in a row select each of them exactly once. -/
theorem top_priority_rotation :
    (∀ (t : TaskTable) (ops : List Op) (i : Fin maxTasks) (id : UInt64),
      8 ≤ ops.countP Op.isStep →
      (∀ k now, ops[k]? = some (.step now) →
        ((scheduler.stateAt t ops k).slots i).map (·.id) = some id ∧
          ((scheduler.stateAt t ops k).woken now).topReady i = true) →
      ∃ k now, ops[k]? = some (.step now) ∧ (ops.take k).countP Op.isStep < 8 ∧
        Selects (scheduler.stateAt t ops k) now i ∧
        ((scheduler.stateAt t ops k).step now).1.map (·.id) = some id) ∧
    (∀ (t : TaskTable) (nows : List UInt64) (S : Finset (Fin maxTasks)),
      (∀ k now, nows[k]? = some now →
        topSlots ((scheduler.stateAt t (nows.map .step) k).woken now) = S) →
      ∀ k, k + S.card ≤ nows.length → ∀ i ∈ S,
        (selections (scheduler.stateAt t (nows.map .step) k)
          ((nows.drop k).take S.card)).count i = 1) := by
  constructor
  · intro t ops i id hsteps hready
    obtain ⟨k, now, hk, hcount, hsel⟩ := selects_within ops i 8 t (dist_lt _ _) hsteps
      fun k now hk => (hready k now hk).2
    refine ⟨k, now, hk, hcount, hsel, ?_⟩
    rw [(step_of_selects hsel).1]
    exact (hready k now hk).1
  · intro t nows S hsame k hk i hi
    exact count_selections hsame hk hi

/-- Three tasks, eight steps with a `spawn` and a `sleep` among them, and a rotation of two. -/
theorem top_priority_rotation_three_tasks :
    let t := scheduler.run bootstrapped [.spawn .userDemo, .spawn .userDemo, .setPriority 3 5 0]
    let ops : List Op := [.step 1, .step 2, .spawn .kernelMonitor, .step 3, .step 4, .sleep 3 9 4,
      .step 5, .step 6, .step 7, .step 8]
    (∃ k now, ops[k]? = some (.step now) ∧ (ops.take k).countP Op.isStep < 8 ∧
      Selects (scheduler.stateAt t ops k) now 1 ∧
      ((scheduler.stateAt t ops k).step now).1.map (·.id) = some 2) ∧
    (selections (scheduler.stateAt t ([1, 2, 3].map .step) 1) [2, 3]).count 1 = 1 := by
  intro t ops
  refine ⟨top_priority_rotation.1 t ops 1 2 (by decide) ?_,
    top_priority_rotation.2 t [1, 2, 3] {0, 1} ?_ 1 (by decide) 1 (by decide)⟩
  · intro k now hk
    have hlen := (List.getElem?_eq_some_iff.mp hk).1
    simp only [ops, List.length_cons, List.length_nil] at hlen
    interval_cases k <;> simp only [ops, List.getElem?_cons_succ, List.getElem?_cons_zero,
      Option.some.injEq, Op.step.injEq, reduceCtorEq] at hk <;> subst hk <;> decide
  · intro k now hk
    have hlen := (List.getElem?_eq_some_iff.mp hk).1
    simp only [List.length_cons, List.length_nil] at hlen
    interval_cases k <;> simp only [List.getElem?_cons_succ, List.getElem?_cons_zero,
      Option.some.injEq] at hk <;> subst hk <;> decide

/-! ## Two tasks of one priority

The cursor decides who of two equals is next, and every selection at every level moves
it. As long as `b` stands before `a` from the cursor, `a` is not selected; a task of a
higher priority can undo this order only from a slot between `b` and `a`. -/

/-- The slots hold two ready tasks of the same priority. -/
def equalReady (t : TaskTable) (a b : Fin maxTasks) : Bool :=
  match t.slots a, t.slots b with
  | some A, some B => A.state == .ready && B.state == .ready && A.priority == B.priority
  | _, _ => false

/-- The task in slot `h` has a higher priority than the task in slot `a`. -/
def outranks (t : TaskTable) (h a : Fin maxTasks) : Bool :=
  match t.slots h, t.slots a with
  | some H, some A => A.priority < H.priority
  | _, _ => false

theorem outranks_self (t : TaskTable) (a : Fin maxTasks) : outranks t a a = false := by
  unfold outranks
  cases t.slots a with
  | none => rfl
  | some A => exact decide_eq_false (UInt8.lt_irrefl _)

/-- The ticks of the calls do not go back. -/
def TicksSorted (ops : List Op) : Prop := (ops.filterMap Op.tick?).Pairwise (· ≤ ·)

instance (ops : List Op) : Decidable (TicksSorted ops) :=
  inferInstanceAs (Decidable (List.Pairwise _ _))

theorem equalReady_iff {t : TaskTable} {a b : Fin maxTasks} :
    equalReady t a b = true ↔ ∃ A B, t.slots a = some A ∧ t.slots b = some B ∧
      A.state = .ready ∧ B.state = .ready ∧ A.priority = B.priority := by
  unfold equalReady
  cases ha : t.slots a <;> cases hb : t.slots b <;> simp [and_assoc]

/-- A ready task is still there, unchanged, after the sleepers have been woken. -/
theorem woken_slots_of_ready {t : TaskTable} {i : Fin maxTasks} {task : TaskInfo}
    (hslot : t.slots i = some task) (hready : task.state = .ready) (now : UInt64) :
    (t.woken now).slots i = some task := by
  rw [TaskTable.woken_slots_eq_some]
  exact ⟨task, hslot, TaskTable.wakeTask_of_ne_sleeping (by simp [hready])⟩

/-- One step with two equal ready tasks `a` and `b`, `b` before `a`: `b` is selected, or a
task that outranks `a` from a slot between `b` and `a`, or `a` is not selected and `b` is
still before `a`. -/
theorem order_of_selects {t : TaskTable} {now : UInt64} {a b i : Fin maxTasks} (hne : a ≠ b)
    (heq : equalReady t a b = true) (hbefore : dist t.cursor b < dist t.cursor a)
    (hsel : Selects t now i) :
    i = b ∨ (outranks t i a = true ∧ dist b i < dist b a) ∨
      (i ≠ a ∧ dist (t.step now).2.cursor b < dist (t.step now).2.cursor a) := by
  obtain ⟨A, B, ha, hb, hAready, hBready, hprio⟩ := equalReady_iff.mp heq
  obtain ⟨task, hslot, -, hmax⟩ := TaskTable.selected_some hsel
  have ha' := woken_slots_of_ready ha hAready now
  have hb' := woken_slots_of_ready hb hBready now
  have hA := hmax a A ha' hAready
  rw [(step_of_selects hsel).2]
  by_cases htop : task.priority = A.priority
  · -- a round at the priority of `a` and `b`
    have hcand : (t.woken now).topReady b = true := by
      rw [TaskTable.topReady_iff]
      refine ⟨B, hb', hBready, fun j other hj hr => ?_⟩
      rw [← hprio, ← htop]
      exact hmax j other hj hr
    rcases before_of_pick (firstFrom_of_selects hsel) hcand hbefore with hib | horder
    · exact Or.inl hib
    · exact Or.inr (Or.inr horder)
  · -- a task of a higher priority was run, so neither `a` nor `b`
    have hia : i ≠ a := by
      rintro rfl
      rw [ha'] at hslot
      obtain rfl := Option.some.inj hslot
      exact htop rfl
    have hib : i ≠ b := by
      rintro rfl
      rw [hb'] at hslot
      obtain rfl := Option.some.inj hslot
      exact htop hprio.symm
    rcases Nat.lt_or_ge (dist b i) (dist b a) with hbetween | hoff
    · refine Or.inr (Or.inl ⟨?_, hbetween⟩)
      obtain ⟨old, hold, rfl⟩ := TaskTable.woken_slots_eq_some.mp hslot
      rw [TaskTable.wakeTask_priority] at htop hA
      simp only [outranks, hold, ha, decide_eq_true_eq]
      exact UInt8.lt_of_le_of_ne hA (Ne.symm htop)
    · exact Or.inr (Or.inr ⟨hia, dist_add_one_lt (Ne.symm hib) (Ne.symm hia) hoff hne⟩)

/-- **Step.** `b` stays before `a`, unless it is selected itself, or a task of a higher priority that
lies between them. -/
theorem order_step {t : TaskTable} {a b : Fin maxTasks} (hne : a ≠ b) (op : Op)
    (hequal : equalReady t a b = true) (horder : dist t.cursor b < dist t.cursor a) :
    dist (exec t op).2.cursor b < dist (exec t op).2.cursor a ∨
      ∃ now, op = .step now ∧ (Selects t now b ∨
        ∃ h, Selects t now h ∧ outranks t h a = true ∧ dist b h < dist b a) := by
  cases hop : op.isStep with
  | false =>
    rw [cursor_of_exec _ hop]
    exact .inl horder
  | true =>
    obtain ⟨now, rfl⟩ : ∃ now, op = .step now := by
      cases op <;> simp [Op.isStep] at hop
      exact ⟨_, rfl⟩
    -- somebody is selected, because `a` is ready
    cases hsel : (t.woken now).selected with
    | none =>
      obtain ⟨A, _, ha, -, hready, -, -⟩ := equalReady_iff.mp hequal
      exact absurd hready (TaskTable.selected_none hsel (woken_slots_of_ready ha hready now))
    | some i =>
      rcases order_of_selects hne hequal horder hsel with rfl | hbad | hgood
      · exact .inr ⟨now, rfl, .inl hsel⟩
      · exact .inr ⟨now, rfl, .inr ⟨i, hsel, hbad⟩⟩
      · exact .inl hgood.2

/-- **Equals alternate.** Two tasks stay in slots `a` and `b`, ready and of the same
priority, from the `j`-th to the `k`-th call of a run, and these two calls are steps that
select `a`. Then a step between them selects `b`, or it selects a task of a higher priority
from a slot that lies between `b` and `a` in circular order. -/
theorem equals_alternate (t : TaskTable) (ops : List Op) (a b : Fin maxTasks) (hne : a ≠ b)
    (j k : ℕ) (hjk : j < k) (first last : UInt64)
    (hj : ops[j]? = some (.step first)) (hk : ops[k]? = some (.step last))
    (hequal : ∀ m, j ≤ m → m ≤ k → equalReady (scheduler.stateAt t ops m) a b = true)
    (hselj : Selects (scheduler.stateAt t ops j) first a)
    (hselk : Selects (scheduler.stateAt t ops k) last a) :
    ∃ m now, j < m ∧ m < k ∧ ops[m]? = some (.step now) ∧
      (Selects (scheduler.stateAt t ops m) now b ∨
        ∃ h, Selects (scheduler.stateAt t ops m) now h ∧
          outranks (scheduler.stateAt t ops m) h a = true ∧ dist b h < dist b a) := by
  by_contra hnone
  -- `b` comes before `a` from the moment `a` is selected until it is selected again
  have horder : ∀ m, j < m → m ≤ k →
      dist (scheduler.stateAt t ops m).cursor b < dist (scheduler.stateAt t ops m).cursor a := by
    intro m hjm
    induction m, hjm using Nat.le_induction with
    | base =>
      intro _
      rw [Mealy.stateAt_succ _ hj]
      simp only [scheduler_next, exec]
      rw [(step_of_selects hselj).2]
      exact before_of_picked (Ne.symm hne)
    | succ m hjm ih =>
      intro hmk
      have hlt : m < ops.length := by
        have := (List.getElem?_eq_some_iff.mp hk).1
        omega
      have hm : ops[m]? = some ops[m] := List.getElem?_eq_getElem hlt
      rw [Mealy.stateAt_succ _ hm, scheduler_next]
      rcases order_step hne ops[m] (hequal m (by omega) (by omega)) (ih (by omega)) with
        hgood | ⟨now, hnow, hbad⟩
      · exact hgood
      · rw [hnow] at hm
        exact absurd ⟨m, now, hjm, hmk, hm, hbad⟩ hnone
  -- so at the last step `b` would have been taken instead
  have hlast := order_of_selects hne (hequal k (by omega) le_rfl) (horder k hjk le_rfl) hselk
  rcases hlast with hab | ⟨hrank, -⟩ | ⟨hself, -⟩
  · exact hne hab
  · rw [outranks_self] at hrank
    cases hrank
  · exact hself rfl

/-- Two tasks in turn: the step between two selections of slot 0 selects slot 1. -/
theorem equals_alternate_two_tasks :
    let ops : List Op := [.spawn .userDemo, .step 1, .step 2, .step 3]
    ∃ m now, 1 < m ∧ m < 3 ∧ ops[m]? = some (.step now) ∧
      (Selects (scheduler.stateAt bootstrapped ops m) now 1 ∨
        ∃ h, Selects (scheduler.stateAt bootstrapped ops m) now h ∧
          outranks (scheduler.stateAt bootstrapped ops m) h 0 = true ∧
          dist (1 : Fin maxTasks) h < dist (1 : Fin maxTasks) 0) := by
  intro ops
  refine equals_alternate bootstrapped ops 0 1 (by decide) 1 3 (by decide) 1 3 rfl rfl ?_
    (by decide) (by decide)
  intro m hm hm'
  interval_cases m <;> decide

/-- The law without the exception: in every run from the table after boot, with ticks that
do not go back, while task `A` stays in slot `a` and task `B` in slot `b`, ready and of the
same priority, there is a step for `B` between any two steps for `A`. -/
def NoStarvationAmongEquals : Prop :=
  ∀ (ops : List Op), TicksSorted ops → ∀ (a b : Fin maxTasks), a ≠ b →
    ∀ (A B : UInt64) (j k : ℕ), j < k → ∀ (first last : UInt64),
    ops[j]? = some (.step first) → ops[k]? = some (.step last) →
    (∀ m, j ≤ m → m ≤ k →
      ((scheduler.stateAt bootstrapped ops m).slots a).map (·.id) = some A ∧
      ((scheduler.stateAt bootstrapped ops m).slots b).map (·.id) = some B ∧
      equalReady (scheduler.stateAt bootstrapped ops m) a b = true) →
    Selects (scheduler.stateAt bootstrapped ops j) first a →
    Selects (scheduler.stateAt bootstrapped ops k) last a →
    ∃ m now, j < m ∧ m < k ∧ ops[m]? = some (.step now) ∧
      Selects (scheduler.stateAt bootstrapped ops m) now b

/-- The shared cursor breaks it: task 1 runs, the sleeping task 3 of a higher priority is
woken from slot 2, runs and goes back to sleep, and the next step runs task 1 again although
task 2 has been ready all the time. -/
theorem equal_task_passed_over : ¬ NoStarvationAmongEquals := by
  intro hlaw
  let ops : List Op := [.spawn .userDemo, .spawn .userDemo, .setPriority 3 20 0, .sleep 3 100 0,
    .step 1, .wake 3 2, .step 3, .sleep 3 100 4, .step 5]
  have hequal : ∀ m, 4 ≤ m → m ≤ 8 →
      ((scheduler.stateAt bootstrapped ops m).slots 0).map (·.id) = some 1 ∧
      ((scheduler.stateAt bootstrapped ops m).slots 1).map (·.id) = some 2 ∧
      equalReady (scheduler.stateAt bootstrapped ops m) 0 1 = true := by
    intro m hm hm'
    interval_cases m <;> decide
  obtain ⟨m, now, hjm, hmk, hm, hsel⟩ := hlaw ops (by decide) 0 1 (by decide) 1 2 4 8 (by decide)
    1 5 rfl rfl hequal (by decide) (by decide)
  -- the only step in between is the one of task 3
  interval_cases m <;> simp only [ops, List.getElem?_cons_succ, List.getElem?_cons_zero,
    Option.some.injEq, Op.step.injEq, reduceCtorEq] at hm
  subst hm
  revert hsel
  decide

end JingOS.Task
