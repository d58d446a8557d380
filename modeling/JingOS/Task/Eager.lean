import JingOS.Task.Spec

/-!
# Lazy waking equals eager waking

Sleepers are not woken by the timer: every call that looks at the state of a task first wakes
those that are due. Here extra calls of `wake_due` are put between the calls of the scheduler, as
a timer interrupt would make them, and nobody can tell the difference.

* `woken_woken` — waking is absorbed by waking at a later tick;
* `Agree` — two tables that waking makes equal from some ticks on;
* `agree_exec` — a call answers the same on both, and leaves such tables behind;
* `eager_waking_invisible` — so does every run.
-/

namespace JingOS.Task

/-! ## Waking and the other operations -/

namespace TaskTable

variable {t : TaskTable} {earlier later : UInt64}

/-- Waking early and again later is waking later. -/
theorem wakeTask_wakeTask (h : earlier ≤ later) (task : TaskInfo) :
    wakeTask later (wakeTask earlier task) = wakeTask later task := by
  by_cases hdue : isDue earlier task
  · -- a task woken now would also have been woken later
    have hlater : isDue later task = true := by
      simp only [isDue, Bool.and_eq_true, Option.any_eq_true, decide_eq_true_eq] at hdue ⊢
      rcases hdue with ⟨hstate, untilTick, huntil, hle⟩
      exact ⟨hstate, untilTick, huntil, UInt64.le_trans hle h⟩
    have hawake : wakeTask earlier task = { task with state := .ready, sleepUntilTick := none } := by
      rw [wakeTask, if_pos hdue]
    rw [hawake, wakeTask_of_ne_sleeping (by simp), wakeTask, if_pos hlater]
  · rw [wakeTask.eq_def earlier, if_neg hdue]

theorem woken_woken (h : earlier ≤ later) : (t.woken earlier).woken later = t.woken later := by
  simp only [woken, mk.injEq, and_true]
  funext i
  cases t.slots i with
  | none => rfl
  | some task => simp [wakeTask_wakeTask h]

theorem woken_put (i : Fin maxTasks) (slot : Option TaskInfo) :
    (t.put i slot).woken later = (t.woken later).put i (slot.map (wakeTask later)) := by
  simp only [woken, put, mk.injEq, and_true]
  funext j
  by_cases hj : j = i
  · simp [hj]
  · simp [hj]

theorem wakeTask_freshTask (id : UInt64) (kind : TaskKind) :
    wakeTask later (freshTask id kind) = freshTask id kind :=
  wakeTask_of_ne_sleeping (by simp [freshTask])

theorem freeSlot_woken : (t.woken later).freeSlot = t.freeSlot := by
  simp [freeSlot]

theorem any_id_woken (id : UInt64) :
    (t.woken later).tasks.any (·.id == id) = t.tasks.any (·.id == id) := by
  rw [Bool.eq_iff_iff, List.any_eq_true, List.any_eq_true]
  constructor
  · rintro ⟨task, hmem, hid⟩
    rcases mem_tasks.mp hmem with ⟨i, hslot⟩
    rcases woken_slots_eq_some.mp hslot with ⟨old, hold, rfl⟩
    rw [wakeTask_id] at hid
    exact ⟨old, mem_tasks.mpr ⟨i, hold⟩, hid⟩
  · rintro ⟨task, hmem, hid⟩
    rcases mem_tasks.mp hmem with ⟨i, hslot⟩
    refine ⟨wakeTask later task, mem_tasks.mpr ⟨i, by simp [hslot]⟩, ?_⟩
    rw [wakeTask_id]
    exact hid

/-- A new task is not asleep, and ids do not depend on who is. -/
theorem woken_spawn (kind : TaskKind) :
    ((t.woken later).spawn kind).1 = (t.spawn kind).1 ∧
      ((t.woken later).spawn kind).2 = (t.spawn kind).2.woken later := by
  unfold spawn
  rw [freeSlot_woken]
  cases t.freeSlot with
  | none => exact ⟨rfl, rfl⟩
  | some index =>
    refine ⟨rfl, ?_⟩
    have hput := @woken_put t later index (some (freshTask t.nextId kind))
    simp only [Option.map_some, wakeTask_freshTask] at hput
    simp only [woken_nextId, ← hput]
    rfl

theorem woken_ensureBootstrapTask :
    (t.woken later).ensureBootstrapTask = t.ensureBootstrapTask.woken later := by
  unfold ensureBootstrapTask
  rw [any_id_woken]
  split
  · rfl
  · have hput := @woken_put t later 0 (some (freshTask 1 .kernelMonitor))
    simp only [Option.map_some, wakeTask_freshTask] at hput
    simp only [woken_nextId, ← hput]
    rfl

end TaskTable

/-! ## Tables that waking makes equal -/

/-- From every tick on that is not before one of those seen, the two tables are the same once
their due sleepers are woken. -/
def Agree (seen : List UInt64) (t t' : TaskTable) : Prop :=
  ∀ now, (∀ tick ∈ seen, tick ≤ now) → t.woken now = t'.woken now

theorem Agree.refl (seen : List UInt64) (t : TaskTable) : Agree seen t t := fun _ _ => rfl

/-- An extra call of `wake_due` on one side. -/
theorem Agree.wakeDue {seen : List UInt64} {t t' : TaskTable} (h : Agree seen t t')
    (tick : UInt64) : Agree (tick :: seen) (t.wakeDue tick).2 t' := by
  intro now hnow
  rw [List.forall_mem_cons] at hnow
  rw [TaskTable.wakeDue_snd, TaskTable.woken_woken hnow.1]
  exact h now hnow.2

/-- A call that has a tick wakes first, so it sees only the woken table; `sleep` for no ticks
is refused before that, and does nothing. -/
theorem exec_woken {t : TaskTable} {op : Op} {now : UInt64} (htick : op.tick? = some now) :
    (∀ t', t.woken now = t'.woken now → exec t op = exec t' op) ∨
      ∃ r, ∀ t', exec t' op = (r, t') := by
  cases op with
  | init => cases htick
  | spawn kind => cases htick
  -- every operation with a tick wakes the tasks first, so only the woken table counts
  | step tick =>
    cases htick
    left
    intro t' heq
    simp only [exec, TaskTable.step, TaskTable.wakeDue_snd, heq]
  | sleep id ticks tick =>
    cases htick
    by_cases hzero : ticks = 0
    · right
      refine ⟨.id (.error "sleep ticks must be > 0"), ?_⟩
      intro t'
      simp only [exec, TaskTable.sleep, hzero, if_true]
    · left
      intro t' heq
      simp only [exec, TaskTable.sleep, TaskTable.wakeDue_snd, heq, hzero, if_false]
  | wake id tick =>
    cases htick
    left
    intro t' heq
    simp only [exec, TaskTable.wake, TaskTable.wakeDue_snd, heq]
  | remove id tick =>
    cases htick
    left
    intro t' heq
    simp only [exec, TaskTable.remove, TaskTable.wakeDue_snd, heq]
  | setPriority id priority tick =>
    cases htick
    left
    intro t' heq
    simp only [exec, TaskTable.setPriority, TaskTable.wakeDue_snd, heq]

/-- **Step.** The same call keeps tables in agreement that differ in who was woken. -/
theorem agree_exec {seen : List UInt64} {t t' : TaskTable} (h : Agree seen t t') (op : Op)
    (htick : ∀ now, op.tick? = some now → ∀ tick ∈ seen, tick ≤ now) :
    (exec t op).1 = (exec t' op).1 ∧ Agree seen (exec t op).2 (exec t' op).2 := by
  cases hop : op.tick? with
  | some now =>
    rcases exec_woken (t := t) hop with hsame | ⟨r, hrefused⟩
    · rw [hsame t' (h now (htick now hop))]
      exact ⟨rfl, Agree.refl _ _⟩
    · rw [hrefused t, hrefused t']
      exact ⟨rfl, h⟩
  | none =>
    -- the two calls without a tick commute with waking; the last tick of all is late enough
    have hlast : ∀ tick ∈ seen, tick ≤ U64.maxVal := by
      intro tick _
      have hlt := tick.toNat_lt
      rw [UInt64.le_iff_toNat_le, U64.toNat_maxVal]
      omega
    cases op with
    | init =>
      refine ⟨rfl, ?_⟩
      intro now hnow
      simp only [exec]
      rw [← TaskTable.woken_ensureBootstrapTask, ← TaskTable.woken_ensureBootstrapTask, h now hnow]
    | spawn kind =>
      constructor
      · simp only [exec]
        rw [← (@TaskTable.woken_spawn t U64.maxVal kind).1,
          ← (@TaskTable.woken_spawn t' U64.maxVal kind).1, h _ hlast]
      · intro now hnow
        simp only [exec]
        rw [← (TaskTable.woken_spawn kind).2, ← (TaskTable.woken_spawn kind).2, h now hnow]
    | step _ => cases hop
    | sleep _ _ _ => cases hop
    | wake _ _ => cases hop
    | remove _ _ => cases hop
    | setPriority _ _ _ => cases hop

/-! ## Runs with extra calls -/

/-- A call of the scheduler, or an extra call of `wake_due`. -/
inductive EagerCall where
  | op (op : Op)
  | wakeDue (tick : UInt64)
deriving DecidableEq, Repr

/-- The calls of the scheduler among them. -/
def lazyCalls (calls : List EagerCall) : List Op :=
  calls.filterMap fun
    | .op op => some op
    | .wakeDue _ => none

/-- The ticks of the extra calls. -/
def extraTicks (calls : List EagerCall) : List UInt64 :=
  calls.filterMap fun
    | .op _ => none
    | .wakeDue tick => some tick

/-- The replies to the calls of the scheduler, and the table at the end. -/
def eagerRun (t : TaskTable) : List EagerCall → List Reply × TaskTable
  | [] => ([], t)
  | .op op :: calls =>
    ((exec t op).1 :: (eagerRun (exec t op).2 calls).1, (eagerRun (exec t op).2 calls).2)
  | .wakeDue tick :: calls => eagerRun (t.wakeDue tick).2 calls

/-- The replies without the extra calls. -/
def lazyReplies (t : TaskTable) (ops : List Op) : List Reply := (scheduler.trace t ops).map (·.2)

/-- An extra call is not made at a later tick than a call of the scheduler after it. -/
def inOrder : EagerCall → EagerCall → Bool
  | .wakeDue tick, .op op => op.tick?.all (tick ≤ ·)
  | _, _ => true

/-- The clock does not go back from an extra call to a call of the scheduler. -/
def Timely (calls : List EagerCall) : Prop := calls.Pairwise fun call later => inOrder call later

instance (calls : List EagerCall) : Decidable (Timely calls) :=
  inferInstanceAs (Decidable (calls.Pairwise _))

/-- **Run.** Additional calls that wake are not noticed. -/
theorem eagerRun_agrees (calls : List EagerCall) {seen : List UInt64} {t t' : TaskTable}
    (h : Agree seen t t') (htimely : Timely calls)
    (hseen : ∀ op now, .op op ∈ calls → op.tick? = some now → ∀ tick ∈ seen, tick ≤ now) :
    (eagerRun t calls).1 = lazyReplies t' (lazyCalls calls) ∧
      Agree (extraTicks calls ++ seen) (eagerRun t calls).2
        (scheduler.run t' (lazyCalls calls)) := by
  induction calls generalizing seen t t' with
  | nil => exact ⟨rfl, h⟩
  | cons call calls ih =>
    rcases List.pairwise_cons.mp htimely with ⟨hfirst, hrest⟩
    cases call with
    -- an operation gives the same reply on both tables, and they agree again
    | op op =>
      rcases agree_exec h op (fun now hop => hseen op now List.mem_cons_self hop) with
        ⟨hreply, hagree⟩
      have hnext := ih hagree hrest fun op' now hmem => hseen op' now (List.mem_cons_of_mem _ hmem)
      simp only [eagerRun, lazyCalls, lazyReplies, extraTicks, List.filterMap_cons, Mealy.trace_cons,
        Mealy.run_cons, scheduler_next, List.map_cons, hreply] at hnext ⊢
      exact ⟨congrArg _ hnext.1, hnext.2⟩
    -- an extra call is one that the other table makes with its next operation
    | wakeDue tick =>
      have hnext := ih (h.wakeDue tick) hrest (by
        intro op now hmem hop
        rw [List.forall_mem_cons]
        have horder := hfirst _ hmem
        simp only [inOrder, hop, Option.all_some, decide_eq_true_eq] at horder
        exact ⟨horder, hseen op now (List.mem_cons_of_mem _ hmem) hop⟩)
      simp only [eagerRun, lazyCalls, lazyReplies, extraTicks, List.filterMap_cons] at hnext ⊢
      refine ⟨hnext.1, ?_⟩
      intro now hnow
      apply hnext.2 now
      intro tick' hmem
      apply hnow tick'
      simp only [List.mem_append, List.mem_cons] at hmem ⊢
      tauto

/-- **Eager waking.** Extra calls of `wake_due` between the calls of the scheduler change none
of its replies, and after one more `wake_due`, at a tick that is not before theirs, not the
table either. -/
theorem eager_waking_invisible (t : TaskTable) (calls : List EagerCall) (htimely : Timely calls) :
    (eagerRun t calls).1 = lazyReplies t (lazyCalls calls) ∧
      ∀ final, (∀ tick ∈ extraTicks calls, tick ≤ final) →
        ((eagerRun t calls).2.wakeDue final).2 =
          ((scheduler.run t (lazyCalls calls)).wakeDue final).2 := by
  rcases eagerRun_agrees calls (Agree.refl [] t) htimely (by simp) with ⟨hreplies, hagree⟩
  refine ⟨hreplies, ?_⟩
  intro final hfinal
  exact hagree final (by simpa using hfinal)

/-- Task 2 sleeps from tick 10 to tick 15 and is woken by an extra call at 15, in time for the
step at 16. -/
theorem eager_waking_invisible_one_sleeper :
    let t := scheduler.run TaskTable.new [.init, .spawn .userDemo]
    let calls : List EagerCall := [.op (.sleep 2 5 10), .wakeDue 12, .op (.sleep 1 0 12),
      .wakeDue 15, .op (.spawn .userDemo), .op (.step 16), .wakeDue 20]
    (eagerRun t calls).1 = lazyReplies t (lazyCalls calls) ∧
      ((eagerRun t calls).2.wakeDue 20).2 =
        ((scheduler.run t (lazyCalls calls)).wakeDue 20).2 := by
  intro t calls
  rcases eager_waking_invisible t calls (by decide) with ⟨hreplies, hfinal⟩
  refine ⟨hreplies, hfinal 20 ?_⟩
  simp [extraTicks, calls]

end JingOS.Task
