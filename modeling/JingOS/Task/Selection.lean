import JingOS.Task.Invariant

/-!
# What one call does to the table

The other modules of the scheduler are about whole runs. Here a single call on a reachable
table is described to the last field.

* `step_selection` — which task `step` runs: top priority first, then the circular order
  from the cursor; and that nothing else of the table changes;
* `operations_touch_target` — `sleep`, `wake`, `remove` and `set_priority` change the slot
  of their task and no other, and an error leaves nothing behind but the woken sleepers.
-/

namespace JingOS.Task

variable {t t' : TaskTable} {op : Op} {r : Reply}

/-! ## Well-formed tasks without a limit on the ids -/

/-- Every task of the table is well formed. Unlike `Inv` this does not rest on the ids, so
it outlives the saturation of the counter. -/
def AllWellFormed (t : TaskTable) : Prop := ∀ i task, t.slots i = some task → task.WellFormed

theorem AllWellFormed.woken (h : AllWellFormed t) (now : UInt64) : AllWellFormed (t.woken now) := by
  intro i task hslot
  rcases TaskTable.woken_slots_eq_some.mp hslot with ⟨old, hold, rfl⟩
  exact wakeTask_wellFormed (h i old hold) now

theorem AllWellFormed.put (h : AllWellFormed t) (i : Fin maxTasks) {slot : Option TaskInfo}
    (hslot : ∀ task, slot = some task → task.WellFormed) : AllWellFormed (t.put i slot) := by
  intro j task hj
  rcases TaskTable.put_slots_cases hj with ⟨-, heq⟩ | ⟨-, hold⟩
  · exact hslot task heq
  · exact h j task hold

/-- One call leaves well-formed tasks well formed. -/
theorem allWellFormed_step (hcall : Call t op r t') (h : AllWellFormed t) : AllWellFormed t' := by
  have hput : ∀ {t : TaskTable} {i task}, AllWellFormed t → task.WellFormed →
      AllWellFormed (t.put i (some task)) := by
    intro t i task ht htask
    refine ht.put i fun task' heq => ?_
    rwa [← Option.some.inj heq]
  cases hcall with
  | initKeep | spawnFull | sleepZero => exact h
  | initWrite => exact hput h (freshTask_wellFormed _ _)
  | spawnAt => exact hput h (freshTask_wellFormed _ _)
  | stepIdle | sleepRefused | wakeRefused | wakeAwake | removeBootstrap | removeRefused
  | setPriorityRefused => exact h.woken _
  | stepRun => exact hput (h.woken _) ⟨by simp [ranOnce], by simp [ranOnce]⟩
  | sleepOk => exact hput (h.woken _) ⟨by simp, by simp⟩
  | wakeOk => exact hput (h.woken _) ⟨by simp, by simp⟩
  | removeOk => exact (h.woken _).put _ (by simp)
  | setPriorityOk hfind hrun =>
    have hwf := h.woken _ _ _ (TaskTable.findTask_some hfind).1
    exact hput (h.woken _) hwf

theorem allWellFormed_of_reachable (hreach : scheduler.Reachable TaskTable.new t) :
    AllWellFormed t := by
  rcases hreach with ⟨ops, rfl⟩
  refine scheduler.run_invariant AllWellFormed
    (fun s op hs => allWellFormed_step (exec_call s op) hs) ?_ ops
  intro i task hslot
  simp [TaskTable.new] at hslot

/-- Running a ready task once changes its run count only. -/
theorem ranOnce_of_ready {task : TaskInfo} (hwf : task.WellFormed) (hready : task.state = .ready) :
    ranOnce task = { task with runCount := U64.saturatingAdd task.runCount 1 } := by
  have htick : task.sleepUntilTick = none := by
    rw [Option.eq_none_iff_forall_not_mem]
    intro tick hmem
    have hasleep := hwf.1.mpr (Option.isSome_iff_exists.mpr ⟨tick, hmem⟩)
    simp [hready] at hasleep
  rw [ranOnce, ← hready, ← htick]

/-! ## The selection -/

/-- The slot met at distance `k` from the cursor. -/
theorem val_eq_cursor_add (t : TaskTable) (i : Fin maxTasks) :
    i.val = (t.nextRrIndex + RoundRobin.dist t.cursor i) % maxTasks := by
  have hplace : i = t.cursor + (i - t.cursor) := by abel
  have hval : i.val = (t.cursor.val + (i - t.cursor).val) % maxTasks := by
    conv_lhs => rw [hplace, Fin.val_add]
  rw [hval]
  simp [TaskTable.cursor, RoundRobin.dist]

/-- A slot that stands `k < maxTasks` places behind the cursor is at distance `k` from it. -/
theorem dist_of_val_eq {i : Fin maxTasks} {k : ℕ} (hk : k < maxTasks)
    (h : i.val = (t.nextRrIndex + k) % maxTasks) : RoundRobin.dist t.cursor i = k := by
  have hdist := RoundRobin.dist_lt t.cursor i
  have hval := val_eq_cursor_add t i
  simp only [maxTasks] at *
  omega

/-- The selected slot is the first one in circular order among the ready tasks of its
priority: whoever is met before it has a lower one. -/
theorem selected_first {w : TaskTable} {i : Fin maxTasks} {task : TaskInfo}
    (hsel : w.selected = some i) (hslot : w.slots i = some task) {earlier : ℕ}
    (hearlier : earlier < RoundRobin.dist w.cursor i) {j : Fin maxTasks} {other : TaskInfo}
    (hj : j.val = (w.nextRrIndex + earlier) % maxTasks) (hother : w.slots j = some other)
    (hready : other.state = .ready) : other.priority < task.priority := by
  rcases TaskTable.selected_some hsel with ⟨task', hslot', -, hmax⟩
  rw [hslot] at hslot'
  obtain rfl := Option.some.inj hslot'
  rw [TaskTable.selected_eq] at hsel
  have hdist : RoundRobin.dist w.cursor j = earlier :=
    dist_of_val_eq (hearlier.trans (RoundRobin.dist_lt _ _)) hj
  by_contra hnot
  have heq : other.priority = task.priority :=
    UInt8.le_antisymm (hmax j other hother hready) (UInt8.not_lt.mp hnot)
  -- the other task would be a candidate that stands nearer to the cursor
  have htop : w.topReady j = true := by
    rw [TaskTable.topReady_iff]
    refine ⟨other, hother, hready, fun l third hl hthird => ?_⟩
    rw [heq]
    exact hmax l third hl hthird
  have hle := (RoundRobin.firstFrom_spec hsel).2 j htop
  omega

/-- **Selection by `step`.** With `w` the table after the due sleepers are woken: nothing is
run exactly when no task of `w` is ready, and then `w` is left. Otherwise the report is that
of a ready task of maximal priority, the first of that priority in circular order from the
cursor; in its slot the run count has gone up, the cursor stands behind the slot, and all the
rest of `w` is as it was. -/
theorem step_selection (t : TaskTable) (hreach : scheduler.Reachable TaskTable.new t)
    (now : UInt64) :
    let w := (t.wakeDue now).2
    ((t.step now).1 = none ↔ ∀ i task, w.slots i = some task → task.state ≠ .ready) ∧
    ((t.step now).1 = none → (t.step now).2 = w) ∧
    ∀ report, (t.step now).1 = some report →
      ∃ i task, w.slots i = some task ∧ task.state = .ready ∧
        (∀ j other, w.slots j = some other → other.state = .ready →
          other.priority ≤ task.priority) ∧
        (∃ k < maxTasks, i.val = (w.nextRrIndex + k) % maxTasks ∧
          ∀ earlier < k, ∀ j other, j.val = (w.nextRrIndex + earlier) % maxTasks →
            w.slots j = some other → other.state = .ready → other.priority < task.priority) ∧
        report.id = task.id ∧ report.kind = task.kind ∧
        report.runCount = U64.saturatingAdd task.runCount 1 ∧
        (t.step now).2.slots i =
          some { task with state := .ready, runCount := U64.saturatingAdd task.runCount 1 } ∧
        (∀ j, j ≠ i → (t.step now).2.slots j = w.slots j) ∧
        (t.step now).2.nextId = w.nextId ∧
        (t.step now).2.nextRrIndex = (i.val + 1) % maxTasks := by
  intro w
  have hwf : AllWellFormed w := (allWellFormed_of_reachable hreach).woken now
  have hcall := step_call t now
  revert hcall
  generalize (t.step now).1 = outcome, (t.step now).2 = after
  intro hcall
  cases hcall with
  -- no task is ready
  | stepIdle hsel =>
    have hidle : ∀ i task, w.slots i = some task → task.state ≠ .ready :=
      fun i task hslot => TaskTable.selected_none hsel hslot
    refine ⟨⟨fun _ => hidle, fun _ => rfl⟩, fun _ => rfl, ?_⟩
    intro report hreport
    simp at hreport
  -- the one that is run is the first of those with the highest priority
  | @stepRun _ i task hsel hslot =>
    rcases TaskTable.selected_some hsel with ⟨task', hslot', hready, hmax⟩
    rw [hslot] at hslot'
    obtain rfl := Option.some.inj hslot'
    refine ⟨⟨by simp, fun hidle => absurd hready (hidle i task hslot)⟩, by simp, ?_⟩
    intro report hreport
    obtain rfl := Option.some.inj hreport
    refine ⟨i, task, hslot, hready, hmax, ?_, rfl, rfl, rfl, ?_, ?_, rfl, rfl⟩
    · refine ⟨_, RoundRobin.dist_lt w.cursor i, val_eq_cursor_add w i, ?_⟩
      intro earlier hearlier j other hj hother hother_ready
      exact selected_first hsel hslot hearlier hj hother hother_ready
    · have hran := ranOnce_of_ready (hwf i task hslot) hready
      simp [hran, hready]
    · intro j hj
      exact TaskTable.put_slots_ne _ _ hj

/-- Three tasks, the cursor behind slot 1, and task 3 in slot 2 falls due: it ties with task 1
and comes first. -/
theorem step_selection_tie :
    let t := scheduler.run TaskTable.new [.init, .spawn .userDemo, .spawn .kernelMonitor,
      .step 0, .step 0, .sleep 3 5 0, .setPriority 2 0 0]
    (t.wakeDue 5).2.nextRrIndex = 2 ∧ (t.step 5).1 = some ⟨3, .kernelMonitor, 1⟩ ∧
      ∃ i task, (t.wakeDue 5).2.slots i = some task ∧ task.id = 3 ∧
        (t.step 5).2.nextRrIndex = (i.val + 1) % maxTasks := by
  intro t
  have hreport : (t.step 5).1 = some ⟨3, .kernelMonitor, 1⟩ := by decide
  have hspec := step_selection t ⟨_, rfl⟩ 5
  rcases hspec.2.2 _ hreport with ⟨i, task, hslot, -, -, -, hid, -, -, -, -, -, hcursor⟩
  exact ⟨by decide, hreport, i, task, hslot, hid.symm, hcursor⟩

/-! ## Operations on one task -/

/-- Some live task has the id. -/
def HasTask (t : TaskTable) (id : UInt64) : Prop := ∃ i task, t.slots i = some task ∧ task.id = id

/-- `t'` is `w` but for the slot that holds `id`, whose task has become `change task`. -/
structure ChangedAt (w t' : TaskTable) (id : UInt64) (change : TaskInfo → Option TaskInfo) :
    Prop where
  live : HasTask w id
  target : ∀ i task, w.slots i = some task → task.id = id → t'.slots i = change task
  others : ∀ i, (∀ task, w.slots i = some task → task.id ≠ id) → t'.slots i = w.slots i
  nextId : t'.nextId = w.nextId
  nextRrIndex : t'.nextRrIndex = w.nextRrIndex

theorem hasTask_woken {id : UInt64} (now : UInt64) :
    HasTask (t.woken now) id ↔ HasTask t id := by
  constructor
  · rintro ⟨i, task, hslot, hid⟩
    rcases TaskTable.woken_slots_eq_some.mp hslot with ⟨old, hold, rfl⟩
    exact ⟨i, old, hold, by simpa using hid⟩
  · rintro ⟨i, task, hslot, hid⟩
    exact ⟨i, _, TaskTable.woken_slots_eq_some.mpr ⟨task, hslot, rfl⟩, by simpa using hid⟩

/-- Rewriting the slot a search for `id` has found. -/
theorem changedAt_put {w : TaskTable} {id : UInt64} {i : Fin maxTasks} {task : TaskInfo}
    (hinv : Inv w) (hfind : w.findTask id = some (i, task)) {slot : Option TaskInfo}
    {change : TaskInfo → Option TaskInfo} (hslot : slot = change task) :
    ChangedAt w (w.put i slot) id change := by
  rcases TaskTable.findTask_some hfind with ⟨hi, hid⟩
  constructor
  · exact ⟨i, task, hi, hid⟩
  · intro j other hj hother
    -- the ids are unique, so the slot is the one that was found
    obtain rfl : j = i := hinv.distinct hj hi (hother.trans hid.symm)
    rw [hi] at hj
    obtain rfl := Option.some.inj hj
    rw [TaskTable.put_slots_self, hslot]
  · intro j hj
    have hne : j ≠ i := by
      rintro rfl
      exact hj task hi hid
    exact TaskTable.put_slots_ne _ _ hne
  · rfl
  · rfl

/-- A task that is found is live, so another reason than "task not found" turns it down. -/
theorem refused_notFound {id now : UInt64} {message : String}
    (h : Refused (t.woken now) id message) :
    message = "task not found" ↔ ¬ HasTask t id := by
  rw [← hasTask_woken now]
  cases h with
  | notFound hnone =>
    refine ⟨fun _ => ?_, fun _ => rfl⟩
    rintro ⟨i, task, hslot, hid⟩
    exact hnone i task hslot hid
  | running hfind hrun =>
    rcases TaskTable.findTask_some hfind with ⟨hslot, hid⟩
    refine ⟨fun heq => absurd heq (by decide), fun hnone => ?_⟩
    exact absurd ⟨_, _, hslot, hid⟩ hnone

theorem hasTask_of_findTask {id now : UInt64} {i : Fin maxTasks} {task : TaskInfo}
    (hfind : (t.woken now).findTask id = some (i, task)) : HasTask t id := by
  rcases TaskTable.findTask_some hfind with ⟨hslot, hid⟩
  exact (hasTask_woken _).mp ⟨i, task, hslot, hid⟩

/-- What an operation on the task `id` may do: on an error the table is `kept`, on success
the task's slot alone has changed; and it is "task not found" exactly when no live task has
the id, unless the request is turned down `early`. -/
structure TouchesTarget {α : Type} (t : TaskTable) (id now : UInt64) (early : Prop)
    (kept : TaskTable) (change : α → TaskInfo → Option TaskInfo)
    (outcome : Except String α × TaskTable) : Prop where
  onError : ∀ message, outcome.1 = .error message → outcome.2 = kept
  notFound : outcome.1 = .error "task not found" ↔ ¬ early ∧ ¬ HasTask t id
  onOk : ∀ result, outcome.1 = .ok result →
    ChangedAt (t.wakeDue now).2 outcome.2 id (change result)

section Outcomes

variable {α : Type} {id now : UInt64} {early : Prop} {kept : TaskTable}
  {change : α → TaskInfo → Option TaskInfo}

theorem touches_early {message : String} (hearly : early) (hne : message ≠ "task not found") :
    TouchesTarget t id now early kept change (.error message, kept) where
  onError := fun _ _ => rfl
  notFound := by simp [hearly, hne]
  onOk := by simp

theorem touches_refused {message : String} (hearly : ¬ early) (hkept : kept = t.woken now)
    (h : Refused (t.woken now) id message) :
    TouchesTarget t id now early kept change (.error message, t.woken now) where
  onError := fun _ _ => hkept.symm
  notFound := by simpa [hearly] using refused_notFound h
  onOk := by simp

theorem touches_ok {i : Fin maxTasks} {task : TaskInfo} {result : α} {slot : Option TaskInfo}
    (hinv : Inv t) (hfind : (t.woken now).findTask id = some (i, task))
    (hslot : slot = change result task) :
    TouchesTarget t id now early kept change (.ok result, (t.woken now).put i slot) where
  onError := by simp
  notFound := by simp [hasTask_of_findTask hfind]
  onOk := by
    intro result' heq
    obtain rfl := Except.ok.inj heq
    exact changedAt_put (hinv.woken now) hfind hslot

end Outcomes

theorem sleep_touches (hinv : Inv t) (id ticks now : UInt64) :
    TouchesTarget t id now (ticks = 0) (if ticks = 0 then t else (t.wakeDue now).2)
      (fun untilTick task =>
        some { task with state := .sleeping, sleepUntilTick := some untilTick })
      (t.sleep id ticks now) := by
  have hcall := sleep_call t id ticks now
  rw [← Prod.mk.eta (p := t.sleep id ticks now)]
  revert hcall
  generalize (t.sleep id ticks now).1 = outcome, (t.sleep id ticks now).2 = after
  intro hcall
  cases hcall with
  | sleepZero => exact touches_early rfl (by decide)
  | sleepRefused hticks h => exact touches_refused hticks (by rw [if_neg hticks]; rfl) h
  | sleepOk hticks hfind hrun => exact touches_ok hinv hfind rfl

theorem wake_touches (hinv : Inv t) (id now : UInt64) :
    TouchesTarget t id now False (t.wakeDue now).2
      (fun _ task => some { task with state := .ready, sleepUntilTick := none })
      (t.wake id now) := by
  have hcall := wake_call t id now
  rw [← Prod.mk.eta (p := t.wake id now)]
  revert hcall
  generalize (t.wake id now).1 = outcome, (t.wake id now).2 = after
  intro hcall
  cases hcall with
  | wakeRefused h => exact touches_refused not_false rfl h
  | wakeAwake hfind hrun hawake =>
    constructor
    · intro message _
      rfl
    · simp [hasTask_of_findTask hfind]
    · simp
  | wakeOk hfind hasleep => exact touches_ok hinv hfind rfl

theorem remove_touches (hinv : Inv t) (id now : UInt64) :
    TouchesTarget t id now (id = 1) (t.wakeDue now).2 (fun _ _ => none) (t.remove id now) := by
  have hcall := remove_call t id now
  rw [← Prod.mk.eta (p := t.remove id now)]
  revert hcall
  generalize (t.remove id now).1 = outcome, (t.remove id now).2 = after
  intro hcall
  cases hcall with
  | removeBootstrap => exact touches_early rfl (by decide)
  | removeRefused hid h => exact touches_refused hid rfl h
  | removeOk hid hfind hrun => exact touches_ok hinv hfind rfl

theorem setPriority_touches (hinv : Inv t) (id : UInt64) (priority : UInt8) (now : UInt64) :
    TouchesTarget t id now False (t.wakeDue now).2 (fun _ task => some { task with priority })
      (t.setPriority id priority now) := by
  have hcall := setPriority_call t id priority now
  rw [← Prod.mk.eta (p := t.setPriority id priority now)]
  revert hcall
  generalize (t.setPriority id priority now).1 = outcome,
    (t.setPriority id priority now).2 = after
  intro hcall
  cases hcall with
  | setPriorityRefused h => exact touches_refused not_false rfl h
  | setPriorityOk hfind hrun => exact touches_ok hinv hfind rfl

/-- A request for a new task that fails leaves the table alone. -/
theorem spawn_error_keeps (kind : TaskKind) {message : String}
    (h : (t.spawn kind).1 = .error message) : (t.spawn kind).2 = t := by
  have hcall := spawn_call t kind
  revert hcall h
  generalize (t.spawn kind).1 = outcome, (t.spawn kind).2 = after
  intro h hcall
  cases hcall with
  | spawnFull => rfl
  | spawnAt => simp at h

/-- **Operations touch their target only.** On every reachable table whose id counter is below
its limit. -/
theorem operations_touch_target (t : TaskTable) (hreach : scheduler.Reachable TaskTable.new t)
    (hlimit : t.nextId < U64.maxVal) (id now : UInt64) :
    (∀ ticks,
      TouchesTarget t id now (ticks = 0) (if ticks = 0 then t else (t.wakeDue now).2)
        (fun untilTick task =>
          some { task with state := .sleeping, sleepUntilTick := some untilTick })
        (t.sleep id ticks now)) ∧
    TouchesTarget t id now False (t.wakeDue now).2
      (fun _ task => some { task with state := .ready, sleepUntilTick := none })
      (t.wake id now) ∧
    TouchesTarget t id now (id = 1) (t.wakeDue now).2 (fun _ _ => none) (t.remove id now) ∧
    (∀ priority, TouchesTarget t id now False (t.wakeDue now).2
      (fun _ task => some { task with priority }) (t.setPriority id priority now)) ∧
    ((t.sleep id 0 now).1 = .error "sleep ticks must be > 0" ∧
      (t.remove 1 now).1 = .error "cannot remove bootstrap task") ∧
    ∀ kind message, (t.spawn kind).1 = .error message → (t.spawn kind).2 = t := by
  have hinv : Inv t := by
    rcases hreach with ⟨ops, rfl⟩
    exact run_inv init_inv ops hlimit
  refine ⟨fun ticks => sleep_touches hinv id ticks now, wake_touches hinv id now,
    remove_touches hinv id now, fun priority => setPriority_touches hinv id priority now,
    ⟨rfl, rfl⟩, fun kind message => spawn_error_keeps kind⟩

/-- Waking a task that is awake: an error, and another task has been woken on the way. -/
theorem operations_touch_target_awake :
    let t := scheduler.run TaskTable.new [.init, .spawn .userDemo, .sleep 2 5 0]
    (t.wake 1 9).1 = .error "task is not sleeping" ∧ (t.wake 1 9).2 = (t.wakeDue 9).2 := by
  intro t
  have herror : (t.wake 1 9).1 = .error "task is not sleeping" := by decide
  have hspec := operations_touch_target t ⟨_, rfl⟩ (by decide) 1 9
  exact ⟨herror, hspec.2.1.onError _ herror⟩

end JingOS.Task
