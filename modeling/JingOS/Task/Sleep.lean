import JingOS.Task.Invariant

/-!
# Sleeping over whole runs

Waking is lazy: `step`, `sleep`, `wake`, `remove` and `set_priority` wake the sleepers that
are due before they do anything else. `Resting u id last t` says where a task put to sleep
until tick `u` is after the calls up to tick `last`: asleep until `u`, or already woken, and
then `u` has passed. Every call keeps it as long as the ticks do not go back and the task is
not itself put to sleep, woken or removed (`resting_step`, `resting_run`).
-/

namespace JingOS.Task

/-- A successful `sleep`, `wake` or `remove` of the id. -/
def endsSleep (id : UInt64) : Op × Reply → Bool
  | (.sleep target _ _, .id (.ok _)) => target == id
  | (.wake target _, .task (.ok _)) => target == id
  | (.remove target _, .task (.ok _)) => target == id
  | _ => false

/-- The task as `sleep` left it, or as `wake_due` made it at or after tick `u`. -/
def RestingTask (u last : UInt64) (task : TaskInfo) : Prop :=
  (task.state = .sleeping ∧ task.sleepUntilTick = some u) ∨ (task.state = .ready ∧ u ≤ last)

/-- The task `id` was put to sleep until tick `u`; the last call was at tick `last`. -/
def Resting (u id last : UInt64) (t : TaskTable) : Prop :=
  ∃ i task, t.slots i = some task ∧ task.id = id ∧ RestingTask u last task

/-! ## One call -/

theorem Resting.mono {u id last now : UInt64} {t : TaskTable} (h : Resting u id last t)
    (hle : last ≤ now) : Resting u id now t := by
  obtain ⟨i, task, hslot, hid, hasleep | ⟨hready, hu⟩⟩ := h
  · exact ⟨i, task, hslot, hid, Or.inl hasleep⟩
  · exact ⟨i, task, hslot, hid, Or.inr ⟨hready, UInt64.le_trans hu hle⟩⟩

/-- After waking at tick `now` the task is asleep before `u` and ready from `u` on. -/
theorem Resting.woken {u id last now : UInt64} {t : TaskTable} (h : Resting u id last t)
    (hle : last ≤ now) :
    ∃ i task, (t.woken now).slots i = some task ∧ task.id = id ∧
      (now < u → task.state = .sleeping ∧ task.sleepUntilTick = some u) ∧
      (u ≤ now → task.state = .ready) := by
  obtain ⟨i, task, hslot, hid, ⟨hstate, huntil⟩ | ⟨hready, hu⟩⟩ := h
  · refine ⟨i, TaskTable.wakeTask now task, TaskTable.woken_slots_eq_some.mpr ⟨task, hslot, rfl⟩,
      by simpa using hid, ?_, ?_⟩
    · intro hlt
      have hnot : ¬ u ≤ now := UInt64.not_le.mpr hlt
      simp [TaskTable.wakeTask, TaskTable.isDue, hstate, huntil, hnot]
    · intro hge
      simp [TaskTable.wakeTask, TaskTable.isDue, hstate, huntil, hge]
  · have hawake : TaskTable.wakeTask now task = task :=
      TaskTable.wakeTask_of_ne_sleeping (by simp [hready])
    refine ⟨i, task, TaskTable.woken_slots_eq_some.mpr ⟨task, hslot, hawake⟩, hid, ?_, ?_⟩
    · intro hlt
      exact absurd (UInt64.le_trans hu hle) (UInt64.not_le.mpr hlt)
    · exact fun _ => hready

/-- Who is not due yet sleeps on. -/
theorem Resting.at_woken {u id last now : UInt64} {t : TaskTable} (h : Resting u id last t)
    (hle : last ≤ now) : Resting u id now (t.woken now) := by
  obtain ⟨i, task, hslot, hid, hbefore, hafter⟩ := h.woken hle
  refine ⟨i, task, hslot, hid, ?_⟩
  by_cases hu : u ≤ now
  · exact Or.inr ⟨hafter hu, hu⟩
  · exact Or.inl (hbefore (UInt64.not_le.mp hu))

/-- A write to the slot of another task. -/
theorem Resting.put_other {u id last : UInt64} {t : TaskTable} (h : Resting u id last t)
    {j : Fin maxTasks} (hother : ∀ task, t.slots j = some task → task.id ≠ id)
    (slot : Option TaskInfo) : Resting u id last (t.put j slot) := by
  obtain ⟨i, task, hslot, hid, hrest⟩ := h
  have hij : i ≠ j := by
    rintro rfl
    exact hother task hslot hid
  exact ⟨i, task, by rwa [TaskTable.put_slots_ne _ _ hij], hid, hrest⟩

/-- A write that leaves a resting task resting, in whichever slot. -/
theorem Resting.put_same {u id last : UInt64} {t : TaskTable} (h : Resting u id last t)
    {j : Fin maxTasks} {task task' : TaskInfo} (hslot : t.slots j = some task)
    (hid : task'.id = task.id) (hrest : RestingTask u last task → RestingTask u last task') :
    Resting u id last (t.put j (some task')) := by
  obtain ⟨i, found, hfound, rfl, hfrest⟩ := h
  by_cases hij : i = j
  · subst hij
    rw [hslot] at hfound
    obtain rfl := Option.some.inj hfound
    exact ⟨i, task', by simp, hid, hrest hfrest⟩
  · exact ⟨i, found, by rwa [TaskTable.put_slots_ne _ _ hij], rfl, hfrest⟩

/-- A request that found the task of another id writes to the slot of that other task. -/
theorem other_of_findTask {t : TaskTable} {id target : UInt64} {j : Fin maxTasks} {found : TaskInfo}
    (hfind : t.findTask target = some (j, found)) (hne : target ≠ id) (task : TaskInfo)
    (hslot : t.slots j = some task) : task.id ≠ id := by
  obtain ⟨hfound, hid⟩ := TaskTable.findTask_some hfind
  rw [hfound] at hslot
  obtain rfl := Option.some.inj hslot
  rwa [hid]

/-- One call: the task goes on resting unless the call ends its sleep. -/
theorem resting_step {u id last : UInt64} {t t' : TaskTable} {op : Op} {r : Reply}
    (hinv : Inv t) (h : Resting u id last t) (hcall : Call t op r t')
    (hends : endsSleep id (op, r) = false) (hticks : ∀ now ∈ op.tick?, last ≤ now) :
    Resting u id (op.tick?.getD last) t' := by
  cases hcall with
  | initKeep | spawnFull => exact h
  | sleepZero => exact h.mono (hticks _ rfl)
  | initWrite hno =>
    -- a table without the bootstrap task is empty
    obtain ⟨i, task, hslot, -, -⟩ := h
    simp [hinv.empty hno i] at hslot
  | spawnAt hfree hfirst => exact h.put_other (by simp [hfree]) _
  | stepIdle | sleepRefused | wakeRefused | wakeAwake | removeBootstrap | removeRefused
  | setPriorityRefused => exact h.at_woken (hticks _ rfl)
  | @stepRun now i task hsel hslot =>
    obtain ⟨found, hfound, hready, -⟩ := TaskTable.selected_some hsel
    rw [hslot] at hfound
    obtain rfl := Option.some.inj hfound
    have hid : (ranOnce task).id = task.id := rfl
    refine (h.at_woken (hticks _ rfl)).put_same hslot hid ?_
    rintro (⟨hasleep, -⟩ | ⟨-, hu⟩)
    · simp [hready] at hasleep
    · exact Or.inr ⟨rfl, hu⟩
  | sleepOk _ hfind _ | wakeOk hfind _ | removeOk _ hfind _ =>
    exact (h.at_woken (hticks _ rfl)).put_other
      (other_of_findTask hfind (by simpa [endsSleep] using hends)) _
  | setPriorityOk hfind _ =>
    obtain ⟨hslot, -⟩ := TaskTable.findTask_some hfind
    exact (h.at_woken (hticks _ rfl)).put_same hslot rfl fun hrest => hrest

/-! ## Whole runs -/

/-- **Run.** The task rests until its sleep is ended. -/
theorem resting_run {u id : UInt64} (ops : List Op) :
    ∀ {t : TaskTable} {last : UInt64}, Inv t → Resting u id last t →
      BelowLimit (scheduler.run t ops) →
      (last :: ops.filterMap Op.tick?).Pairwise (· ≤ ·) →
      (∀ e ∈ scheduler.trace t ops, endsSleep id e = false) →
      ∃ last' ∈ last :: ops.filterMap Op.tick?, Resting u id last' (scheduler.run t ops) := by
  induction ops with
  | nil =>
    intro t last _ h _ _ _
    exact ⟨last, by simp, h⟩
  | cons op ops ih =>
    intro t last hinv h hend hticks hends
    have hlimit : BelowLimit t := belowLimit_of_run (op :: ops) hend
    have hcall := exec_call t op
    have hnow : ∀ now ∈ op.tick?, last ≤ now := by
      intro now hmem
      exact List.rel_of_pairwise_cons hticks
        (List.mem_filterMap.mpr ⟨op, by simp, hmem⟩)
    have hstep := resting_step hinv h hcall (hends _ (by simp)) hnow
    -- the ticks that are still to come are not before this one
    have htail : (op.tick?.getD last :: ops.filterMap Op.tick?).Pairwise (· ≤ ·) := by
      cases htick : op.tick? with
      | none => simpa [List.filterMap_cons, htick] using hticks
      | some now =>
        rw [List.filterMap_cons, htick] at hticks
        exact (List.pairwise_cons.mp hticks).2
    obtain ⟨last', hmem, hrest⟩ := ih (step_inv hcall hinv hlimit) hstep hend htail
      fun e he => hends e (by simp [he])
    refine ⟨last', ?_, hrest⟩
    cases htick : op.tick? with
    | none => simpa [List.filterMap_cons, htick] using hmem
    | some now =>
      rw [htick, Option.getD_some] at hmem
      simp only [List.filterMap_cons, htick]
      exact List.mem_cons_of_mem _ hmem

/-! ## The next call on a resting task -/

/-- The wake-up tick of a successful `sleep`, and the rest that follows. -/
theorem resting_of_sleep {t : TaskTable} {id ticks now u : UInt64}
    (h : (t.sleep id ticks now).1 = .ok u) :
    u = U64.saturatingAdd now ticks ∧ Resting u id now (t.sleep id ticks now).2 := by
  have hcall := sleep_call t id ticks now
  rw [h] at hcall
  generalize (t.sleep id ticks now).2 = t' at hcall ⊢
  cases hcall with
  | sleepOk hticks hfind hrun =>
    obtain ⟨-, hid⟩ := TaskTable.findTask_some hfind
    exact ⟨rfl, _, _, TaskTable.put_slots_self _ _ _, hid, Or.inl ⟨rfl, rfl⟩⟩

section Next

variable {u id last now : UInt64} {t : TaskTable}

/-- Before tick `u` the task is not selected. -/
theorem step_before (hinv : Inv t) (h : Resting u id last t) (hle : last ≤ now) (hlt : now < u)
    {report : TaskStepReport} (hstep : (t.step now).1 = some report) : report.id ≠ id := by
  obtain ⟨i, task, hslot, hid, hbefore, -⟩ := h.woken hle
  have hcall := step_call t now
  rw [hstep] at hcall
  generalize (t.step now).2 = t' at hcall
  cases hcall with
  | @stepRun _ j ran hsel hran =>
    intro hsame
    obtain ⟨ready, hready, hstate, -⟩ := TaskTable.selected_some hsel
    -- the selected slot would be the slot of the sleeper
    have hij : i = j := (hinv.woken now).distinct hslot hran (hid.trans hsame.symm)
    subst hij
    rw [hslot] at hready
    obtain rfl := Option.some.inj hready
    simp [(hbefore hlt).1] at hstate

/-- From tick `u` on the task is a candidate, and it is reported if it alone has the highest
priority. -/
theorem step_after (h : Resting u id last t) (hle : last ≤ now) (hge : u ≤ now) :
    ∃ i task, (t.woken now).slots i = some task ∧ task.id = id ∧ task.state = .ready ∧
      ((∀ j other, (t.woken now).slots j = some other → other.state = .ready → j ≠ i →
        other.priority < task.priority) →
       ∃ report, (t.step now).1 = some report ∧ report.id = id) := by
  obtain ⟨i, task, hslot, hid, -, hafter⟩ := h.woken hle
  refine ⟨i, task, hslot, hid, hafter hge, ?_⟩
  intro halone
  have hcall := step_call t now
  generalize (t.step now).1 = r at hcall ⊢
  generalize (t.step now).2 = t' at hcall
  cases hcall with
  | stepIdle hsel => exact absurd (hafter hge) (TaskTable.selected_none hsel hslot)
  | @stepRun _ j ran hsel hran =>
    obtain ⟨best, hbest, hready, hmax⟩ := TaskTable.selected_some hsel
    by_cases hji : j = i
    · subst hji
      rw [hran] at hslot
      obtain rfl := Option.some.inj hslot
      exact ⟨_, rfl, hid⟩
    · have hless := halone j best hbest hready hji
      exact absurd (hmax i task hslot (hafter hge)) (UInt8.not_le.mpr hless)

/-- `wake` finds the resting task: it succeeds before tick `u` and comes too late from `u`
on. -/
theorem wake_resting (hinv : Inv t) (h : Resting u id last t) (hle : last ≤ now) :
    (now < u → ∃ task, (t.wake id now).1 = .ok task) ∧
    (u ≤ now → (t.wake id now).1 = .error "task is not sleeping") := by
  obtain ⟨i, task, hslot, hid, hbefore, hafter⟩ := h.woken hle
  -- there is only one task with this id
  have hfound : ∀ {j found}, (t.woken now).findTask id = some (j, found) → found = task := by
    intro j found hfind
    obtain ⟨hj, hidj⟩ := TaskTable.findTask_some hfind
    have hij : i = j := (hinv.woken now).distinct hslot hj (hid.trans hidj.symm)
    subst hij
    rw [hslot] at hj
    exact (Option.some.inj hj).symm
  have hcall := wake_call t id now
  generalize (t.wake id now).1 = r at hcall ⊢
  generalize (t.wake id now).2 = t' at hcall
  cases hcall with
  | wakeRefused hrefused =>
    cases hrefused with
    | notFound hno => exact absurd hid (hno i task hslot)
    | running hfind hrun =>
      obtain ⟨hj, -⟩ := TaskTable.findTask_some hfind
      exact absurd hrun ((hinv.woken now).wellFormed hj).2
  -- it is awake: its time has come
  | wakeAwake hfind hrun hawake =>
    obtain rfl := hfound hfind
    exact ⟨fun hlt => absurd (hbefore hlt).1 hawake, fun _ => rfl⟩
  | wakeOk hfind hasleep =>
    obtain rfl := hfound hfind
    refine ⟨fun _ => ⟨_, rfl⟩, fun hge => ?_⟩
    simp [hafter hge] at hasleep

end Next

/-- **Sleep is honoured.** A successful `sleep` returns the tick `u`; until the next
successful `sleep`, `wake` or `remove` of the task, whatever else is called at ticks that do
not go back, it is not run before `u`, it takes part in the selection from `u` on, and `wake`
can wake it exactly before `u`. -/
theorem sleep_honoured (t : TaskTable) (hreach : scheduler.Reachable TaskTable.new t)
    (id ticks now u : UInt64) (hsleep : (t.sleep id ticks now).1 = .ok u) (ops : List Op)
    (hsorted : (now :: ops.filterMap Op.tick?).Pairwise (· ≤ ·))
    (hlimit : (scheduler.run (t.sleep id ticks now).2 ops).nextId < U64.maxVal)
    (hends : ∀ e ∈ scheduler.trace (t.sleep id ticks now).2 ops, endsSleep id e = false) :
    let t' := scheduler.run (t.sleep id ticks now).2 ops
    u.toNat = min (now.toNat + ticks.toNat) (2 ^ 64 - 1) ∧
    ∀ tick, (∀ earlier ∈ now :: ops.filterMap Op.tick?, earlier ≤ tick) →
      (tick < u →
        (∀ report, (t'.step tick).1 = some report → report.id ≠ id) ∧
        ∃ task, (t'.wake id tick).1 = .ok task) ∧
      (u ≤ tick →
        (∃ i task, (t'.woken tick).slots i = some task ∧ task.id = id ∧ task.state = .ready ∧
          ((∀ j other, (t'.woken tick).slots j = some other → other.state = .ready → j ≠ i →
            other.priority < task.priority) →
           ∃ report, (t'.step tick).1 = some report ∧ report.id = id)) ∧
        (t'.wake id tick).1 = .error "task is not sleeping") := by
  intro t'
  obtain ⟨before, rfl⟩ := hreach
  have hlimit₁ : BelowLimit ((scheduler.run TaskTable.new before).sleep id ticks now).2 :=
    belowLimit_of_run ops hlimit
  have hlimit₀ : BelowLimit (scheduler.run TaskTable.new before) :=
    belowLimit_of_exec _ (.sleep id ticks now) hlimit₁
  have hinv₁ := step_inv (sleep_call _ id ticks now) (run_inv init_inv before hlimit₀) hlimit₀
  have hinv : Inv t' := run_inv hinv₁ ops hlimit
  -- the sleep has put the task to rest, and the operations leave it there
  obtain ⟨hu, hrest⟩ := resting_of_sleep hsleep
  obtain ⟨last, hlast, hresting⟩ := resting_run ops hinv₁ hrest hlimit hsorted hends
  refine ⟨by rw [hu, U64.toNat_saturatingAdd], ?_⟩
  intro tick htick
  have hle : last ≤ tick := htick last hlast
  obtain ⟨hwake, hlate⟩ := wake_resting hinv hresting hle
  exact ⟨fun hlt => ⟨fun report => step_before hinv hresting hle hlt, hwake hlt⟩,
    fun hge => ⟨step_after hresting hle hge, hlate hge⟩⟩

/-- Task 2 sleeps from tick 10 to tick 15 while others are spawned, run and removed. -/
theorem sleep_honoured_busy_run :
    let t := scheduler.run TaskTable.new [.init, .spawn .userDemo, .spawn .userDemo]
    let ops : List Op := [.step 11, .setPriority 2 30 12, .remove 3 12, .spawn .kernelMonitor,
      .step 13]
    (t.sleep 2 5 10).1 = .ok 15 ∧
      ((scheduler.run (t.sleep 2 5 10).2 ops).wake 2 15).1 = .error "task is not sleeping" := by
  intro t ops
  have hsleep : (t.sleep 2 5 10).1 = .ok 15 := by decide
  obtain ⟨-, hnext⟩ := sleep_honoured t ⟨_, rfl⟩ 2 5 10 15 hsleep ops (by decide) (by decide)
    (by decide)
  have hticks : ∀ earlier ∈ 10 :: ops.filterMap Op.tick?, earlier ≤ 15 := fun earlier hmem =>
    of_decide_eq_true (List.all_eq_true.mp (by decide :
      (10 :: ops.filterMap Op.tick?).all (· ≤ 15) = true) earlier hmem)
  exact ⟨hsleep, ((hnext 15 hticks).2 (by decide)).2⟩

end JingOS.Task
