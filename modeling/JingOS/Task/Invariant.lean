import JingOS.Task.Spec

/-!
# The table invariant over whole runs

`Inv` is what holds between calls: ids are unique and below the counter, a task is
asleep exactly when it has a wake-up tick, nothing is left running, the cursor is a
slot number, and slot 0 belongs to the task with id 1 as soon as there is any task.
The last clause is what makes `init` safe, although it writes slot 0 blindly: a table
without the task 1 is empty.

* `step_inv` — one call keeps the invariant while the id counter is below its limit;
* `run_inv` — so does a whole run (`Mealy.run_invariant_while`);
* `issued_spec` — along a run the ids are issued in strictly increasing order.
-/

namespace JingOS.Task

/-- A task between calls: asleep exactly when it has a wake-up tick, and not running. -/
def TaskInfo.WellFormed (task : TaskInfo) : Prop :=
  (task.state = .sleeping ↔ task.sleepUntilTick.isSome) ∧ task.state ≠ .running

/-- The task with id 1 sits in slot 0. -/
def BootstrapInPlace (t : TaskTable) : Prop := ∃ task, t.slots 0 = some task ∧ task.id = 1

structure Inv (t : TaskTable) : Prop where
  /-- Live ids are pairwise different. -/
  distinct : ∀ {i j a b}, t.slots i = some a → t.slots j = some b → a.id = b.id → i = j
  /-- Live ids are below the counter. -/
  idLt : ∀ {i a}, t.slots i = some a → a.id < t.nextId
  wellFormed : ∀ {i a}, t.slots i = some a → a.WellFormed
  cursorLt : t.nextRrIndex < maxTasks
  bootstrap : (∃ i a, t.slots i = some a) → BootstrapInPlace t
  /-- A table without tasks has never issued an id. -/
  unissued : (∀ i, t.slots i = none) → t.nextId = 1

/-! ## The pieces of a call -/

theorem wakeTask_wellFormed {task : TaskInfo} (h : task.WellFormed) (now : UInt64) :
    (TaskTable.wakeTask now task).WellFormed := by
  unfold TaskTable.wakeTask
  split
  · exact ⟨by simp, by simp⟩
  · exact h

theorem BootstrapInPlace.woken {t : TaskTable} (h : BootstrapInPlace t) (now : UInt64) :
    BootstrapInPlace (t.woken now) := by
  obtain ⟨task, hslot, hid⟩ := h
  exact ⟨_, TaskTable.woken_slots_eq_some.mpr ⟨task, hslot, rfl⟩, by simpa using hid⟩

/-- Waking keeps the invariant. -/
theorem Inv.woken {t : TaskTable} (h : Inv t) (now : UInt64) : Inv (t.woken now) where
  distinct := by
    intro i j a b ha hb hid
    obtain ⟨a', ha', rfl⟩ := TaskTable.woken_slots_eq_some.mp ha
    obtain ⟨b', hb', rfl⟩ := TaskTable.woken_slots_eq_some.mp hb
    exact h.distinct ha' hb' (by simpa using hid)
  idLt := by
    intro i a ha
    obtain ⟨a', ha', rfl⟩ := TaskTable.woken_slots_eq_some.mp ha
    simpa using h.idLt ha'
  wellFormed := by
    intro i a ha
    obtain ⟨a', ha', rfl⟩ := TaskTable.woken_slots_eq_some.mp ha
    exact wakeTask_wellFormed (h.wellFormed ha') now
  cursorLt := h.cursorLt
  bootstrap := by
    rintro ⟨i, a, ha⟩
    obtain ⟨a', ha', rfl⟩ := TaskTable.woken_slots_eq_some.mp ha
    exact (h.bootstrap ⟨i, a', ha'⟩).woken now
  unissued := by
    intro hnone
    exact h.unissued fun i => by simpa using hnone i

/-- The bootstrap task stays in place when a slot is rewritten under the same id. -/
theorem BootstrapInPlace.put {t : TaskTable} (h : BootstrapInPlace t) {i : Fin maxTasks}
    {task task' : TaskInfo} (hslot : t.slots i = some task) (hid : task'.id = task.id) :
    BootstrapInPlace (t.put i (some task')) := by
  obtain ⟨first, hfirst, hone⟩ := h
  by_cases hi : i = 0
  · subst hi
    rw [hfirst] at hslot
    obtain rfl := Option.some.inj hslot
    exact ⟨task', by simp, hid.trans hone⟩
  · exact ⟨first, by rwa [TaskTable.put_slots_ne _ _ (Ne.symm hi)], hone⟩

/-- Rewriting the task of a slot under the same id. -/
theorem Inv.replace {t : TaskTable} (h : Inv t) {i : Fin maxTasks} {task task' : TaskInfo}
    (hslot : t.slots i = some task) (hid : task'.id = task.id) (hwf : task'.WellFormed) :
    Inv (t.put i (some task')) where
  distinct := by
    intro j k a b ha hb hab
    -- in either slot there is an old task of the same id
    have hold : ∀ {j a}, (t.put i (some task')).slots j = some a →
        ∃ a', t.slots j = some a' ∧ a'.id = a.id := by
      intro j a ha
      rcases TaskTable.put_slots_cases ha with ⟨rfl, heq⟩ | ⟨-, hold⟩
      · obtain rfl := Option.some.inj heq
        exact ⟨task, hslot, hid.symm⟩
      · exact ⟨a, hold, rfl⟩
    obtain ⟨a', ha', hida⟩ := hold ha
    obtain ⟨b', hb', hidb⟩ := hold hb
    exact h.distinct ha' hb' (hida.trans (hab.trans hidb.symm))
  idLt := by
    intro j a ha
    rcases TaskTable.put_slots_cases ha with ⟨rfl, heq⟩ | ⟨-, hold⟩
    · obtain rfl := Option.some.inj heq
      rw [hid]
      exact h.idLt hslot
    · exact h.idLt hold
  wellFormed := by
    intro j a ha
    rcases TaskTable.put_slots_cases ha with ⟨rfl, heq⟩ | ⟨-, hold⟩
    · obtain rfl := Option.some.inj heq
      exact hwf
    · exact h.wellFormed hold
  cursorLt := h.cursorLt
  bootstrap := fun _ => (h.bootstrap ⟨i, task, hslot⟩).put hslot hid
  unissued := by
    intro hnone
    have := hnone i
    simp at this

/-- A slot that holds another id than 1 is not slot 0. -/
theorem BootstrapInPlace.ne_zero {t : TaskTable} (h : BootstrapInPlace t) {i : Fin maxTasks}
    {task : TaskInfo} (hslot : t.slots i = some task) (hid : task.id ≠ 1) : i ≠ 0 := by
  rintro rfl
  obtain ⟨first, hfirst, hone⟩ := h
  rw [hfirst] at hslot
  obtain rfl := Option.some.inj hslot
  exact hid hone

/-- Clearing the slot of another task than the bootstrap task. -/
theorem Inv.clear {t : TaskTable} (h : Inv t) {i : Fin maxTasks} {task : TaskInfo}
    (hslot : t.slots i = some task) (hid : task.id ≠ 1) : Inv (t.put i none) := by
  have hboot := h.bootstrap ⟨i, task, hslot⟩
  have hi : i ≠ 0 := hboot.ne_zero hslot hid
  have hold : ∀ {j a}, (t.put i none).slots j = some a → t.slots j = some a := by
    intro j a ha
    rcases TaskTable.put_slots_cases ha with ⟨-, heq⟩ | ⟨-, hold⟩
    · simp at heq
    · exact hold
  obtain ⟨first, hfirst, hone⟩ := hboot
  have hkept : (t.put i none).slots 0 = some first := by
    rwa [TaskTable.put_slots_ne _ _ (Ne.symm hi)]
  exact {
    distinct := fun ha hb hab => h.distinct (hold ha) (hold hb) hab
    idLt := fun ha => h.idLt (hold ha)
    wellFormed := fun ha => h.wellFormed (hold ha)
    cursorLt := h.cursorLt
    bootstrap := fun _ => ⟨first, hkept, hone⟩
    unissued := fun hnone => by simp [hnone 0] at hkept }

theorem freshTask_wellFormed (id : UInt64) (kind : TaskKind) :
    (TaskTable.freshTask id kind).WellFormed :=
  ⟨by simp [TaskTable.freshTask], by simp [TaskTable.freshTask]⟩

/-- Putting a task with the next id into a free slot, which is slot 0 if the table is
empty. -/
theorem Inv.insert {t : TaskTable} (h : Inv t) (hlimit : t.nextId < U64.maxVal)
    {i : Fin maxTasks} (kind : TaskKind) (hfree : t.slots i = none)
    (hfirst : ∀ j < i, t.slots j ≠ none) :
    Inv { t.put i (some (TaskTable.freshTask t.nextId kind)) with
      nextId := U64.saturatingAdd t.nextId 1 } := by
  have hnext : t.nextId < U64.saturatingAdd t.nextId 1 := by
    rw [UInt64.lt_iff_toNat_lt, U64.toNat_succ_of_lt hlimit]
    omega
  have hslots : ∀ {j a},
      (t.put i (some (TaskTable.freshTask t.nextId kind))).slots j = some a →
      (j = i ∧ a = TaskTable.freshTask t.nextId kind) ∨ (j ≠ i ∧ t.slots j = some a) := by
    intro j a ha
    rcases TaskTable.put_slots_cases ha with ⟨hj, heq⟩ | hold
    · exact Or.inl ⟨hj, (Option.some.inj heq).symm⟩
    · exact Or.inr hold
  -- an old task has an id below the counter, so not the new one
  have hne : ∀ {j a}, t.slots j = some a → a.id ≠ t.nextId := by
    intro j a ha heq
    have hlt := h.idLt ha
    rw [heq] at hlt
    exact UInt64.lt_irrefl _ hlt
  constructor
  · intro j k a b ha hb hab
    rcases hslots ha with ⟨rfl, rfl⟩ | ⟨-, ha'⟩ <;> rcases hslots hb with ⟨rfl, rfl⟩ | ⟨-, hb'⟩
    · rfl
    · exact absurd hab.symm (hne hb')
    · exact absurd hab (hne ha')
    · exact h.distinct ha' hb' hab
  · intro j a ha
    rcases hslots ha with ⟨rfl, rfl⟩ | ⟨-, ha'⟩
    · exact hnext
    · exact UInt64.lt_trans (h.idLt ha') hnext
  · intro j a ha
    rcases hslots ha with ⟨rfl, rfl⟩ | ⟨-, ha'⟩
    · exact freshTask_wellFormed _ _
    · exact h.wellFormed ha'
  · exact h.cursorLt
  · intro _
    by_cases hempty : ∀ j, t.slots j = none
    · -- the first task ever: slot 0, id 1
      have hi : i = 0 := by
        by_contra hi
        exact hfirst 0 (Fin.pos_of_ne_zero hi) (hempty 0)
      subst hi
      exact ⟨TaskTable.freshTask t.nextId kind, TaskTable.put_slots_self t 0 _, h.unissued hempty⟩
    · simp only [not_forall, ← ne_eq, Option.ne_none_iff_exists'] at hempty
      obtain ⟨j, a, ha⟩ := hempty
      obtain ⟨first, hzero, hone⟩ := h.bootstrap ⟨j, a, ha⟩
      have hi : (0 : Fin maxTasks) ≠ i := by
        rintro rfl
        simp [hfree] at hzero
      exact ⟨first, (TaskTable.put_slots_ne t _ hi).trans hzero, hone⟩
  · intro hnone
    have := hnone i
    simp at this

/-- A table without the task 1 is empty, so writing slot 0 destroys nothing. -/
theorem Inv.empty {t : TaskTable} (h : Inv t)
    (hno : ∀ i task, t.slots i = some task → task.id ≠ 1) (i : Fin maxTasks) :
    t.slots i = none := by
  rw [Option.eq_none_iff_forall_ne_some]
  intro a ha
  obtain ⟨first, hfirst, hone⟩ := h.bootstrap ⟨i, a, ha⟩
  exact hno 0 first hfirst hone

/-! ## One call -/

/-- An empty table. -/
theorem init_inv : Inv TaskTable.new where
  distinct := by intro i j a b ha; simp [TaskTable.new] at ha
  idLt := by intro i a ha; simp [TaskTable.new] at ha
  wellFormed := by intro i a ha; simp [TaskTable.new] at ha
  cursorLt := by decide
  bootstrap := by rintro ⟨i, a, ha⟩; simp [TaskTable.new] at ha
  unissued := fun _ => rfl

theorem Inv.bootstrapWrite {t : TaskTable} (h : Inv t)
    (hno : ∀ i task, t.slots i = some task → task.id ≠ 1) :
    Inv { t.put 0 (some (TaskTable.freshTask 1 .kernelMonitor)) with
      nextId := max t.nextId 2 } := by
  have hempty := h.empty hno
  have hone : t.nextId = 1 := h.unissued hempty
  have hlimit : t.nextId < U64.maxVal := by rw [hone]; decide
  have hwrite := h.insert hlimit .kernelMonitor (hempty 0)
    (fun j hj => absurd hj (Fin.not_lt_zero j))
  rw [hone] at hwrite ⊢
  exact hwrite

/-- **Step.** A call keeps the invariant while the id counter is below its limit. -/
theorem step_inv {t t' : TaskTable} {op : Op} {r : Reply} (hcall : Call t op r t')
    (h : Inv t) (hlimit : t.nextId < U64.maxVal) : Inv t' := by
  cases hcall with
  | initKeep | spawnFull | sleepZero => exact h
  | initWrite hno => exact h.bootstrapWrite hno
  | spawnAt hfree hfirst => exact h.insert hlimit _ hfree hfirst
  | stepIdle | sleepRefused | wakeRefused | wakeAwake | removeBootstrap | removeRefused
  | setPriorityRefused => exact h.woken _
  | @stepRun now i task hsel hslot =>
    have hid : (ranOnce task).id = task.id := rfl
    have hrun := (h.woken _).replace hslot hid ⟨by simp [ranOnce], by simp [ranOnce]⟩
    exact { hrun with cursorLt := Nat.mod_lt _ (by decide) }
  | sleepOk hticks hfind hrun =>
    exact (h.woken _).replace (TaskTable.findTask_some hfind).1 rfl ⟨by simp, by simp⟩
  | wakeOk hfind hasleep =>
    exact (h.woken _).replace (TaskTable.findTask_some hfind).1 rfl ⟨by simp, by simp⟩
  | removeOk hid hfind hrun =>
    obtain ⟨hslot, hfound⟩ := TaskTable.findTask_some hfind
    exact (h.woken _).clear hslot (by rwa [hfound])
  | setPriorityOk hfind hrun =>
    obtain ⟨hslot, -⟩ := TaskTable.findTask_some hfind
    have hwf := (h.woken _).wellFormed hslot
    exact (h.woken _).replace hslot rfl hwf

/-- The id counter never goes back. -/
theorem nextId_le {t t' : TaskTable} {op : Op} {r : Reply} (hcall : Call t op r t') :
    t.nextId ≤ t'.nextId := by
  cases hcall with
  | initWrite =>
    change t.nextId ≤ (if t.nextId ≤ 2 then 2 else t.nextId)
    split <;> grind
  | spawnAt => exact U64.le_saturatingAdd _ _
  | _ => exact UInt64.le_refl _

/-! ## Whole runs -/

/-- The id counter of a run is below its limit. -/
def BelowLimit (t : TaskTable) : Prop := t.nextId < U64.maxVal

theorem belowLimit_of_exec (t : TaskTable) (op : Op) (h : BelowLimit (exec t op).2) :
    BelowLimit t :=
  UInt64.lt_of_le_of_lt (nextId_le (exec_call t op)) h

theorem belowLimit_of_run {t : TaskTable} (ops : List Op)
    (h : BelowLimit (scheduler.run t ops)) : BelowLimit t := by
  induction ops generalizing t with
  | nil => exact h
  | cons op ops ih => exact belowLimit_of_exec t op (ih h)

theorem nextId_le_run {t : TaskTable} (ops : List Op) :
    t.nextId ≤ (scheduler.run t ops).nextId := by
  induction ops generalizing t with
  | nil => exact UInt64.le_refl _
  | cons op ops ih => exact UInt64.le_trans (nextId_le (exec_call t op)) ih

/-- **Run.** The invariant holds after every run that leaves the counter below its
limit. -/
theorem run_inv {t : TaskTable} (h : Inv t) (ops : List Op)
    (hend : BelowLimit (scheduler.run t ops)) : Inv (scheduler.run t ops) := by
  refine scheduler.run_invariant_while BelowLimit Inv belowLimit_of_exec ?_ h ops hend
  intro s op hs hlim
  exact step_inv (exec_call s op) hs (belowLimit_of_exec s op hlim)

/-- Once in place, the bootstrap task stays in slot 0: it is the one task that `remove`
refuses, and no other call empties a slot. -/
theorem bootstrap_stays {t t' : TaskTable} {op : Op} {r : Reply} (hcall : Call t op r t')
    (h : BootstrapInPlace t) : BootstrapInPlace t' := by
  -- a rewritten slot keeps its id
  have hrewrite : ∀ {now i task task'}, (t.woken now).slots i = some task →
      task'.id = task.id → BootstrapInPlace ((t.woken now).put i (some task')) :=
    fun hslot hid => (h.woken _).put hslot hid
  cases hcall with
  | initKeep | spawnFull | sleepZero => exact h
  | initWrite hno =>
    obtain ⟨first, hfirst, hone⟩ := h
    exact absurd hone (hno 0 first hfirst)
  | spawnAt hfree hbefore =>
    obtain ⟨first, hfirst, hone⟩ := h
    refine ⟨first, ?_, hone⟩
    exact (TaskTable.put_slots_ne _ _ (by rintro rfl; simp [hfree] at hfirst)).trans hfirst
  | stepIdle | sleepRefused | wakeRefused | wakeAwake | removeBootstrap | removeRefused
  | setPriorityRefused => exact h.woken _
  | stepRun hsel hslot => exact hrewrite hslot rfl
  | sleepOk _ hfind _ => exact hrewrite (TaskTable.findTask_some hfind).1 rfl
  | wakeOk hfind _ => exact hrewrite (TaskTable.findTask_some hfind).1 rfl
  | setPriorityOk hfind _ => exact hrewrite (TaskTable.findTask_some hfind).1 rfl
  | removeOk hid hfind _ =>
    obtain ⟨hslot, hfound⟩ := TaskTable.findTask_some hfind
    have hi := (h.woken _).ne_zero hslot (by rwa [hfound])
    obtain ⟨first, hfirst, hone⟩ := h.woken _
    exact ⟨first, (TaskTable.put_slots_ne _ _ (Ne.symm hi)).trans hfirst, hone⟩

theorem run_bootstrap {t : TaskTable} (h : BootstrapInPlace t) (ops : List Op) :
    BootstrapInPlace (scheduler.run t ops) :=
  scheduler.run_invariant BootstrapInPlace (fun s op hs => bootstrap_stays (exec_call s op) hs)
    h ops

/-! ## The ids issued along a run -/

theorem issues_init {t : TaskTable} (hno : ∀ i task, t.slots i = some task → task.id ≠ 1) :
    issues t .init = some 1 := by
  have hany : t.tasks.any (·.id == 1) = false := by
    simp only [List.any_eq_false, TaskTable.mem_tasks, beq_iff_eq]
    rintro other ⟨j, hj⟩
    exact hno j other hj
  simp [issues, hany]

theorem issues_spawn {t : TaskTable} {i : Fin maxTasks} (hfree : t.slots i = none)
    (kind : TaskKind) : issues t (.spawn kind) = some t.nextId := by
  have hsome : t.freeSlot ≠ none := fun hnone => TaskTable.freeSlot_none.mp hnone i hfree
  obtain ⟨k, hk⟩ := Option.ne_none_iff_exists'.mp hsome
  simp [issues, TaskTable.spawn, hk, Except.toOption]

/-- Who is live after a call was live before it, or got its id from the call. -/
theorem live_of_call {t : TaskTable} (op : Op) {i : Fin maxTasks} {task : TaskInfo}
    (hslot : (exec t op).2.slots i = some task) :
    (∃ j old, t.slots j = some old ∧ old.id = task.id) ∨ issues t op = some task.id := by
  -- a rewritten slot keeps its id, and waking keeps all of them
  have hwoken : ∀ {now j a}, (t.woken now).slots j = some a →
      ∃ j old, t.slots j = some old ∧ old.id = a.id := by
    intro now j a ha
    obtain ⟨old, hold, rfl⟩ := TaskTable.woken_slots_eq_some.mp ha
    exact ⟨j, old, hold, by simp⟩
  have hput : ∀ {now j old a}, (t.woken now).slots j = some old →
      ((t.woken now).put j (some a)).slots i = some task → a.id = old.id →
      ∃ j old, t.slots j = some old ∧ old.id = task.id := by
    intro now j old a hold hi hid
    rcases TaskTable.put_slots_cases hi with ⟨-, heq⟩ | ⟨-, hi⟩
    · obtain rfl := Option.some.inj heq
      rw [hid]
      exact hwoken hold
    · exact hwoken hi
  have hcall := exec_call t op
  revert hslot hcall
  generalize (exec t op).1 = r, (exec t op).2 = t'
  intro hslot hcall
  cases hcall with
  | initKeep | spawnFull | sleepZero => exact Or.inl ⟨i, task, hslot, rfl⟩
  | initWrite hno =>
    rcases TaskTable.put_slots_cases hslot with ⟨-, heq⟩ | ⟨-, hold⟩
    · obtain rfl := Option.some.inj heq
      exact Or.inr (issues_init hno)
    · exact Or.inl ⟨i, task, hold, rfl⟩
  | @spawnAt kind j hfree hfirst =>
    rcases TaskTable.put_slots_cases hslot with ⟨-, heq⟩ | ⟨-, hold⟩
    · obtain rfl := Option.some.inj heq
      exact Or.inr (issues_spawn hfree kind)
    · exact Or.inl ⟨i, task, hold, rfl⟩
  | stepIdle | sleepRefused | wakeRefused | wakeAwake | removeBootstrap | removeRefused
  | setPriorityRefused => exact Or.inl (hwoken hslot)
  | stepRun hsel hold => exact Or.inl (hput (a := ranOnce _) hold hslot rfl)
  | sleepOk _ hfind _ => exact Or.inl (hput (TaskTable.findTask_some hfind).1 hslot rfl)
  | wakeOk hfind _ => exact Or.inl (hput (TaskTable.findTask_some hfind).1 hslot rfl)
  | setPriorityOk hfind _ => exact Or.inl (hput (TaskTable.findTask_some hfind).1 hslot rfl)
  | removeOk _ _ _ =>
    rcases TaskTable.put_slots_cases hslot with ⟨-, heq⟩ | ⟨-, hold⟩
    · simp at heq
    · exact Or.inl (hwoken hold)

/-- An issued id is the counter's value, and the counter moves past it. -/
theorem issues_spec {t : TaskTable} (h : Inv t) (hlimit : BelowLimit t) {op : Op} {id : UInt64}
    (hid : issues t op = some id) : id = t.nextId ∧ t.nextId < (exec t op).2.nextId := by
  cases op with
  | init =>
    rw [issues] at hid
    split at hid
    · simp at hid
    · next hany =>
      obtain rfl := Option.some.inj hid
      -- no task has the id 1, so that the table is empty
      have hno : ∀ i task, t.slots i = some task → task.id ≠ 1 := by
        intro i task hslot hone
        apply hany
        simp only [List.any_eq_true, TaskTable.mem_tasks, beq_iff_eq]
        exact ⟨task, ⟨i, hslot⟩, hone⟩
      have hone : t.nextId = 1 := h.unissued (h.empty hno)
      refine ⟨hone.symm, ?_⟩
      rw [exec, TaskTable.ensureBootstrapTask, if_neg hany, hone]
      change (1 : UInt64) < max 1 2
      decide
  | spawn kind =>
    cases hfree : t.freeSlot with
    | none => simp [issues, TaskTable.spawn, hfree, Except.toOption] at hid
    | some i =>
      simp only [issues, TaskTable.spawn, hfree, Except.toOption, Option.some.injEq] at hid
      refine ⟨hid.symm, ?_⟩
      simp only [exec, TaskTable.spawn, hfree]
      rw [UInt64.lt_iff_toNat_lt, U64.toNat_succ_of_lt hlimit]
      omega
  | _ => simp [issues] at hid

/-- Along a run the ids come in strictly increasing order, between the counter at the
start and the counter at the end. -/
theorem issued_spec {t : TaskTable} (h : Inv t) (ops : List Op)
    (hend : BelowLimit (scheduler.run t ops)) :
    (issued t ops).Pairwise (· < ·) ∧
      ∀ id ∈ issued t ops, t.nextId ≤ id ∧ id < (scheduler.run t ops).nextId := by
  induction ops generalizing t with
  | nil => simp [issued]
  | cons op ops ih =>
    have hlimit' : BelowLimit (exec t op).2 := belowLimit_of_run ops hend
    have hlimit : BelowLimit t := belowLimit_of_exec t op hlimit'
    obtain ⟨hsorted, hrange⟩ := ih (step_inv (exec_call t op) h hlimit) hend
    have hle : t.nextId ≤ (exec t op).2.nextId := nextId_le (exec_call t op)
    have hend_le : (exec t op).2.nextId ≤ (scheduler.run t (op :: ops)).nextId :=
      nextId_le_run ops
    cases hid : issues t op with
    | none =>
      simp only [issued, hid, Option.toList_none, List.nil_append]
      exact ⟨hsorted, fun id hmem => ⟨UInt64.le_trans hle (hrange id hmem).1, (hrange id hmem).2⟩⟩
    | some new =>
      obtain ⟨rfl, hlt⟩ := issues_spec h hlimit hid
      simp only [issued, hid, Option.toList_some, List.singleton_append, List.pairwise_cons,
        List.forall_mem_cons]
      refine ⟨⟨fun id hmem => UInt64.lt_of_lt_of_le hlt (hrange id hmem).1, hsorted⟩,
        ⟨UInt64.le_refl _, UInt64.lt_of_lt_of_le hlt hend_le⟩, fun id hmem => ?_⟩
      exact ⟨UInt64.le_trans hle (hrange id hmem).1, (hrange id hmem).2⟩

/-- A live task was live at the start of the run or got its id during it. -/
theorem live_of_run {t : TaskTable} (ops : List Op) {i : Fin maxTasks} {task : TaskInfo}
    (hslot : (scheduler.run t ops).slots i = some task) :
    (∃ j old, t.slots j = some old ∧ old.id = task.id) ∨ task.id ∈ issued t ops := by
  induction ops generalizing t with
  | nil => exact Or.inl ⟨i, task, hslot, rfl⟩
  | cons op ops ih =>
    rcases ih hslot with ⟨j, old, hold, hid⟩ | hmem
    · rcases live_of_call op hold with ⟨k, older, holder, hid'⟩ | hissue
      · exact Or.inl ⟨k, older, holder, hid'.trans hid⟩
      · exact Or.inr (by simp [issued, hissue, hid])
    · exact Or.inr (List.mem_append_right _ hmem)

/-! ## The whole invariant, from the empty table -/

/-- **Scheduler table invariant.** After every run from `new()`, in any order and with any
arguments, that leaves the id counter below its limit:
the live ids are pairwise different and were all issued, every issued id is below the
counter and no id is issued twice; a task is asleep exactly when it has a wake-up tick and
none is running; the cursor is a slot number; once any prefix of the run has left a task in
the table, the task 1 is in slot 0; and `ensure_bootstrap_task` overwrites no live task. -/
theorem table_invariant (ops : List Op)
    (hlimit : (scheduler.run TaskTable.new ops).nextId < U64.maxVal) :
    (∀ i j a b, (scheduler.run TaskTable.new ops).slots i = some a →
      (scheduler.run TaskTable.new ops).slots j = some b → a.id = b.id → i = j) ∧
    (∀ i a, (scheduler.run TaskTable.new ops).slots i = some a →
      a.id ∈ issued TaskTable.new ops) ∧
    (∀ id ∈ issued TaskTable.new ops, id < (scheduler.run TaskTable.new ops).nextId) ∧
    (issued TaskTable.new ops).Nodup ∧
    (∀ i a, (scheduler.run TaskTable.new ops).slots i = some a →
      (a.state = .sleeping ↔ a.sleepUntilTick.isSome) ∧ a.state ≠ .running) ∧
    (scheduler.run TaskTable.new ops).nextRrIndex < maxTasks ∧
    (∀ before after, ops = before ++ after →
      (∃ i a, (scheduler.run TaskTable.new before).slots i = some a) →
      ∃ a, (scheduler.run TaskTable.new ops).slots 0 = some a ∧ a.id = 1) ∧
    (∀ i a, (scheduler.run TaskTable.new ops).slots i = some a →
      (scheduler.run TaskTable.new ops).ensureBootstrapTask.slots i = some a) := by
  have hinv : Inv (scheduler.run TaskTable.new ops) := run_inv init_inv ops hlimit
  obtain ⟨hsorted, hrange⟩ := issued_spec init_inv ops hlimit
  refine ⟨fun i j a b => hinv.distinct, ?_, fun id hmem => (hrange id hmem).2, ?_,
    fun i a => hinv.wellFormed, hinv.cursorLt, ?_, ?_⟩
  · intro i a hslot
    rcases live_of_run ops hslot with ⟨j, old, hold, -⟩ | hmem
    · simp [TaskTable.new] at hold
    · exact hmem
  · exact hsorted.imp fun hlt => UInt64.ne_of_lt hlt
  · rintro before after rfl ⟨i, a, hslot⟩
    rw [Mealy.run_append] at hlimit ⊢
    have hbefore : Inv (scheduler.run TaskTable.new before) :=
      run_inv init_inv before (belowLimit_of_run after hlimit)
    exact run_bootstrap (hbefore.bootstrap ⟨i, a, hslot⟩) after
  · intro i a hslot
    -- the table has a task, so it has the task 1 and the call returns early
    obtain ⟨first, hfirst, hone⟩ := hinv.bootstrap ⟨i, a, hslot⟩
    have hany : (scheduler.run TaskTable.new ops).tasks.any (·.id == 1) = true := by
      simp only [List.any_eq_true, TaskTable.mem_tasks, beq_iff_eq]
      exact ⟨first, ⟨0, hfirst⟩, hone⟩
    rwa [TaskTable.ensureBootstrapTask, if_pos hany]

/-- A run that spawns before `init`, puts a task to sleep, tries to remove the bootstrap
task, removes another one and spawns again. -/
theorem table_invariant_mixed_run :
    let ops : List Op := [.spawn .userDemo, .init, .spawn .kernelMonitor, .sleep 2 5 3,
      .step 4, .remove 1 4, .remove 2 9, .spawn .fastSyscallError, .setPriority 3 200 9]
    (scheduler.run TaskTable.new ops).nextId < U64.maxVal ∧ (issued TaskTable.new ops).Nodup ∧
      (scheduler.run TaskTable.new ops).nextRrIndex < maxTasks := by
  intro ops
  have hlimit : (scheduler.run TaskTable.new ops).nextId < U64.maxVal := by decide
  obtain ⟨-, -, -, hnodup, -, hcursor, -, -⟩ := table_invariant ops hlimit
  exact ⟨hlimit, hnodup, hcursor⟩

end JingOS.Task
