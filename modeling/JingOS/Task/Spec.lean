import JingOS.Lib.RoundRobin
import JingOS.Task.Table

/-!
# What the scheduler's calls can do

One lemma per loop of the source (`findTask`, `freeSlot`, `selectedPriority`, the
round-robin scan), and then the inversion of a whole call: `Call t op r t'` lists every
outcome with its guard, its reply and the table it leaves, and `exec_call` says that a
call has one of these outcomes. Every invariant of the later modules is a case analysis
on `Call`; none of them unfolds an operation again.
-/

namespace JingOS.Task

namespace TaskTable

/-! ## Slots -/

@[simp] theorem put_slots_self (t : TaskTable) (i : Fin maxTasks) (slot : Option TaskInfo) :
    (t.put i slot).slots i = slot := by
  simp [put]

@[simp] theorem put_slots_ne (t : TaskTable) {i j : Fin maxTasks} (slot : Option TaskInfo)
    (h : j ≠ i) : (t.put i slot).slots j = t.slots j := by
  simp [put, h]

@[simp] theorem put_nextId (t : TaskTable) (i : Fin maxTasks) (slot : Option TaskInfo) :
    (t.put i slot).nextId = t.nextId := rfl

@[simp] theorem put_nextRrIndex (t : TaskTable) (i : Fin maxTasks) (slot : Option TaskInfo) :
    (t.put i slot).nextRrIndex = t.nextRrIndex := rfl

@[simp] theorem put_put (t : TaskTable) (i : Fin maxTasks) (old new : Option TaskInfo) :
    (t.put i old).put i new = t.put i new := by
  simp only [put, mk.injEq, and_true]
  funext j
  by_cases h : j = i <;> simp [h]

/-- A slot of the table after a write: the written one, or an old one elsewhere. -/
theorem put_slots_cases {t : TaskTable} {i j : Fin maxTasks} {slot : Option TaskInfo}
    {task : TaskInfo} (h : (t.put i slot).slots j = some task) :
    (j = i ∧ slot = some task) ∨ (j ≠ i ∧ t.slots j = some task) := by
  by_cases hj : j = i
  · subst hj
    exact Or.inl ⟨rfl, by simpa using h⟩
  · exact Or.inr ⟨hj, by simpa [hj] using h⟩

@[simp] theorem mem_tasks {t : TaskTable} {task : TaskInfo} :
    task ∈ t.tasks ↔ ∃ i, t.slots i = some task := by
  simp [tasks]

/-! ## Waking -/

@[simp] theorem wakeDue_snd (t : TaskTable) (now : UInt64) : (t.wakeDue now).2 = t.woken now :=
  rfl

@[simp] theorem woken_nextId (t : TaskTable) (now : UInt64) :
    (t.woken now).nextId = t.nextId := rfl

@[simp] theorem woken_nextRrIndex (t : TaskTable) (now : UInt64) :
    (t.woken now).nextRrIndex = t.nextRrIndex := rfl

@[simp] theorem woken_slots (t : TaskTable) (now : UInt64) (i : Fin maxTasks) :
    (t.woken now).slots i = (t.slots i).map (wakeTask now) := rfl

/-- Waking touches the state and the wake-up tick only. -/
@[simp] theorem wakeTask_id (now : UInt64) (task : TaskInfo) :
    (wakeTask now task).id = task.id := by
  unfold wakeTask; split <;> rfl

@[simp] theorem wakeTask_kind (now : UInt64) (task : TaskInfo) :
    (wakeTask now task).kind = task.kind := by
  unfold wakeTask; split <;> rfl

@[simp] theorem wakeTask_runCount (now : UInt64) (task : TaskInfo) :
    (wakeTask now task).runCount = task.runCount := by
  unfold wakeTask; split <;> rfl

@[simp] theorem wakeTask_priority (now : UInt64) (task : TaskInfo) :
    (wakeTask now task).priority = task.priority := by
  unfold wakeTask; split <;> rfl

/-- A task that is not asleep is left alone. -/
theorem wakeTask_of_ne_sleeping {now : UInt64} {task : TaskInfo} (h : task.state ≠ .sleeping) :
    wakeTask now task = task := by
  simp [wakeTask, isDue, h]

theorem woken_slots_eq_some {t : TaskTable} {now : UInt64} {i : Fin maxTasks} {task : TaskInfo} :
    (t.woken now).slots i = some task ↔ ∃ old, t.slots i = some old ∧ wakeTask now old = task := by
  simp

/-! ## The scans over the slots -/

/-- The scan for an id stops at a slot that holds it. -/
theorem findTask_some {t : TaskTable} {id : UInt64} {i : Fin maxTasks} {task : TaskInfo}
    (h : t.findTask id = some (i, task)) : t.slots i = some task ∧ task.id = id := by
  obtain ⟨j, -, hj⟩ := List.exists_of_findSome?_eq_some h
  rw [Option.bind_eq_some_iff] at hj
  obtain ⟨found, hslot, hif⟩ := hj
  split at hif
  · next hid =>
    simp only [Option.some.injEq, Prod.mk.injEq] at hif
    obtain ⟨rfl, rfl⟩ := hif
    exact ⟨hslot, hid⟩
  · simp at hif

/-- A task is found if there is one with the id. -/
theorem findTask_none {t : TaskTable} {id : UInt64} :
    t.findTask id = none ↔ ∀ i task, t.slots i = some task → task.id ≠ id := by
  simp only [findTask, List.findSome?_eq_none_iff, List.mem_finRange, true_implies,
    Option.bind_eq_none_iff]
  constructor
  · intro h i task hslot hid
    have := h i task hslot
    simp [hid] at this
  · intro h i task hslot
    simp [h i task hslot]

/-- The first free slot is free, and there is one unless all eight are taken. -/
theorem freeSlot_some {t : TaskTable} {i : Fin maxTasks} (h : t.freeSlot = some i) :
    t.slots i = none ∧ ∀ j < i, t.slots j ≠ none := by
  rw [freeSlot, List.find?_eq_some_iff_getElem] at h
  obtain ⟨hfree, k, hk, rfl, hbefore⟩ := h
  refine ⟨by simpa using hfree, fun j hj hnone => ?_⟩
  have hjk : j.val < k := by simpa [Fin.lt_def] using hj
  have := hbefore j.val hjk
  simp [hnone] at this

theorem freeSlot_none {t : TaskTable} : t.freeSlot = none ↔ ∀ i, t.slots i ≠ none := by
  simp [freeSlot, List.find?_eq_none]

/-! ## The selection -/

theorem le_max_priority (p q : UInt8) :
    p ≤ max p q ∧ q ≤ max p q ∧ (max p q = p ∨ max p q = q) := by
  change p ≤ (if p ≤ q then q else p) ∧ q ≤ (if p ≤ q then q else p) ∧
    ((if p ≤ q then q else p) = p ∨ (if p ≤ q then q else p) = q)
  split <;> grind

/-- The loop keeps the maximum of its start value and the ready tasks seen. -/
theorem foldl_raisePriority_some (l : List TaskInfo) (start : Option UInt8) {p : UInt8}
    (h : l.foldl raisePriority start = some p) :
    (start = some p ∨ ∃ task ∈ l, task.state = .ready ∧ task.priority = p) ∧
      (∀ q, start = some q → q ≤ p) ∧
      ∀ task ∈ l, task.state = .ready → task.priority ≤ p := by
  induction l generalizing start with
  | nil =>
    rw [List.foldl_nil] at h
    subst h
    simp
  | cons x l ih =>
    rw [List.foldl_cons] at h
    obtain ⟨hfrom, hstart, hrest⟩ := ih _ h
    by_cases hx : x.state = .ready
    · cases start with
      | none =>
        have hx' : raisePriority none x = some x.priority := by simp [raisePriority, hx]
        rw [hx'] at hfrom hstart
        grind
      | some q =>
        have hx' : raisePriority (some q) x = some (max q x.priority) := by
          simp [raisePriority, hx]
        rw [hx'] at hfrom hstart
        have hmax := le_max_priority q x.priority
        grind
    · have hx' : raisePriority start x = start := by simp [raisePriority, hx]
      rw [hx'] at hfrom hstart
      grind

theorem foldl_raisePriority_none (l : List TaskInfo) (start : Option UInt8)
    (h : l.foldl raisePriority start = none) :
    start = none ∧ ∀ task ∈ l, task.state ≠ .ready := by
  induction l generalizing start with
  | nil => simpa using h
  | cons x l ih =>
    rw [List.foldl_cons] at h
    obtain ⟨hstart, hrest⟩ := ih _ h
    by_cases hx : x.state = .ready
    · simp [raisePriority, hx] at hstart
    · simp only [raisePriority, hx, ne_eq, not_false_eq_true, if_true] at hstart
      exact ⟨hstart, by simpa [hx] using hrest⟩

/-- The task in the slot is ready and no ready task has a higher priority. -/
def topReady (t : TaskTable) (i : Fin maxTasks) : Bool :=
  (t.slots i).any fun task =>
    task.state == .ready &&
      t.tasks.all fun other => other.state != .ready || other.priority ≤ task.priority

/-- The cursor as a slot number. -/
def cursor (t : TaskTable) : Fin maxTasks := Fin.ofNat maxTasks t.nextRrIndex

/-- A slot is at the top if its task is ready and no ready task has more priority. -/
theorem topReady_iff {t : TaskTable} {i : Fin maxTasks} :
    t.topReady i = true ↔ ∃ task, t.slots i = some task ∧ task.state = .ready ∧
      ∀ j other, t.slots j = some other → other.state = .ready →
        other.priority ≤ task.priority := by
  simp only [topReady, Option.any_eq_true, Bool.and_eq_true, beq_iff_eq, List.all_eq_true,
    Bool.or_eq_true, bne_iff_ne, decide_eq_true_eq, mem_tasks]
  constructor
  · rintro ⟨task, hslot, hready, hall⟩
    exact ⟨task, hslot, hready, fun j other hj hr => (hall other ⟨j, hj⟩).resolve_left (by simp [hr])⟩
  · rintro ⟨task, hslot, hready, hall⟩
    refine ⟨task, hslot, hready, ?_⟩
    rintro other ⟨j, hj⟩
    by_cases hr : other.state = .ready
    · exact Or.inr (hall j other hj hr)
    · exact Or.inl hr

/-- The scan of the source visits the slots in circular order from the cursor. -/
theorem selectedIndex_eq (t : TaskTable) (p : UInt8) :
    t.selectedIndex p = RoundRobin.firstFrom (fun i => slotMatches (t.slots i) p) t.cursor := by
  have hvisit : (List.range maxTasks).map t.rrIndex =
      (List.finRange maxTasks).map (t.cursor + ·) := by
    apply List.ext_getElem
    · simp
    · intro k hk hk'
      simp only [List.getElem_map, List.getElem_range, List.getElem_finRange, rrIndex, cursor]
      ext
      simp [Fin.val_add]
  rw [selectedIndex, RoundRobin.firstFrom, hvisit]

/-- **Selection.** `step` runs the first top-priority ready task in circular order. -/
theorem selected_eq (t : TaskTable) :
    t.selected = RoundRobin.firstFrom t.topReady t.cursor := by
  unfold selected selectedPriority
  cases hp : t.tasks.foldl raisePriority none with
  | none =>
    obtain ⟨-, hidle⟩ := foldl_raisePriority_none _ _ hp
    symm
    rw [Option.bind_none, RoundRobin.firstFrom_eq_none]
    intro i
    rw [Bool.eq_false_iff, ne_eq, topReady_iff]
    rintro ⟨task, hslot, hready, -⟩
    exact hidle task (mem_tasks.mpr ⟨i, hslot⟩) hready
  | some p =>
    obtain ⟨hfrom, -, hmax⟩ := foldl_raisePriority_some _ _ hp
    rw [Option.bind_some, selectedIndex_eq]
    congr 1
    funext i
    rw [Bool.eq_iff_iff, topReady_iff]
    simp only [slotMatches, Option.any_eq_true, Bool.and_eq_true, beq_iff_eq]
    constructor
    · rintro ⟨task, hslot, hready, rfl⟩
      exact ⟨task, hslot, hready, fun j other hj => hmax other (mem_tasks.mpr ⟨j, hj⟩)⟩
    · rintro ⟨task, hslot, hready, hall⟩
      refine ⟨task, hslot, hready, ?_⟩
      -- the selected priority is that of some ready task, so neither can exceed the other
      obtain ⟨best, hbest, hbready, rfl⟩ := hfrom.resolve_left (by simp)
      obtain ⟨j, hj⟩ := mem_tasks.mp hbest
      have h1 := hall j best hj hbready
      have h2 := hmax task (mem_tasks.mpr ⟨i, hslot⟩) hready
      exact UInt8.le_antisymm h2 h1

theorem selected_some {t : TaskTable} {i : Fin maxTasks} (h : t.selected = some i) :
    ∃ task, t.slots i = some task ∧ task.state = .ready ∧
      ∀ j other, t.slots j = some other → other.state = .ready →
        other.priority ≤ task.priority := by
  rw [selected_eq] at h
  exact topReady_iff.mp (RoundRobin.firstFrom_spec h).1

/-- Nothing is selected only if nothing is ready. -/
theorem selected_none {t : TaskTable} (h : t.selected = none) {i : Fin maxTasks}
    {task : TaskInfo} (hslot : t.slots i = some task) : task.state ≠ .ready := by
  intro hready
  unfold selected selectedPriority at h
  cases hp : t.tasks.foldl raisePriority none with
  | none => exact (foldl_raisePriority_none _ _ hp).2 task (mem_tasks.mpr ⟨i, hslot⟩) hready
  | some p =>
    obtain ⟨hfrom, -, -⟩ := foldl_raisePriority_some _ _ hp
    obtain ⟨best, hbest, hbready, rfl⟩ := hfrom.resolve_left (by simp)
    obtain ⟨j, hj⟩ := mem_tasks.mp hbest
    rw [hp, Option.bind_some, selectedIndex_eq, RoundRobin.firstFrom_eq_none] at h
    have := h j
    simp [slotMatches, hj, hbready] at this

end TaskTable

/-! ## Inversion of a call -/

/-- The task a finished `step` leaves in the selected slot. -/
def ranOnce (task : TaskInfo) : TaskInfo :=
  { task with state := .ready, runCount := U64.saturatingAdd task.runCount 1,
              sleepUntilTick := none }

/-- The report of a `step` that ran `task`. -/
def reportOf (task : TaskInfo) : TaskStepReport :=
  { id := task.id, kind := task.kind, runCount := U64.saturatingAdd task.runCount 1 }

/-- The ways in which the shared loop turns a request down before its body runs. -/
inductive Refused (t : TaskTable) (id : UInt64) : String → Prop where
  | notFound (h : ∀ i task, t.slots i = some task → task.id ≠ id) :
      Refused t id "task not found"
  | running {i : Fin maxTasks} {task : TaskInfo} (hfind : t.findTask id = some (i, task))
      (h : task.state = .running) : Refused t id "task is running"

/-- `Call t op r t'`: on table `t` the call `op` may reply `r` and leave `t'`. -/
inductive Call (t : TaskTable) : Op → Reply → TaskTable → Prop where
  | initKeep (h : ∃ i task, t.slots i = some task ∧ task.id = 1) : Call t .init .done t
  | initWrite (h : ∀ i task, t.slots i = some task → task.id ≠ 1) :
      Call t .init .done { t.put 0 (some (TaskTable.freshTask 1 .kernelMonitor)) with
        nextId := max t.nextId 2 }
  | spawnFull {kind} (h : ∀ i, t.slots i ≠ none) :
      Call t (.spawn kind) (.id (.error "task table full")) t
  | spawnAt {kind i} (hfree : t.slots i = none) (hfirst : ∀ j < i, t.slots j ≠ none) :
      Call t (.spawn kind) (.id (.ok t.nextId))
        { t.put i (some (TaskTable.freshTask t.nextId kind)) with
          nextId := U64.saturatingAdd t.nextId 1 }
  | stepIdle {now} (hsel : (t.woken now).selected = none) :
      Call t (.step now) (.report none) (t.woken now)
  | stepRun {now i task} (hsel : (t.woken now).selected = some i)
      (hslot : (t.woken now).slots i = some task) :
      Call t (.step now) (.report (some (reportOf task)))
        { (t.woken now).put i (some (ranOnce task)) with
          nextRrIndex := (i.val + 1) % maxTasks }
  | sleepZero {id now} : Call t (.sleep id 0 now) (.id (.error "sleep ticks must be > 0")) t
  | sleepRefused {id ticks now message} (hticks : ticks ≠ 0)
      (h : Refused (t.woken now) id message) :
      Call t (.sleep id ticks now) (.id (.error message)) (t.woken now)
  | sleepOk {id ticks now i task} (hticks : ticks ≠ 0)
      (hfind : (t.woken now).findTask id = some (i, task)) (hrun : task.state ≠ .running) :
      Call t (.sleep id ticks now) (.id (.ok (U64.saturatingAdd now ticks)))
        ((t.woken now).put i (some { task with
          state := .sleeping, sleepUntilTick := some (U64.saturatingAdd now ticks) }))
  | wakeRefused {id now message} (h : Refused (t.woken now) id message) :
      Call t (.wake id now) (.task (.error message)) (t.woken now)
  | wakeAwake {id now i task} (hfind : (t.woken now).findTask id = some (i, task))
      (hrun : task.state ≠ .running) (hawake : task.state ≠ .sleeping) :
      Call t (.wake id now) (.task (.error "task is not sleeping")) (t.woken now)
  | wakeOk {id now i task} (hfind : (t.woken now).findTask id = some (i, task))
      (hasleep : task.state = .sleeping) :
      Call t (.wake id now) (.task (.ok { task with state := .ready, sleepUntilTick := none }))
        ((t.woken now).put i (some { task with state := .ready, sleepUntilTick := none }))
  | removeBootstrap {now} :
      Call t (.remove 1 now) (.task (.error "cannot remove bootstrap task")) (t.woken now)
  | removeRefused {id now message} (hid : id ≠ 1) (h : Refused (t.woken now) id message) :
      Call t (.remove id now) (.task (.error message)) (t.woken now)
  | removeOk {id now i task} (hid : id ≠ 1)
      (hfind : (t.woken now).findTask id = some (i, task)) (hrun : task.state ≠ .running) :
      Call t (.remove id now) (.task (.ok task)) ((t.woken now).put i none)
  | setPriorityRefused {id priority now message} (h : Refused (t.woken now) id message) :
      Call t (.setPriority id priority now) (.task (.error message)) (t.woken now)
  | setPriorityOk {id priority now i task}
      (hfind : (t.woken now).findTask id = some (i, task)) (hrun : task.state ≠ .running) :
      Call t (.setPriority id priority now) (.task (.ok { task with priority }))
        ((t.woken now).put i (some { task with priority }))

/-- The shared loop either refuses the request or runs its body on the task found. -/
theorem forTask_cases {α : Type} (t : TaskTable) (id : UInt64)
    (body : TaskInfo → Except String (α × Option TaskInfo)) :
    (∃ message, Refused t id message ∧ t.forTask id body = (.error message, t)) ∨
    ∃ i task, t.findTask id = some (i, task) ∧ task.state ≠ .running ∧
      ((∃ message, body task = .error message ∧ t.forTask id body = (.error message, t)) ∨
       ∃ result slot, body task = .ok (result, slot) ∧
         t.forTask id body = (.ok result, t.put i slot)) := by
  cases hfind : t.findTask id with
  | none =>
    exact Or.inl ⟨_, .notFound (TaskTable.findTask_none.mp hfind), by simp [TaskTable.forTask, hfind]⟩
  | some found =>
    obtain ⟨i, task⟩ := found
    by_cases hrun : task.state = .running
    · exact Or.inl ⟨_, .running hfind hrun, by simp [TaskTable.forTask, hfind, hrun]⟩
    · refine Or.inr ⟨i, task, rfl, hrun, ?_⟩
      cases hbody : body task with
      | error message => exact Or.inl ⟨message, rfl, by simp [TaskTable.forTask, hfind, hrun, hbody]⟩
      | ok out => exact Or.inr ⟨out.1, out.2, rfl, by simp [TaskTable.forTask, hfind, hrun, hbody]⟩

theorem init_call (t : TaskTable) : Call t .init .done t.ensureBootstrapTask := by
  unfold TaskTable.ensureBootstrapTask
  split
  · next h =>
    simp only [List.any_eq_true, TaskTable.mem_tasks, beq_iff_eq] at h
    obtain ⟨task, ⟨i, hslot⟩, hid⟩ := h
    exact .initKeep ⟨i, task, hslot, hid⟩
  · next h =>
    refine .initWrite fun i task hslot hid => h ?_
    simp only [List.any_eq_true, TaskTable.mem_tasks, beq_iff_eq]
    exact ⟨task, ⟨i, hslot⟩, hid⟩

theorem spawn_call (t : TaskTable) (kind : TaskKind) :
    Call t (.spawn kind) (.id (t.spawn kind).1) (t.spawn kind).2 := by
  unfold TaskTable.spawn
  cases hfree : t.freeSlot with
  | none => exact .spawnFull (TaskTable.freeSlot_none.mp hfree)
  | some i => exact .spawnAt (TaskTable.freeSlot_some hfree).1 (TaskTable.freeSlot_some hfree).2

theorem step_call (t : TaskTable) (now : UInt64) :
    Call t (.step now) (.report (t.step now).1) (t.step now).2 := by
  cases hsel : (t.woken now).selected with
  | none =>
    have heq : t.step now = (none, t.woken now) := by simp [TaskTable.step, hsel]
    rw [heq]
    exact .stepIdle hsel
  | some i =>
    obtain ⟨task, hslot, -, -⟩ := TaskTable.selected_some hsel
    have heq : t.step now = (some (reportOf task),
        { (t.woken now).put i (some (ranOnce task)) with
          nextRrIndex := (i.val + 1) % maxTasks }) := by
      simp only [TaskTable.step, TaskTable.wakeDue_snd, hsel, hslot, TaskTable.put_put]
      rfl
    rw [heq]
    exact .stepRun hsel hslot

theorem sleep_call (t : TaskTable) (id ticks now : UInt64) :
    Call t (.sleep id ticks now) (.id (t.sleep id ticks now).1) (t.sleep id ticks now).2 := by
  unfold TaskTable.sleep
  by_cases hticks : ticks = 0
  · subst hticks
    exact .sleepZero
  · rw [if_neg hticks, TaskTable.wakeDue_snd]
    rcases forTask_cases (t.woken now) id fun task =>
        let untilTick := U64.saturatingAdd now ticks
        .ok (untilTick, some { task with state := .sleeping, sleepUntilTick := some untilTick })
      with ⟨message, h, heq⟩ | ⟨i, task, hfind, hrun, ⟨_, hbody, _⟩ | ⟨result, slot, hbody, heq⟩⟩
    · rw [heq]
      exact .sleepRefused hticks h
    · simp at hbody
    · rw [heq]
      simp only [Except.ok.injEq, Prod.mk.injEq] at hbody
      obtain ⟨rfl, rfl⟩ := hbody
      exact .sleepOk hticks hfind hrun

theorem wake_call (t : TaskTable) (id now : UInt64) :
    Call t (.wake id now) (.task (t.wake id now).1) (t.wake id now).2 := by
  unfold TaskTable.wake
  rw [TaskTable.wakeDue_snd]
  rcases forTask_cases (t.woken now) id fun task =>
      if task.state ≠ .sleeping then .error "task is not sleeping"
      else
        let task := { task with state := .ready, sleepUntilTick := none }
        .ok (task, some task)
    with ⟨message, h, heq⟩ | ⟨i, task, hfind, hrun, ⟨message, hbody, heq⟩ | ⟨result, slot, hbody, heq⟩⟩
  · rw [heq]
    exact .wakeRefused h
  · rw [heq]
    split at hbody
    · next hawake =>
      simp only [Except.error.injEq] at hbody
      subst hbody
      exact .wakeAwake hfind hrun hawake
    · simp at hbody
  · rw [heq]
    split at hbody
    · simp at hbody
    · next hasleep =>
      simp only [Except.ok.injEq, Prod.mk.injEq] at hbody
      obtain ⟨rfl, rfl⟩ := hbody
      exact .wakeOk hfind (not_not.mp hasleep)

theorem remove_call (t : TaskTable) (id now : UInt64) :
    Call t (.remove id now) (.task (t.remove id now).1) (t.remove id now).2 := by
  unfold TaskTable.remove
  rw [TaskTable.wakeDue_snd]
  by_cases hid : id = 1
  · subst hid
    exact .removeBootstrap
  · rw [if_neg hid]
    rcases forTask_cases (t.woken now) id fun task => .ok (task, none)
      with ⟨message, h, heq⟩ | ⟨i, task, hfind, hrun, ⟨_, hbody, _⟩ | ⟨result, slot, hbody, heq⟩⟩
    · rw [heq]
      exact .removeRefused hid h
    · simp at hbody
    · rw [heq]
      simp only [Except.ok.injEq, Prod.mk.injEq] at hbody
      obtain ⟨rfl, rfl⟩ := hbody
      exact .removeOk hid hfind hrun

theorem setPriority_call (t : TaskTable) (id : UInt64) (priority : UInt8) (now : UInt64) :
    Call t (.setPriority id priority now) (.task (t.setPriority id priority now).1)
      (t.setPriority id priority now).2 := by
  unfold TaskTable.setPriority
  rw [TaskTable.wakeDue_snd]
  rcases forTask_cases (t.woken now) id fun task =>
      let task := { task with priority }
      .ok (task, some task)
    with ⟨message, h, heq⟩ | ⟨i, task, hfind, hrun, ⟨_, hbody, _⟩ | ⟨result, slot, hbody, heq⟩⟩
  · rw [heq]
    exact .setPriorityRefused h
  · simp at hbody
  · rw [heq]
    simp only [Except.ok.injEq, Prod.mk.injEq] at hbody
    obtain ⟨rfl, rfl⟩ := hbody
    exact .setPriorityOk hfind hrun

/-- Every call has one of the outcomes listed in `Call`. -/
theorem exec_call (t : TaskTable) (op : Op) : Call t op (exec t op).1 (exec t op).2 := by
  cases op with
  | init => exact init_call t
  | spawn kind => exact spawn_call t kind
  | step now => exact step_call t now
  | sleep id ticks now => exact sleep_call t id ticks now
  | wake id now => exact wake_call t id now
  | remove id now => exact remove_call t id now
  | setPriority id priority now => exact setPriority_call t id priority now

/-- No call takes the round-robin cursor off the table. -/
theorem exec_cursor_lt {t : TaskTable} (h : t.nextRrIndex < maxTasks) (op : Op) :
    (exec t op).2.nextRrIndex < maxTasks := by
  have hcall := exec_call t op
  generalize (exec t op).2 = t' at hcall
  generalize (exec t op).1 = reply at hcall
  cases hcall <;> first
    | exact h
    | exact Nat.mod_lt _ (by decide)

end JingOS.Task
