import JingOS.Lib.Mealy
import JingOS.Lib.U64
import Mathlib.Data.Fintype.Pi
import Mathlib.Data.List.FinRange

/-!
# The scheduler's task table (`kernel/src/task.rs`)

The table has eight slots, a counter for fresh ids and one round-robin cursor. Every
operation is translated with its early returns and its error texts; an operation
returns its result together with the table it leaves behind. `exec` collects the
operations into one machine, so that a run of the scheduler is a run of `scheduler`.
-/

namespace JingOS.Task

/-- `MAX_TASKS`. -/
@[reducible] def maxTasks : ℕ := 8

instance : NeZero maxTasks := ⟨by decide⟩

/-- `DEFAULT_TASK_PRIORITY`. -/
def defaultTaskPriority : UInt8 := 10

/-- The states of a task. -/
inductive TaskState where
  | ready
  | running
  | sleeping
deriving DecidableEq, Repr

/-- What a task runs. -/
inductive TaskKind where
  | kernelMonitor
  | userDemo
  | fastSyscallSuccess
  | fastSyscallError
deriving DecidableEq, Repr

/-- A task of the table. -/
structure TaskInfo where
  id : UInt64
  kind : TaskKind
  state : TaskState
  runCount : UInt64
  priority : UInt8
  sleepUntilTick : Option UInt64
deriving DecidableEq, Repr

/-- How many tasks are in which state. -/
structure SchedulerSnapshot where
  total : ℕ
  ready : ℕ
  running : ℕ
  sleeping : ℕ
  finished : ℕ
  capacity : ℕ
  nextId : UInt64
deriving DecidableEq, Repr

/-- Which task a step has run. -/
structure TaskStepReport where
  id : UInt64
  kind : TaskKind
  runCount : UInt64
deriving DecidableEq, Repr

/-- The table: the slot array, the next id to issue, the round-robin cursor. -/
structure TaskTable where
  slots : Fin maxTasks → Option TaskInfo
  nextId : UInt64
  nextRrIndex : ℕ
deriving DecidableEq

namespace TaskTable

/-- `TaskTable::new`. -/
def new : TaskTable := { slots := fun _ => none, nextId := 1, nextRrIndex := 0 }

/-! ## Reading and writing slots -/

/-- Overwrite one slot. -/
def put (t : TaskTable) (i : Fin maxTasks) (slot : Option TaskInfo) : TaskTable :=
  { t with slots := fun j => if j = i then slot else t.slots j }

/-- `slots.iter().flatten()`: the live tasks in slot order. -/
def tasks (t : TaskTable) : List TaskInfo := (List.finRange maxTasks).filterMap t.slots

/-- The first slot whose task has the given id, with that task. -/
def findTask (t : TaskTable) (id : UInt64) : Option (Fin maxTasks × TaskInfo) :=
  (List.finRange maxTasks).findSome? fun i =>
    (t.slots i).bind fun task => if task.id = id then some (i, task) else none

/-- The loop shared by `sleep`, `wake`, `remove` and `set_priority`: go to the first slot
whose task has the id, refuse a running task, and otherwise let `body` decide on the
result and the new content of the slot. -/
def forTask {α : Type} (t : TaskTable) (id : UInt64)
    (body : TaskInfo → Except String (α × Option TaskInfo)) : Except String α × TaskTable :=
  match t.findTask id with
  | none => (.error "task not found", t)
  | some (i, task) =>
    if task.state = .running then (.error "task is running", t)
    else
      match body task with
      | .error message => (.error message, t)
      | .ok (result, slot) => (.ok result, t.put i slot)

/-! ## The operations -/

/-- A task as `spawn` and `ensure_bootstrap_task` create it. -/
def freshTask (id : UInt64) (kind : TaskKind) : TaskInfo :=
  { id, kind, state := .ready, runCount := 0, priority := defaultTaskPriority,
    sleepUntilTick := none }

/-- `ensure_bootstrap_task`: slot 0 is written without looking at it. -/
def ensureBootstrapTask (t : TaskTable) : TaskTable :=
  if t.tasks.any (·.id == 1) then t
  else { t.put 0 (some (freshTask 1 .kernelMonitor)) with nextId := max t.nextId 2 }

/-- The first free slot: `slots.iter().position(Option::is_none)`. -/
def freeSlot (t : TaskTable) : Option (Fin maxTasks) :=
  (List.finRange maxTasks).find? fun i => (t.slots i).isNone

/-- A task in the first free slot, under the next id. -/
def spawn (t : TaskTable) (kind : TaskKind) : Except String UInt64 × TaskTable :=
  match t.freeSlot with
  | none => (.error "task table full", t)
  | some index =>
    (.ok t.nextId, { t.put index (some (freshTask t.nextId kind)) with
      nextId := U64.saturatingAdd t.nextId 1 })

/-- Is this task due to wake at `nowTicks`? -/
def isDue (nowTicks : UInt64) (task : TaskInfo) : Bool :=
  task.state == .sleeping && task.sleepUntilTick.any (fun untilTick => untilTick ≤ nowTicks)

/-- What `wake_due` makes of one task. -/
def wakeTask (nowTicks : UInt64) (task : TaskInfo) : TaskInfo :=
  if isDue nowTicks task then { task with state := .ready, sleepUntilTick := none } else task

/-- The table `wake_due` leaves behind. -/
def woken (t : TaskTable) (nowTicks : UInt64) : TaskTable :=
  { t with slots := fun i => (t.slots i).map (wakeTask nowTicks) }

/-- `wake_due`: the number of tasks woken, and the table after it. -/
def wakeDue (t : TaskTable) (nowTicks : UInt64) : ℕ × TaskTable :=
  (t.tasks.countP (isDue nowTicks), t.woken nowTicks)

/-- The body of the first loop of `step`. -/
def raisePriority (selected : Option UInt8) (task : TaskInfo) : Option UInt8 :=
  if task.state ≠ .ready then selected
  else some (match selected with
    | some current => max current task.priority
    | none => task.priority)

/-- The first loop of `step`: the highest priority among the ready tasks. -/
def selectedPriority (t : TaskTable) : Option UInt8 := t.tasks.foldl raisePriority none

/-- A ready task of the given priority in the slot. -/
def slotMatches (slot : Option TaskInfo) (priority : UInt8) : Bool :=
  slot.any fun task => task.state == .ready && task.priority == priority

/-- The slot visited at the given offset of the second loop of `step`. -/
def rrIndex (t : TaskTable) (offset : ℕ) : Fin maxTasks :=
  Fin.ofNat maxTasks (t.nextRrIndex + offset)

/-- The second loop of `step`: the first slot in round-robin order that matches. -/
def selectedIndex (t : TaskTable) (priority : UInt8) : Option (Fin maxTasks) :=
  ((List.range maxTasks).map t.rrIndex).find? fun index => slotMatches (t.slots index) priority

/-- The slot `step` runs, on a table whose due sleepers have been woken. -/
def selected (t : TaskTable) : Option (Fin maxTasks) :=
  t.selectedPriority.bind t.selectedIndex

/-- Who is due is woken; then the task that is selected, if there is one, has its run. -/
def step (t : TaskTable) (nowTicks : UInt64) : Option TaskStepReport × TaskTable :=
  let t := (t.wakeDue nowTicks).2
  match t.selected with
  | none => (none, t)
  | some index =>
    let t := { t with nextRrIndex := (index.val + 1) % maxTasks }
    match t.slots index with
    | none => (none, t)
    | some task =>
      let task := { task with
        state := .running, runCount := U64.saturatingAdd task.runCount 1,
        sleepUntilTick := none }
      let t := t.put index (some task)
      let report := { id := task.id, kind := task.kind, runCount := task.runCount }
      let task := { task with state := .ready, sleepUntilTick := none }
      (some report, t.put index (some task))

/-- The task is not selected before its tick. -/
def sleep (t : TaskTable) (id sleepTicks nowTicks : UInt64) : Except String UInt64 × TaskTable :=
  if sleepTicks = 0 then (.error "sleep ticks must be > 0", t)
  else
    (t.wakeDue nowTicks).2.forTask id fun task =>
      let untilTick := U64.saturatingAdd nowTicks sleepTicks
      .ok (untilTick, some { task with state := .sleeping, sleepUntilTick := some untilTick })

/-- The task is ready at once. -/
def wake (t : TaskTable) (id nowTicks : UInt64) : Except String TaskInfo × TaskTable :=
  (t.wakeDue nowTicks).2.forTask id fun task =>
    if task.state ≠ .sleeping then .error "task is not sleeping"
    else
      let task := { task with state := .ready, sleepUntilTick := none }
      .ok (task, some task)

/-- `remove`: the due sleepers are woken even when the bootstrap task is refused. -/
def remove (t : TaskTable) (id nowTicks : UInt64) : Except String TaskInfo × TaskTable :=
  let t := (t.wakeDue nowTicks).2
  if id = 1 then (.error "cannot remove bootstrap task", t)
  else t.forTask id fun task => .ok (task, none)

def setPriority (t : TaskTable) (id : UInt64) (priority : UInt8) (nowTicks : UInt64) :
    Except String TaskInfo × TaskTable :=
  (t.wakeDue nowTicks).2.forTask id fun task =>
    let task := { task with priority }
    .ok (task, some task)

/-- The counts, over all slots. -/
def snapshot (t : TaskTable) : SchedulerSnapshot :=
  { total := t.tasks.length
    ready := t.tasks.countP (·.state == .ready)
    running := t.tasks.countP (·.state == .running)
    sleeping := t.tasks.countP (·.state == .sleeping)
    finished := 0
    capacity := maxTasks
    nextId := t.nextId }

/-- `list`: the count, and the caller's array with the live tasks written to its front. -/
def list (t : TaskTable) (output : Fin maxTasks → Option TaskInfo) :
    ℕ × (Fin maxTasks → Option TaskInfo) :=
  (t.tasks.length, fun i => (t.tasks[i.val]?).or (output i))

end TaskTable

/-! ## The scheduler as a machine -/

/-- A call of the scheduler's interface; `init` is `ensure_bootstrap_task`. -/
inductive Op where
  | init
  | spawn (kind : TaskKind)
  | step (nowTicks : UInt64)
  | sleep (id sleepTicks nowTicks : UInt64)
  | wake (id nowTicks : UInt64)
  | remove (id nowTicks : UInt64)
  | setPriority (id : UInt64) (priority : UInt8) (nowTicks : UInt64)
deriving DecidableEq, Repr

/-- What the caller gets back. -/
inductive Reply where
  | done
  | id (result : Except String UInt64)
  | report (result : Option TaskStepReport)
  | task (result : Except String TaskInfo)
deriving DecidableEq, Repr

/-- The tick a call is made at, for the calls that have one. -/
def Op.tick? : Op → Option UInt64
  | .init | .spawn _ => none
  | .step now | .sleep _ _ now | .wake _ now | .remove _ now | .setPriority _ _ now => some now

/-- One call on the table. -/
def exec (t : TaskTable) : Op → Reply × TaskTable
  | .init => (.done, t.ensureBootstrapTask)
  | .spawn kind => (.id (t.spawn kind).1, (t.spawn kind).2)
  | .step now => (.report (t.step now).1, (t.step now).2)
  | .sleep id ticks now => (.id (t.sleep id ticks now).1, (t.sleep id ticks now).2)
  | .wake id now => (.task (t.wake id now).1, (t.wake id now).2)
  | .remove id now => (.task (t.remove id now).1, (t.remove id now).2)
  | .setPriority id priority now =>
    (.task (t.setPriority id priority now).1, (t.setPriority id priority now).2)

/-- The scheduler: runs are arbitrary interleavings of its calls. -/
def scheduler : Mealy TaskTable Op Reply := ⟨exec⟩

@[simp] theorem scheduler_next (t : TaskTable) (op : Op) : scheduler.next t op = exec t op := rfl

/-- The table after boot: `new` followed by `init`. -/
def bootstrapped : TaskTable := TaskTable.new.ensureBootstrapTask

/-- The ids issued by one call. -/
def issues (t : TaskTable) : Op → Option UInt64
  | .init => if t.tasks.any (·.id == 1) then none else some 1
  | .spawn kind => (t.spawn kind).1.toOption
  | _ => none

/-- The ids issued along a run, also those of tasks removed since. -/
def issued (t : TaskTable) : List Op → List UInt64
  | [] => []
  | op :: ops => (issues t op).toList ++ issued (exec t op).2 ops

end JingOS.Task
