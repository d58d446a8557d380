import JingOS.Lib.Text
import JingOS.Monitor.World

/-!
# The monitor's commands (`kernel/src/main.rs`)

`execute_command`, with one definition for each command word. A command word is followed by
its arguments; `return false` in the middle of a command is the end of its definition here, and
`execute_command` itself returns whether the monitor is to be left.
-/

namespace JingOS.Monitor

open Checked Text
open JingOS.Memory JingOS.Syscall JingOS.Task JingOS.Usermode

/-- `parse_u64`. -/
def parseU64 (text : String) : Option UInt64 :=
  match (stripStart text "0x").or (stripStart text "0X") with
  | some hex => fromStrRadix hex 16
  | none => fromStrRadix text 10

variable (boot : Boot)

/-! ## Status and time -/

/-- All commands, as `help` lists them. -/
def helpText : String :=
  "commands: help, status, ticks, uptime, timerhz [hz], irq, mem, maps [n|all], heap, vm [addr], " ++
  "vmmap [addr], fault [addr], syscall <n> [a0] [a1] [a2], sysabi, tasks, " ++
  "tasknew [userdemo|monitor|fastsyscall|fastsyscall_fail], taskstep, taskrun [n], " ++
  "tasksleep <id> [ticks], taskwake <id>, taskrm <id>, taskprio <id> <priority>, " ++
  "taskauto [on [ticks]|off], userdemo, usermode, usermode_syscall, usermode_syscall_fail, " ++
  "echo, history, clear, exit"

/-- Ticks, counters and the offset of physical memory, in one line. -/
def statusCommand : MonitorM Unit := do
  let (keyboardIrqs, dropped) ← keyboardCounters
  let offset := debugOption boot.physicalMemoryOffset
  consolePrintlnWith boot do
    let ticks ← ticks
    pure s!"ticks={ticks} keyboard_irqs={keyboardIrqs} dropped={dropped} phys_offset={offset}"

def ticksCommand : MonitorM Unit :=
  consolePrintlnWith boot do
    let ticks ← ticks
    pure s!"ticks={ticks}"

/-- The uptime in seconds and hundredths. -/
def uptimeCommand : MonitorM Unit := do
  let ticks ← ticks
  let rate ← pitHz
  -- three divisions by the rate, and a product that a large rate would overflow
  let hz := rate.hz.toNat
  let seconds ← checked (div ticks.toNat hz)
  let rest ← checked (rem ticks.toNat hz)
  let scaled ← checked (mul rest 100)
  let centiseconds ← checked (div scaled hz)
  let shown := padLeft 2 '0' (toString centiseconds)
  consolePrintln boot s!"uptime={seconds}s.{shown} (ticks={ticks}, hz={hz})"

/-- The rate is shown, or set. -/
def timerhzCommand (args : List String) : MonitorM Unit :=
  match args with
  | [] =>
    consolePrintlnWith boot do
      let rate ← pitHz
      pure s!"timerhz: current_hz={rate.hz}"
  | rawHz :: _ =>
    match parseU64 rawHz with
    | none => consolePrintln boot s!"timerhz usage: timerhz [hz] (got: {rawHz})"
    | some requestedHzRaw => do
      let oldHz ← pitHz
      -- `as u32` after the minimum: a larger number is not wrapped around
      let newHz ← setPitHz (min requestedHzRaw 0xffffffff).toUInt32
      consolePrintln boot s!"timerhz: old_hz={oldHz.hz} new_hz={newHz}"

def irqCommand : MonitorM Unit := do
  let (keyboardIrqs, dropped) ← keyboardCounters
  consolePrintln boot s!"keyboard_irqs={keyboardIrqs}, dropped_scancodes={dropped}"

/-! ## Memory -/

def memCommand : MonitorM Unit :=
  let s := boot.memorySummary
  consolePrintln boot (s!"regions={s.totalRegions} usable_regions={s.usableRegions} " ++
    s!"usable_bytes={s.usableBytes} reserved_bytes={s.reservedBytes} " ++
    s!"largest_usable={s.largestUsableRegionBytes} usable_frames_4k={s.usableFrames4k}")

/-- The line of a region. -/
def regionLine (index : ℕ) (region : MemoryRegion) : String :=
  let first := hexPadded region.start.toNat 14
  let last := hexPadded region.«end».toNat 14
  let size := hexPadded region.size.toNat 10
  s!"{dec index 3}: [{first}..{last}) size={size} kind={memoryRegionKindName region.kind}"

/-- The loop of `maps`: how many regions have been shown. -/
def mapsLoop (limit : Option ℕ) (index shown : ℕ) : List MemoryRegion → MonitorM ℕ
  | [] => pure shown
  | region :: rest =>
    -- the limit is looked at before a region is shown, so `maps 0` shows none
    if limit.any (shown ≥ ·) then pure shown
    else do
      consolePrintln boot (regionLine index region)
      let shown ← checked (add shown 1)
      mapsLoop limit (index + 1) shown rest

/-- `maps` with its limit; `none` shows all regions. -/
def printMaps (limit : Option ℕ) : MonitorM Unit := do
  let s := boot.memorySummary
  consolePrintln boot (s!"memory map: total_regions={s.totalRegions} " ++
    s!"(usable={s.usableRegions} reserved_bytes={s.reservedBytes})")
  let shown ← mapsLoop boot limit 0 0 boot.memoryRegions
  if shown < boot.memoryRegions.length then
    let more ← checked (sub boot.memoryRegions.length shown)
    consolePrintln boot s!"... {more} more regions (use `maps all`)"
  else pure ()

/-- The first 12 regions, as many as asked for, or all. -/
def mapsCommand (args : List String) : MonitorM Unit :=
  match args with
  | [] => printMaps boot (some 12)
  | raw :: _ =>
    if raw = "all" then printMaps boot none
    else
      match parseU64 raw with
      | none => consolePrintln boot s!"invalid maps limit: {raw}"
      | some parsed => printMaps boot (some parsed.toNat)

/-- Allocates a box and a vector, and prints what they hold. -/
def heapCommand : MonitorM Unit := do
  let (boxedValue, vectorSum) ← checked (probeAllocations boot)
  consolePrintln boot s!"heap_probe: box={hex boxedValue.toNat}, vec_sum={vectorSum}"

/-- `DEMO_PAGE_START`. -/
def demoPageStart : UInt64 := 0x555555550000

/-- `HEAP_START`. -/
def heapStart : UInt64 := 0x444444440000

/-- `address & !0xfff`. -/
def pageOf (address : UInt64) : UInt64 := address &&& 0xfffffffffffff000

/-- The mappings that `vm` and `vmmap` show without an argument. -/
def importantMappings : List (UInt64 × String) :=
  [(demoPageStart, "demo_page"), (heapStart, "heap_start"), (heapStart + 4096, "heap_next_page"),
   (pageOf boot.stackPointer, "stack_probe_page"), (pageOf boot.codePointer, "code_probe_page")]

/-- One line of `vm`. -/
def printVmTranslation (offset virtualAddress : UInt64) (label : String) : MonitorM Unit := do
  let physical ← checked (translateVirtualAddress boot.paging offset virtualAddress)
  let virt := hex virtualAddress.toNat
  match physical with
  | some physicalAddress =>
    consolePrintln boot s!"vm[{label}]: virt={virt} -> phys={hex physicalAddress.toNat}"
  | none => consolePrintln boot s!"vm[{label}]: virt={virt} is unmapped"

/-- One line of `vmmap`. -/
def printVmWalk (offset virtualAddress : UInt64) (label : String) : MonitorM Unit := do
  let walk ← checked (walkVirtualAddress boot.paging offset virtualAddress)
  let virt := hex walk.virtualAddress.toNat
  let off := hexPadded walk.pageOffset 5
  consolePrintln boot (s!"vmmap[{label}]: virt={virt} canonical={walk.canonical} " ++
    s!"idx(p4/p3/p2/p1)=({walk.p4Index}/{walk.p3Index}/{walk.p2Index}/{walk.p1Index}) off={off}")
  let p4 := hex walk.p4FlagsBits.toNat
  let p3 := hex walk.p3FlagsBits.toNat
  let p2 := hex walk.p2FlagsBits.toNat
  let p1 := hex walk.p1FlagsBits.toNat
  consolePrintln boot s!"  flags: p4={p4} p3={p3} p2={p2} p1={p1}"
  -- the walk sets both or neither
  match walk.physicalAddress, walk.pageSize with
  | some physical, some pageSize =>
    consolePrintln boot s!"  map: phys={hex physical.toNat} page_size={vmPageSizeName pageSize}"
  | _, _ => consolePrintln boot "  map: unmapped"

/-- Where the important mappings go, or the address that is given. -/
def vmCommand (args : List String) : MonitorM Unit :=
  match boot.physicalMemoryOffset with
  | none => consolePrintln boot "physical memory mapping not enabled"
  | some offset =>
    match args with
    | rawAddr :: _ =>
      match parseU64 rawAddr with
      | none => consolePrintln boot s!"invalid address: {rawAddr}"
      | some virtualAddress => do
        -- any number goes to the translation, canonical or not
        let physical ← checked (translateVirtualAddress boot.paging offset virtualAddress)
        let virt := hex virtualAddress.toNat
        match physical with
        | some physicalAddress =>
          consolePrintln boot s!"vm: virt={virt} -> phys={hex physicalAddress.toNat}"
        | none => consolePrintln boot s!"vm: virt={virt} is unmapped"
    | [] => do
      consolePrintln boot "vm usage: vm <addr>  (no args shows important mappings)"
      (importantMappings boot).forM fun mapping => printVmTranslation boot offset mapping.1 mapping.2

/-- The walk for the same addresses. -/
def vmmapCommand (args : List String) : MonitorM Unit :=
  match boot.physicalMemoryOffset with
  | none => consolePrintln boot "physical memory mapping not enabled"
  | some offset =>
    match args with
    | rawAddr :: _ =>
      match parseU64 rawAddr with
      | none => consolePrintln boot s!"invalid address: {rawAddr}"
      | some virtualAddress => printVmWalk boot offset virtualAddress "target"
    | [] => do
      consolePrintln boot "vmmap usage: vmmap <addr>  (no args shows important mappings)"
      (importantMappings boot).forM fun mapping => printVmWalk boot offset mapping.1 mapping.2

/-- The end of `fault`: a volatile read of 8 bytes. A debug build of `core` checks the pointer first,
and panics at a null or misaligned one; this is the read itself, which is all that a release build
does. -/
def faultAt (faultAddress : UInt64) : MonitorM Unit := do
  consolePrintln boot s!"triggering page fault by reading {hex faultAddress.toNat}..."
  -- a mapped address can be read, and then nothing happens
  if boot.readable faultAddress then pure () else throw (.fault faultAddress)

/-- Reads from the address, `0xDEADBEEF` if none is given. -/
def faultCommand (args : List String) : MonitorM Unit :=
  match args with
  | [] => faultAt boot 0xDEADBEEF
  | text :: _ =>
    match parseU64 text with
    | none => consolePrintln boot s!"invalid fault address: {text}"
    | some address => faultAt boot address

/-! ## System calls -/

/-- An optional numeric argument, 0 when it is missing; `inl` is the text that is no number. -/
def optionalArgument : Option String → String ⊕ UInt64
  | none => .inr 0
  | some text =>
    match parseU64 text with
    | none => .inl text
    | some value => .inr value

/-- A system call by its number, with up to three arguments. -/
def syscallCommand (args : List String) : MonitorM Unit :=
  match args with
  | [] => consolePrintln boot "usage: syscall <number> [arg0] [arg1] [arg2]"
  | numberText :: rest =>
    match parseU64 numberText with
    | none => consolePrintln boot s!"invalid syscall number: {numberText}"
    | some number =>
      -- the first argument that is no number is the one that is reported
      match optionalArgument rest[0]?, optionalArgument rest[1]?, optionalArgument rest[2]? with
      | .inl text, _, _ => consolePrintln boot s!"invalid arg0: {text}"
      | _, .inl text, _ => consolePrintln boot s!"invalid arg1: {text}"
      | _, _, .inl text => consolePrintln boot s!"invalid arg2: {text}"
      | .inr arg0, .inr arg1, .inr arg2 => do
        let result ← invokeViaInterrupt number arg0 arg1 arg2
        match result with
        | .ok value =>
          let call := s!"{syscallName number}({arg0}, {arg1}, {arg2})"
          consolePrintln boot s!"syscall {call} -> {hex value.toNat}"
        | .error error => consolePrintln boot s!"syscall error: {errorName error}"

def sysabiCommand : MonitorM Unit := do
  consolePrintln boot (s!"syscall ABI mode: {abiModeName} " ++
    s!"(vector={syscallInterruptVector}, implementation={abiModeDetails})")
  consolePrintln boot s!"fast syscall ABI: {fastAbiModeDetails}"
  let w ← get
  let fast := w.fastSyscallStatus
  consolePrintln boot (s!"fast syscall scaffold: stage={fastSyscallStageName fast.stage} " ++
    s!"cpu_support={fast.cpuSupport} sce_enabled={fast.sceEnabled} note={fast.note}")
  fast.selectors.toList.forM fun plan => consolePrintln boot
    (s!"fast syscall selector plan: kernel_cs={hex plan.kernelCs.toNat} " ++
     s!"kernel_ss={hex plan.kernelSs.toNat} user_cs={hex plan.userCs.toNat} " ++
     s!"user_ss={hex plan.userSs.toNat}")
  fast.lstar.toList.forM fun lstar =>
    consolePrintln boot s!"fast syscall lstar plan: {hex lstar.toNat}"
  fast.kernelGsBase.toList.forM fun kernelGsBase =>
    consolePrintln boot s!"fast syscall kernel_gs_base: {hex kernelGsBase.toNat}"

/-! ## Tasks -/

/-- The line of a task. -/
def taskLine (entry : TaskInfo) : String :=
  let line := s!"  task id={entry.id} kind={taskKindName entry.kind} " ++
    s!"state={taskStateName entry.state} runs={entry.runCount} priority={entry.priority}"
  match entry.sleepUntilTick with
  | some untilTick => line ++ s!" sleep_until_tick={untilTick}"
  | none => line

/-- The counts of the scheduler, and a line for each task. -/
def tasksCommand : MonitorM Unit := do
  let w ← get
  let s := w.tasks.snapshot
  consolePrintln boot (s!"scheduler: total={s.total} ready={s.ready} running={s.running} " ++
    s!"sleeping={s.sleeping} finished={s.finished} capacity={s.capacity} next_id={s.nextId}")
  -- a second call under the lock, into an array of the command's own
  let (count, entries) ← checked (listLoop (List.replicate maxTasks none) 0 w.tasks.tasks)
  if count = 0 then consolePrintln boot "scheduler table is empty"
  else ((entries.take count).filterMap id).forM fun entry => consolePrintln boot (taskLine entry)

/-- A new task of the kind that is named. -/
def tasknewCommand (args : List String) : MonitorM Unit :=
  let kindText := args.head?.getD "userdemo"
  match parseTaskKind kindText with
  | none =>
    consolePrintln boot ("tasknew usage: tasknew [userdemo|monitor|fastsyscall|fastsyscall_fail] " ++
      s!"(got: {kindText})")
  | some kind => do
    let result ← withTasks (·.spawn kind)
    match result with
    | .ok id => consolePrintln boot s!"task created: id={id} kind={taskKindName kind}"
    | .error error => consolePrintln boot s!"tasknew failed: {error}"

/-- The end of a command that goes to ring 3: only an error comes back from there. -/
def reportRing3 (result : Except String Unit) (unexpected failed : String) : MonitorM Unit :=
  match result with
  | .ok () => consolePrintln boot unexpected
  | .error error => consolePrintln boot s!"{failed}: {error}"

/-- `run_task_payload`. -/
def runTaskPayload : TaskKind → MonitorM Unit
  | .userDemo => do
    let result ← runUserDemo.run
    match result with
    | .ok r =>
      consolePrintln boot (s!"  user_demo result: ticks={r.ticks} uptime={r.uptimeSeconds}s " ++
        s!"sum={r.sum} usable_bytes={r.usableBytes} usable_frames={r.usableFrames}")
    | .error error => consolePrintln boot s!"  user_demo task failed: {errorName error}"
  | .fastSyscallSuccess => do
    consolePrintln boot "  fast_syscall_success task: entering ring3 success-path syscall demo"
    let result ← runFastSyscallDemo
    reportRing3 boot result "  fast_syscall_success returned unexpectedly"
      "  fast_syscall_success task failed"
  | .fastSyscallError => do
    consolePrintln boot "  fast_syscall_error task: entering ring3 error-path syscall demo"
    let result ← runFastSyscallErrorDemo
    reportRing3 boot result "  fast_syscall_error returned unexpectedly"
      "  fast_syscall_error task failed"
  | .kernelMonitor => pure ()

/-- `run_task_step_with_label_internal`. -/
def runTaskStepWithLabelInternal (label : String) (printNoReady : Bool) : MonitorM Bool := do
  let now ← ticks
  let report ← taskStep now
  match report with
  | some r =>
    consolePrintln boot (s!"{label}: ran id={r.id} kind={taskKindName r.kind} runs={r.runCount} " ++
      "(state reset to ready)")
    runTaskPayload boot r.kind
    pure true
  | none =>
    if printNoReady then
      consolePrintln boot s!"{label}: no ready task"
      pure false
    else pure false

/-- `run_task_step_with_label`. -/
def runTaskStepWithLabel (label : String) : MonitorM Bool :=
  runTaskStepWithLabelInternal boot label true

def taskstepCommand : MonitorM Unit := do
  let _ ← runTaskStepWithLabel boot "taskstep"
  pure ()

/-- `DEFAULT_TASKRUN_STEPS`. -/
def defaultTaskrunSteps : UInt64 := 4

/-- `MAX_TASKRUN_STEPS`. -/
def maxTaskrunSteps : UInt64 := 256

/-- The loop of `taskrun`: how many steps have run a task. -/
def taskrunLoop : ℕ → UInt64 → MonitorM UInt64
  | 0, executed => pure executed
  | left + 1, executed => do
    let ran ← runTaskStepWithLabel boot "taskrun"
    -- an idle scheduler ends the batch
    if ran then taskrunLoop left (U64.saturatingAdd executed 1) else pure executed

/-- `taskrun` with its number of steps. -/
def taskrun (stepsRequested : UInt64) : MonitorM Unit := do
  let executed ← taskrunLoop boot stepsRequested.toNat 0
  consolePrintln boot s!"taskrun: requested={stepsRequested} executed={executed}"

/-- Several steps of the scheduler, four if no number is given. -/
def taskrunCommand (args : List String) : MonitorM Unit :=
  match args with
  | [] => taskrun boot defaultTaskrunSteps
  | rawSteps :: _ =>
    match parseU64 rawSteps with
    | none => consolePrintln boot s!"taskrun usage: taskrun [steps] (got: {rawSteps})"
    | some parsed =>
      if parsed = 0 then consolePrintln boot "taskrun steps must be > 0"
      else taskrun boot (min parsed maxTaskrunSteps)

/-- `DEFAULT_TASKSLEEP_TICKS`. -/
def defaultTasksleepTicks : UInt64 := 100

/-- `tasksleep` with its arguments. -/
def tasksleep (taskId sleepTicks : UInt64) : MonitorM Unit := do
  let now ← ticks
  let result ← withTasks (·.sleep taskId sleepTicks now)
  match result with
  | .ok untilTick =>
    consolePrintln boot (s!"tasksleep: id={taskId} sleep_ticks={sleepTicks} now_tick={now} " ++
      s!"until_tick={untilTick}")
  | .error error => consolePrintln boot s!"tasksleep failed: {error}"

/-- A task sleeps for as many ticks as given. -/
def tasksleepCommand (args : List String) : MonitorM Unit :=
  let usage := "tasksleep usage: tasksleep <id> [ticks]"
  match args with
  | [] => consolePrintln boot usage
  | rawTaskId :: rest =>
    match parseU64 rawTaskId with
    | none => consolePrintln boot s!"{usage} (got id={rawTaskId})"
    | some taskId =>
      match rest with
      | [] => tasksleep boot taskId defaultTasksleepTicks
      | rawTicks :: _ =>
        match parseU64 rawTicks with
        | none => consolePrintln boot s!"{usage} (got ticks={rawTicks})"
        | some parsed =>
          if parsed = 0 then consolePrintln boot "tasksleep ticks must be > 0"
          else tasksleep boot taskId parsed

/-- `taskwake` and `taskrm`: one id, one call of the scheduler at the current tick, and a line
about the task it returns. -/
def taskCommand (name done : String)
    (call : UInt64 → UInt64 → TaskTable → Except String TaskInfo × TaskTable)
    (args : List String) : MonitorM Unit :=
  match args with
  | [] => consolePrintln boot s!"{name} usage: {name} <id>"
  | rawTaskId :: _ =>
    match parseU64 rawTaskId with
    | none => consolePrintln boot s!"{name} usage: {name} <id> (got id={rawTaskId})"
    | some taskId => do
      let now ← ticks
      let result ← withTasks (call taskId now)
      match result with
      | .ok info =>
        consolePrintln boot (s!"{done} id={info.id} kind={taskKindName info.kind} " ++
          s!"state={taskStateName info.state} runs={info.runCount}")
      | .error error => consolePrintln boot s!"{name} failed: {error}"

def taskwakeCommand (args : List String) : MonitorM Unit :=
  taskCommand boot "taskwake" "taskwake:" (fun id now t => t.wake id now) args

def taskrmCommand (args : List String) : MonitorM Unit :=
  taskCommand boot "taskrm" "taskrm: removed" (fun id now t => t.remove id now) args

/-- A task gets another priority. -/
def taskprioCommand (args : List String) : MonitorM Unit :=
  let usage := "taskprio usage: taskprio <id> <priority>"
  match args with
  | [] => consolePrintln boot usage
  | rawTaskId :: rest =>
    match parseU64 rawTaskId with
    | none => consolePrintln boot s!"{usage} (got id={rawTaskId})"
    | some taskId =>
      match rest with
      | [] => consolePrintln boot usage
      | rawPriority :: _ =>
        match parseU64 rawPriority with
        | none => consolePrintln boot s!"{usage} (got priority={rawPriority})"
        | some priorityRaw => do
          -- `u8::MAX` stands for everything above it
          let priority := (min priorityRaw 255).toUInt8
          let now ← ticks
          let result ← withTasks (·.setPriority taskId priority now)
          match result with
          | .ok info =>
            consolePrintln boot (s!"taskprio: id={info.id} priority={info.priority} " ++
              s!"kind={taskKindName info.kind} state={taskStateName info.state}")
          | .error error => consolePrintln boot s!"taskprio failed: {error}"

/-- `taskauto on` with its interval. -/
def taskautoOn (intervalTicks now : UInt64) : MonitorM Unit := do
  let auto := SchedulerAutoMode.enable intervalTicks now
  modify fun w => { w with autoScheduler := auto }
  consolePrintln boot (s!"taskauto: enabled interval_ticks={auto.intervalTicks} " ++
    s!"next_run_tick={auto.nextRunTick} now_tick={now}")

/-- The automatic scheduler is shown, switched on or off. -/
def taskautoCommand (args : List String) : MonitorM Unit := do
  let now ← ticks
  let w ← get
  let auto := w.autoScheduler
  match args with
  | [] =>
    consolePrintln boot (s!"taskauto: enabled={auto.enabled} interval_ticks={auto.intervalTicks} " ++
      s!"next_run_tick={auto.nextRunTick} now_tick={now}")
  | mode :: rest =>
    if mode = "off" then
      modify fun w => { w with autoScheduler := w.autoScheduler.disable }
      consolePrintln boot "taskauto: disabled"
    else if mode = "on" then
      match rest with
      | [] => taskautoOn boot SchedulerAutoMode.defaultIntervalTicks now
      | rawInterval :: _ =>
        match parseU64 rawInterval with
        | none =>
          consolePrintln boot s!"taskauto usage: taskauto [on [ticks]|off] (got ticks={rawInterval})"
        | some parsed =>
          if parsed = 0 then consolePrintln boot "taskauto ticks must be > 0"
          else taskautoOn boot parsed now
    else consolePrintln boot s!"taskauto usage: taskauto [on [ticks]|off] (got: {mode})"

/-! ## Ring 3 and the rest -/

/-- The demo that does not leave ring 0. -/
def userdemoCommand : MonitorM Unit := do
  let result ← runUserDemo.run
  match result with
  | .ok r =>
    consolePrintln boot (s!"userdemo: ticks={r.ticks} uptime={r.uptimeSeconds}s sum={r.sum} " ++
      s!"usable_bytes={r.usableBytes} usable_frames={r.usableFrames}")
  | .error error => consolePrintln boot s!"userdemo failed: {errorName error}"

/-- Leaves for ring 3, with the code of the `int 0x80` demo. -/
def usermodeCommand : MonitorM Unit := do
  consolePrintln boot "launching ring3 demo (expects int 0x80 then int 0x81 return)..."
  let result ← runDemo
  reportRing3 boot result "usermode returned unexpectedly" "usermode failed"

/-- Leaves for ring 3, with calls that succeed. -/
def usermodeSyscallCommand : MonitorM Unit := do
  consolePrintln boot ("launching ring3 fast-syscall demo " ++
    "(success path: rax(value)/r10(status), then int 0x81 return)...")
  let result ← runFastSyscallDemo
  reportRing3 boot result "usermode_syscall returned unexpectedly" "usermode_syscall failed"

/-- Leaves for ring 3, with calls that fail. -/
def usermodeSyscallFailCommand : MonitorM Unit := do
  consolePrintln boot ("launching ring3 fast-syscall demo " ++
    "(error path: unknown/overflow statuses), then int 0x81 return...")
  let result ← runFastSyscallErrorDemo
  reportRing3 boot result "usermode_syscall_fail returned unexpectedly"
    "usermode_syscall_fail failed"

/-- What is behind the word, without the white space in front. -/
def echoCommand (commandLine : String) : MonitorM Unit :=
  consolePrintln boot (trimStart ((stripStart commandLine "echo").getD ""))

/-- The body of the loop of `print_oldest_first`. -/
def printEntry (history : CommandHistory) (index : ℕ) : MonitorM Unit := do
  -- `self.len - 1 - index`
  let newest ← checked (sub history.len 1)
  let age ← checked (sub newest index)
  let entry ← checked (history.entryByAge age)
  match entry with
  | none => pure ()
  | some entry =>
    let text ← checked entry.asStr
    consolePrintln boot s!"{dec (index + 1) 2}: {text}"

/-- `print_oldest_first`. -/
def historyCommand : MonitorM Unit := do
  let w ← get
  if w.history.len = 0 then consolePrintln boot "history is empty"
  else (List.range w.history.len).forM fun index => printEntry boot w.history index

def clearCommand : MonitorM Unit := do
  clearScreen
  consolePrintln boot "screen cleared"

/-- The commands that are not `exit`: everything but the result of `execute_command`. -/
def runCommand (commandLine command : String) (args : List String) : MonitorM Unit :=
  match command with
  | "help" => consolePrintln boot helpText
  | "status" => statusCommand boot
  | "ticks" => ticksCommand boot
  | "uptime" => uptimeCommand boot
  | "timerhz" => timerhzCommand boot args
  | "irq" => irqCommand boot
  | "mem" => memCommand boot
  | "maps" => mapsCommand boot args
  | "heap" => heapCommand boot
  | "vm" => vmCommand boot args
  | "vmmap" => vmmapCommand boot args
  | "fault" => faultCommand boot args
  | "syscall" => syscallCommand boot args
  | "sysabi" => sysabiCommand boot
  | "tasks" => tasksCommand boot
  | "tasknew" => tasknewCommand boot args
  | "taskstep" => taskstepCommand boot
  | "taskrun" => taskrunCommand boot args
  | "tasksleep" => tasksleepCommand boot args
  | "taskwake" => taskwakeCommand boot args
  | "taskrm" => taskrmCommand boot args
  | "taskprio" => taskprioCommand boot args
  | "taskauto" => taskautoCommand boot args
  | "userdemo" => userdemoCommand boot
  | "usermode" => usermodeCommand boot
  | "usermode_syscall" => usermodeSyscallCommand boot
  | "usermode_syscall_fail" => usermodeSyscallFailCommand boot
  | "echo" => echoCommand boot commandLine
  | "history" => historyCommand boot
  | "clear" => clearCommand boot
  | _ => consolePrintln boot s!"unknown command: {command}"

/-- `execute_command`: is the monitor to be left? The line is one of the input, which takes printable
ASCII characters only, so that the white space of ASCII is all that can divide it. -/
def executeCommand (commandLine : String) : MonitorM Bool :=
  match splitWhitespace commandLine with
  | [] => pure false
  | command :: args =>
    -- the one arm that does not return `false`
    if command = "exit" ∨ command = "quit" then pure true
    else do
      runCommand boot commandLine command args
      pure false

/-! ## Around the commands -/

/-- `FastSyscallDemoReport::kind_name`. -/
def kindName (report : FastSyscallDemoReport) : String :=
  match report.kind with
  | .successPath => "success-path"
  | .errorPath => "error-path"

/-- `FastSyscallDemoReport::expected_summary`. -/
def expectedSummary (report : FastSyscallDemoReport) : String :=
  match report.kind with
  | .successPath => "call0 status=0; call1 value=42 status=0 (SYSCALL_ADD 40+2)"
  | .errorPath =>
    "call0 value=0xffff_ff00 status=1 (unknown syscall); call1 value=0 status=2 (overflow)"

/-- `FastSyscallDemoReport::passed`. -/
def passed (report : FastSyscallDemoReport) : Bool :=
  match report.kind with
  | .successPath => report.call0Status == syscallStatusOk && report.call1Value == 42 &&
      report.call1Status == syscallStatusOk
  | .errorPath => report.call0Value == userFastSyscallUnknownNumber.toUInt64 &&
      report.call0Status == syscallStatusUnknownNumber && report.call1Value == 0 &&
      report.call1Status == syscallStatusOverflow

/-- The line about the report of a session. -/
def reportLine (report : FastSyscallDemoReport) (verdict : String) : String :=
  s!"fast-syscall report ({kindName report}): {verdict} call0={report.call0Value} " ++
    s!"(status={report.call0Status}) call1={report.call1Value} (status={report.call1Status})"

/-- The beginning of `input_loop`: its variables, and the first prompt. -/
def startInputLoop : MonitorM Unit := do
  let startTicks ← ticks
  -- a loop entered again after a session starts from scratch
  modify fun w => { w with
    history := CommandHistory.new, autoScheduler := SchedulerAutoMode.new startTicks }
  consolePrintln boot ""
  consolePrintln boot "[[JINGOS_MONITOR_READY]]"
  consolePrintln boot "jingos monitor ready. type 'help' for commands."
  consolePrint boot "jingos> "

/-- What `resume_monitor_after_usermode_exit` prints of the report that it takes. -/
def printReport : Option FastSyscallDemoReport → MonitorM Unit
  | none => pure ()
  | some report =>
    if passed report then consolePrintln boot (reportLine report "ok")
    else do
      consolePrintln boot (reportLine report "unexpected")
      consolePrintln boot s!"fast-syscall expected: {expectedSummary report}"

/-- `resume_monitor_after_usermode_exit`; the monitor's context was set at boot. -/
def resumeMonitorAfterUsermodeExit : MonitorM Unit := do
  consolePrintln boot "returned from ring3 via int 0x81; resuming monitor"
  let w ← get
  -- `take_last_fast_syscall_report`
  set { w with session := { w.session with lastReport := none } }
  printReport boot w.session.lastReport
  startInputLoop boot

/-- The `int 0x81` at the end of a session: `handle_exit_interrupt_from_registers`, and the
monitor again when a session was open. -/
def exitSession (registers : SyscallRegisters) : MonitorM Unit := do
  let w ← get
  let (exit, session) := handleExitInterruptFromRegisters w.session registers
  set { w with session }
  match exit with
  | .ignored => modify fun w => { w with
      serial := w.serial ++ "ignored unexpected int 0x81 (no usermode session)\n" }
  | .resumed => resumeMonitorAfterUsermodeExit boot

/-- `SchedulerAutoMode::maybe_run`. -/
def maybeRun (nowTick : UInt64) : MonitorM Unit := do
  let w ← get
  let auto := w.autoScheduler
  if !auto.enabled || nowTick < auto.nextRunTick then pure ()
  else do
    let nextRunTick := U64.saturatingAdd nowTick auto.intervalTicks
    -- the next run is set before the step, which may leave for ring 3
    set { w with autoScheduler := { auto with nextRunTick } }
    let _ ← runTaskStepWithLabelInternal boot "taskauto" false
    pure ()

end JingOS.Monitor
