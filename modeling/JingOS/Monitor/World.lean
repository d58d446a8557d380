import JingOS.Framebuffer.Writer
import JingOS.Lib.Hoare
import JingOS.Memory.Paging
import JingOS.Monitor.History
import JingOS.Task.Table
import JingOS.Usermode.Code

/-!
# What the monitor's commands work on

The globals of the kernel and the variables of `input_loop` that a command reads or writes are
one state, `World`; what boot has fixed is a `Boot`. A command is a program over the state
that may stop: by a panic, by going to ring 3 (which does not return), or by a fault.

Timer and keyboard interrupts arrive while a command runs. `World.arrivals` is how many, from
one look at the counters to the next; nothing is assumed about it.
-/

namespace JingOS.Monitor

open Checked Hoare
open JingOS.Framebuffer JingOS.Interrupts JingOS.Memory JingOS.Syscall JingOS.Task JingOS.Usermode

/-! ## The state -/

/-- `SchedulerAutoMode`. -/
structure SchedulerAutoMode where
  enabled : Bool
  intervalTicks : UInt64
  nextRunTick : UInt64
deriving DecidableEq, Repr

namespace SchedulerAutoMode

/-- `DEFAULT_INTERVAL_TICKS`. -/
def defaultIntervalTicks : UInt64 := 100

def new (nowTick : UInt64) : SchedulerAutoMode :=
  { enabled := false, intervalTicks := defaultIntervalTicks, nextRunTick := nowTick }

/-- The first run is one interval away. -/
def enable (intervalTicks nowTick : UInt64) : SchedulerAutoMode :=
  { enabled := true, intervalTicks, nextRunTick := U64.saturatingAdd nowTick intervalTicks }

def disable (auto : SchedulerAutoMode) : SchedulerAutoMode := { auto with enabled := false }

end SchedulerAutoMode

/-- `UserModeContext`. -/
structure UserModeContext where
  entry : UInt64
  stackTop : UInt64
deriving DecidableEq, Repr

/-- `FastSyscallStage`. -/
inductive FastSyscallStage where
  | uninitialized
  | unsupportedCpu
  | scaffolded
  | msrProgrammedNoSce
  | sceEnabledExperimental
deriving DecidableEq, Repr

/-- `FastSyscallSelectorPlan`. -/
structure FastSyscallSelectorPlan where
  kernelCs : UInt16
  kernelSs : UInt16
  userCs : UInt16
  userSs : UInt16
deriving DecidableEq, Repr

/-- `FastSyscallStatus`. -/
structure FastSyscallStatus where
  stage : FastSyscallStage
  cpuSupport : Bool
  sceEnabled : Bool
  selectors : Option FastSyscallSelectorPlan
  lstar : Option UInt64
  kernelGsBase : Option UInt64
  note : String
deriving DecidableEq, Repr

/-- The interrupts between two looks at the counters. -/
structure Burst where
  timer : ℕ
  keyboard : ℕ
  dropped : ℕ
deriving DecidableEq, Repr

/-- All state that the monitor and its commands work on. -/
structure World where
  kernel : Kernel
  /-- `KEYBOARD_IRQS`. -/
  keyboardIrqs : UInt64
  /-- `SCANCODE_BUFFER.dropped`. -/
  dropped : UInt64
  /-- `TASK_TABLE`. -/
  tasks : TaskTable
  autoScheduler : SchedulerAutoMode
  history : CommandHistory
  /-- `USER_MODE_CONTEXT`. -/
  userModeContext : Option UserModeContext
  session : Session
  /-- The memory that ring 3 sees. -/
  userMem : ByteMem.Mem
  /-- `FAST_SYSCALL_STATUS`. -/
  fastSyscallStatus : FastSyscallStatus
  /-- `framebuffer::WRITER`. -/
  writer : Option FrameBufferWriter
  /-- What has been sent to the serial port. -/
  serial : String
  /-- The interrupts to come. -/
  arrivals : ℕ → Burst

/-- What boot has fixed: the arguments `input_loop` passes to every command, and the parts of
the machine that commands only read. -/
structure Boot where
  memoryRegions : List MemoryRegion
  memorySummary : MemorySummary
  physicalMemoryOffset : Option UInt64
  paging : Paging
  font : Font
  /-- Can the allocator serve a request of so many bytes while the given blocks are live? -/
  allocates : List ℕ → ℕ → Bool
  /-- `&parts as *const _ as u64`. -/
  stackPointer : UInt64
  /-- `execute_command as *const () as usize as u64`. -/
  codePointer : UInt64
  /-- Can the eight bytes at the address be read? -/
  readable : UInt64 → Bool

/-- Why a command does not return. -/
inductive Stop where
  | panic (panic : Panic)
  /-- `enter_user_mode`. -/
  | ring3 (context : UserModeContext)
  /-- A read that the processor refuses. -/
  | fault (address : UInt64)
deriving DecidableEq, Repr

abbrev MonitorM := EStateM Stop World

/-- A checked computation of a command. -/
def checked {α : Type} (x : Checked α) : MonitorM α := lift Stop.panic x

/-! ## Clock, console, allocator -/

/-- The interrupts before the next look have been handled. -/
def World.interrupted (w : World) : World :=
  { w with
    kernel := { w.kernel with timer := { w.kernel.timer with
      ticks := w.kernel.timer.ticks + UInt64.ofNat (w.arrivals 0).timer } }
    keyboardIrqs := w.keyboardIrqs + UInt64.ofNat (w.arrivals 0).keyboard
    dropped := w.dropped + UInt64.ofNat (w.arrivals 0).dropped
    arrivals := fun n => w.arrivals (n + 1) }

/-- `interrupts::ticks`. -/
def ticks : MonitorM UInt64 := do
  modify World.interrupted
  let w ← get
  pure w.kernel.timer.ticks

/-- `interrupts::pit_hz`. -/
def pitHz : MonitorM PitRate := do
  let w ← get
  pure w.kernel.timer.pitHz

/-- `interrupts::set_pit_hz`. -/
def setPitHz (requestedHz : UInt32) : MonitorM UInt32 :=
  modifyGet fun w =>
    ((w.kernel.timer.setPitHz requestedHz).1,
     { w with kernel := { w.kernel with timer := (w.kernel.timer.setPitHz requestedHz).2 } })

/-- `interrupts::keyboard_counters`. -/
def keyboardCounters : MonitorM (UInt64 × UInt64) := do
  modify World.interrupted
  let w ← get
  pure (w.keyboardIrqs, w.dropped)

/-- `framebuffer::_print`. -/
def print (boot : Boot) (text : String) : MonitorM Unit := do
  let w ← get
  match w.writer with
  | none => pure ()
  | some writer =>
    let writer ← checked (writer.writeStr boot.font text)
    modify fun w => { w with writer := some writer }

/-- `console_println!` with arguments that look at the state: the macro evaluates them once for
the serial port and once more for the framebuffer. -/
def consolePrintlnWith (boot : Boot) (text : MonitorM String) : MonitorM Unit := do
  let line ← text
  modify fun w => { w with serial := w.serial ++ line ++ "\n" }
  let line ← text
  print boot (line ++ "\n")

/-- `console_print!`. -/
def consolePrint (boot : Boot) (text : String) : MonitorM Unit := do
  modify fun w => { w with serial := w.serial ++ text }
  print boot text

/-- `console_println!`. -/
def consolePrintln (boot : Boot) (text : String) : MonitorM Unit :=
  consolePrintlnWith boot (pure text)

/-- `framebuffer::clear`. -/
def clearScreen : MonitorM Unit := modify fun w => { w with writer := w.writer.map (·.clear) }

/-- `alloc`; a failure ends in `alloc_error_handler`. -/
def allocate (boot : Boot) (live : List ℕ) (size : ℕ) : Checked Unit :=
  if boot.allocates live size then pure ()
  else .error ⟨s!"allocation error: Layout \x7b size: {size}, align: 8 (1 << 3) \x7d"⟩

/-- `heap::probe_allocations`: a box, and a vector that grows to 16 elements through the
capacities 4, 8 and 16. Everything is freed at the end. -/
def probeAllocations (boot : Boot) : Checked (UInt64 × UInt64) := do
  allocate boot [] 8
  -- growing takes the new block before the old one is freed
  allocate boot [8] 32
  allocate boot [8, 32] 64
  allocate boot [8, 64] 128
  pure (0xA1B2C3D4E5F61234, ((List.range 16).map fun i => UInt64.ofNat (i + 1)).sum)

/-! ## The scheduler's interface -/

/-- A call of the scheduler under its lock. -/
def withTasks {α : Type} (call : TaskTable → α × TaskTable) : MonitorM α :=
  modifyGet fun w => ((call w.tasks).1, { w with tasks := (call w.tasks).2 })

/-- `task::step`. The sum that the second loop forms is the one operation of it that could
overflow; `maxTasks - 1` is the largest offset. -/
def taskStep (nowTicks : UInt64) : MonitorM (Option TaskStepReport) := do
  let w ← get
  let _ ← checked (add w.tasks.nextRrIndex (maxTasks - 1))
  withTasks (·.step nowTicks)

/-- The loop of `list`: every task is stored at the next place of the caller's array. -/
def listLoop (output : List (Option TaskInfo)) (count : ℕ) :
    List TaskInfo → Checked (ℕ × List (Option TaskInfo))
  | [] => pure (count, output)
  | task :: rest => do
    let output ← store output count (some task)
    let count ← add count 1
    listLoop output count rest

def taskKindName : TaskKind → String
  | .kernelMonitor => "kernel_monitor"
  | .userDemo => "user_demo"
  | .fastSyscallSuccess => "fast_syscall_success"
  | .fastSyscallError => "fast_syscall_error"

def taskStateName : TaskState → String
  | .ready => "ready"
  | .running => "running"
  | .sleeping => "sleeping"

/-- The names of a kind, with its short forms. -/
def parseTaskKind (text : String) : Option TaskKind :=
  match text with
  | "monitor" | "kernel" | "kernel_monitor" => some .kernelMonitor
  | "userdemo" | "user" | "user_demo" => some .userDemo
  | "fastsyscall" | "fast" | "fast_ok" | "fastsyscall_ok" | "fast_syscall_success" =>
    some .fastSyscallSuccess
  | "fastfail" | "fastsyscall_fail" | "fast_syscall_error" | "fast_error" => some .fastSyscallError
  | _ => none

/-! ## System calls and ring 3 -/

def syscallName (number : UInt64) : String :=
  if number = syscallGetTicks then "get_ticks"
  else if number = syscallGetUptimeSeconds then "get_uptime_seconds"
  else if number = syscallAdd then "add"
  else if number = syscallGetUsableMemory then "get_usable_memory"
  else if number = syscallGetUsableFrames then "get_usable_frames"
  else "unknown"

def errorName : SyscallError → String
  | .unknownNumber _ => "unknown syscall number"
  | .overflow => "arithmetic overflow"
  | .contextUnavailable => "syscall context unavailable"

def abiModeName : String := "interrupt-register-v2"

def abiModeDetails : String :=
  "int 0x80 + rax(number), rdi/rsi/rdx(args), rax(return), rcx(status)"

def fastAbiModeDetails : String :=
  "syscall/sysret + rax(number), rdi/rsi/rdx(args), rax(return), r10(status)"

def fastSyscallStageName : FastSyscallStage → String
  | .uninitialized => "uninitialized"
  | .unsupportedCpu => "unsupported-cpu"
  | .scaffolded => "scaffolded-not-enabled"
  | .msrProgrammedNoSce => "msr-programmed-no-sce"
  | .sceEnabledExperimental => "sce-enabled-experimental"

/-- `syscall::invoke_via_interrupt`: value and status come back in two registers. -/
def invokeViaInterrupt (number arg0 arg1 arg2 : UInt64) :
    MonitorM (Except SyscallError UInt64) := do
  modify World.interrupted
  let w ← get
  let result := encodeResult (dispatch w.kernel number arg0 arg1 arg2)
  pure (decodeResponse result.2 result.1)

/-- `UserDemoReport`. -/
structure UserDemoReport where
  ticks : UInt64
  uptimeSeconds : UInt64
  sum : UInt64
  usableBytes : UInt64
  usableFrames : UInt64
deriving DecidableEq, Repr

/-- `run_user_demo`. -/
def runUserDemo : ExceptT SyscallError MonitorM UserDemoReport := do
  let ticks ← ExceptT.mk (invokeViaInterrupt syscallGetTicks 0 0 0)
  let uptimeSeconds ← ExceptT.mk (invokeViaInterrupt syscallGetUptimeSeconds 0 0 0)
  let sum ← ExceptT.mk (invokeViaInterrupt syscallAdd 40 2 0)
  let usableBytes ← ExceptT.mk (invokeViaInterrupt syscallGetUsableMemory 0 0 0)
  let usableFrames ← ExceptT.mk (invokeViaInterrupt syscallGetUsableFrames 0 0 0)
  pure { ticks, uptimeSeconds, sum, usableBytes, usableFrames }

/-- `USER_STACK_START`. -/
def userStackStart : UInt64 := 0x666600008000

/-- `USER_STACK_TOP`. -/
def userStackTop : UInt64 := userStackStart + 0x2000

/-- `USER_INT_DEMO_CODE`. -/
def userIntDemoCode : List UInt8 :=
  [0xB8, 0x00, 0x00, 0x00, 0x00, 0xCD, 0x80, 0xCD, 0x81, 0xEB, 0xFE]

/-- `run_demo_code`: when the user memory is there, the session starts and control leaves. -/
def runDemoCode (code : List UInt8) (fastSyscallKind : Option FastSyscallDemoKind) :
    MonitorM (Except String Unit) := do
  let w ← get
  match w.userModeContext with
  | none => pure (.error "user mode memory not initialized")
  | some context =>
    -- the old report is dropped before the session has produced a new one
    modify fun w => { w with
      session := { exitExpected := true, pendingKind := fastSyscallKind, lastReport := none }
      userMem := writeDemoCode w.userMem code }
    throw (.ring3 context)

/-- `usermode::run_demo`. -/
def runDemo : MonitorM (Except String Unit) := runDemoCode userIntDemoCode none

/-- The body that `run_fast_syscall_demo` and `run_fast_syscall_error_demo` share. -/
def runBuiltCode (code : Except String UserCodeBuilder) (kind : FastSyscallDemoKind) :
    MonitorM (Except String Unit) :=
  match code with
  | .error error => pure (.error error)
  | .ok builder => runDemoCode builder.code (some kind)

def runFastSyscallDemo : MonitorM (Except String Unit) :=
  runBuiltCode buildFastSyscallSuccessCode .successPath

def runFastSyscallErrorDemo : MonitorM (Except String Unit) :=
  runBuiltCode buildFastSyscallErrorCode .errorPath

end JingOS.Monitor
