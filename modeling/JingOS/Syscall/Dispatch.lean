import JingOS.Interrupts.Timer
import JingOS.Memory.Map

/-!
# System calls (`kernel/src/syscall.rs`)

`dispatch` reads three globals of the kernel: the tick counter, the rate of the PIT and the
memory summary. The register frame carries a call in and its encoded result out; both entry
stubs hand such a frame to `handleInterruptFromRegisters`.
-/

namespace JingOS.Syscall

open JingOS.Interrupts JingOS.Memory

/-- The globals that `dispatch` reads. -/
structure Kernel where
  timer : Timer
  memorySummary : Option MemorySummary
deriving DecidableEq

/-- `SYSCALL_INTERRUPT_VECTOR`. -/
def syscallInterruptVector : UInt8 := 0x80

/-- `SYSCALL_GET_TICKS`. -/
def syscallGetTicks : UInt64 := 0

/-- `SYSCALL_GET_UPTIME_SECONDS`. -/
def syscallGetUptimeSeconds : UInt64 := 1

/-- `SYSCALL_ADD`. -/
def syscallAdd : UInt64 := 2

/-- `SYSCALL_GET_USABLE_MEMORY`. -/
def syscallGetUsableMemory : UInt64 := 3

/-- `SYSCALL_GET_USABLE_FRAMES`. -/
def syscallGetUsableFrames : UInt64 := 4

/-- `SYSCALL_STATUS_OK`. -/
def syscallStatusOk : UInt64 := 0

/-- `SYSCALL_STATUS_UNKNOWN_NUMBER`. -/
def syscallStatusUnknownNumber : UInt64 := 1

/-- `SYSCALL_STATUS_OVERFLOW`. -/
def syscallStatusOverflow : UInt64 := 2

/-- `SYSCALL_STATUS_CONTEXT_UNAVAILABLE`. -/
def syscallStatusContextUnavailable : UInt64 := 3

/-- Why a call fails. -/
inductive SyscallError where
  | unknownNumber (number : UInt64)
  | overflow
  | contextUnavailable
deriving DecidableEq, Repr

/-- The call by its number. -/
def dispatch (k : Kernel) (number arg0 arg1 _arg2 : UInt64) : Except SyscallError UInt64 :=
  if number = syscallGetTicks then .ok k.timer.ticks
  else if number = syscallGetUptimeSeconds then .ok k.timer.uptimeSeconds
  else if number = syscallAdd then
    match U64.checkedAdd arg0 arg1 with
    | some sum => .ok sum
    | none => .error .overflow
  else if number = syscallGetUsableMemory then
    match k.memorySummary with
    | none => .error .contextUnavailable
    | some summary => .ok summary.usableBytes
  else if number = syscallGetUsableFrames then
    match k.memorySummary with
    | none => .error .contextUnavailable
    | some summary => .ok summary.usableFrames4k
  else .error (.unknownNumber number)

/-- `encode_error`: the value and the status of an error. -/
def encodeError : SyscallError → UInt64 × UInt64
  | .unknownNumber number => (number, syscallStatusUnknownNumber)
  | .overflow => (0, syscallStatusOverflow)
  | .contextUnavailable => (0, syscallStatusContextUnavailable)

/-- A status and a value, read as a result. -/
def decodeResponse (status value : UInt64) : Except SyscallError UInt64 :=
  if status = syscallStatusOk then .ok value
  else if status = syscallStatusUnknownNumber then .error (.unknownNumber value)
  else if status = syscallStatusOverflow then .error .overflow
  else if status = syscallStatusContextUnavailable then .error .contextUnavailable
  else .error .contextUnavailable

/-- The `repr(C)` frame, in field order. -/
structure SyscallRegisters where
  rax : UInt64
  rbx : UInt64
  rcx : UInt64
  rdx : UInt64
  rsi : UInt64
  rdi : UInt64
  rbp : UInt64
  r8 : UInt64
  r9 : UInt64
  r10 : UInt64
  r11 : UInt64
  r12 : UInt64
  r13 : UInt64
  r14 : UInt64
  r15 : UInt64
deriving DecidableEq, Repr

/-- The value and the status that a result is encoded as. -/
def encodeResult : Except SyscallError UInt64 → UInt64 × UInt64
  | .ok value => (value, syscallStatusOk)
  | .error error => encodeError error

/-- `handle_interrupt_from_registers`. -/
def handleInterruptFromRegisters (k : Kernel) (registers : SyscallRegisters) : SyscallRegisters :=
  let result := encodeResult
    (dispatch k registers.rax registers.rdi registers.rsi registers.rdx)
  { registers with rax := result.1, rcx := result.2 }

/-- Decoding undoes the encoding, for every result, the payload included. -/
theorem decodeResponse_encodeResult (result : Except SyscallError UInt64) :
    decodeResponse (encodeResult result).2 (encodeResult result).1 = result := by
  cases result with
  | ok value => rfl
  | error error => cases error <;> rfl

end JingOS.Syscall
