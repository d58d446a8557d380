import JingOS.Syscall.Interrupt

/-!
# Ring-3 sessions (`kernel/src/usermode.rs`)

The three globals of a session and the handler of `int 0x81`, which ends it. The stub in
front of the handler is the one of `int 0x80`; when a session is open, the handler does not
return to it but resumes the monitor.
-/

namespace JingOS.Usermode

open X86 ByteMem JingOS.Syscall

/-- `USERMODE_EXIT_INTERRUPT_VECTOR`. -/
def usermodeExitInterruptVector : UInt8 := 0x81

/-- Which of the two demos. -/
inductive FastSyscallDemoKind where
  | successPath
  | errorPath
deriving DecidableEq, Repr

/-- The values and the statuses of the two calls. -/
structure FastSyscallDemoReport where
  kind : FastSyscallDemoKind
  call0Value : UInt64
  call0Status : UInt64
  call1Value : UInt64
  call1Status : UInt64
deriving DecidableEq, Repr

/-- The globals of a session. -/
structure Session where
  /-- `USERMODE_EXIT_EXPECTED`. -/
  exitExpected : Bool
  /-- `PENDING_FAST_SYSCALL_KIND`. -/
  pendingKind : Option FastSyscallDemoKind
  /-- `LAST_FAST_SYSCALL_REPORT`. -/
  lastReport : Option FastSyscallDemoReport
deriving DecidableEq, Repr

/-- What becomes of an `int 0x81`. -/
inductive Exit where
  /-- "ignored unexpected int 0x81 (no usermode session)" is printed and the stub returns. -/
  | ignored
  /-- `resume_monitor_after_usermode_exit`. -/
  | resumed
deriving DecidableEq, Repr

/-- `handle_exit_interrupt_from_registers`. -/
def handleExitInterruptFromRegisters (session : Session) (registers : SyscallRegisters) :
    Exit × Session :=
  if !session.exitExpected then (.ignored, session)
  else
    (.resumed,
     { exitExpected := false
       pendingKind := none
       lastReport := session.pendingKind.map fun kind =>
         { kind, call0Value := registers.r8, call0Status := registers.r9,
           call1Value := registers.r10, call1Status := registers.r12 } })

/-- `int 0x81`: the processor, the stub up to its `call`, and the handler on the frame. -/
def exitInterrupt (setup : InterruptSetup) (session : Session) (s : Cpu) : Exit × Session :=
  let saved := run (interruptEntry setup.rsp0 setup.kernelCs setup.handler s) interruptStubSave
  handleExitInterruptFromRegisters session (readFrame saved.mem (saved.regs .rdi))

/-- The frame that the handler sees holds the registers at the `int 0x81`. -/
theorem exitInterrupt_eq (setup : InterruptSetup) (session : Session) (s : Cpu) :
    exitInterrupt setup session s =
      handleExitInterruptFromRegisters session (SyscallRegisters.ofRegs s.regs) := by
  obtain ⟨hrdi, hframe⟩ := interruptStubSave_spec
    (interruptEntry setup.rsp0 setup.kernelCs setup.handler s) (k := 0) (by decide)
  rw [words, List.append_nil] at hframe
  have hread : readFrame _ _ = SyscallRegisters.ofRegs s.regs :=
    toWords_injective ((toWords_readFrame _ _).trans hframe)
  simp only [exitInterrupt, hrdi, hread]

end JingOS.Usermode
