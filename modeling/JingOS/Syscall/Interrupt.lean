import JingOS.Syscall.Stub

/-!
# System calls through `int 0x80`

* `interruptStub_spec` — the stub restores the handled frame and what the processor pushed;
* `interrupt_path_transparent` — the path as a whole.
-/

namespace JingOS.Syscall

open X86 ByteMem

/-- `jingos_syscall_interrupt_entry` and `jingos_usermode_exit_interrupt_entry` before their
`call`. -/
def interruptStubSave : List Instr := savePushes ++ [.mov .rdi .rsp]

/-- Where `int` finds the ring-0 stack and the handler. -/
structure InterruptSetup where
  rsp0 : UInt64
  kernelCs : UInt64
  handler : UInt64

/-- The stub of an interrupt, from its first instruction through `iretq`. The caller's part
of the stack at the `call` is the frame and the five words that the processor pushed. -/
def interruptStub (handler : SyscallRegisters → SyscallRegisters) (unknown : Unknown)
    (s : Cpu) : Cpu :=
  let saved := run s interruptStubSave
  let handled := bridge handler unknown (within (saved.regs .rsp) (8 * (15 + 5))) saved
  iretq (run handled restorePops)

/-- `int 0x80` and everything up to the instruction behind it. -/
def syscallInterrupt (setup : InterruptSetup) (k : Kernel) (unknown : Unknown) (s : Cpu) : Cpu :=
  interruptStub (handleInterruptFromRegisters k) unknown
    (interruptEntry setup.rsp0 setup.kernelCs setup.handler s)

/-- At the `call` the frame lies on top of the stack, and `rdi` points to it. -/
theorem interruptStubSave_spec (s : Cpu) {k : ℕ} (hk : 8 * (k + 15) ≤ 2 ^ 64) :
    let saved := run s interruptStubSave
    saved.regs .rdi = saved.regs .rsp ∧
      words saved.mem (saved.regs .rsp) (15 + k) =
        (SyscallRegisters.ofRegs s.regs).toWords ++ words s.mem (s.regs .rsp) k := by
  intro saved
  have hsaved : saved = { run s savePushes with
      regs := Function.update (run s savePushes).regs .rdi ((run s savePushes).regs .rsp) } := by
    simp only [saved, interruptStubSave, run_append, run_cons, run_nil, Instr.exec]
  have hrsp : (run s savePushes).regs .rsp = s.regs .rsp - 120 := by
    simp only [run_save, Function.update_self]
  rw [hsaved]
  refine ⟨by simp, ?_⟩
  simp only [ne_eq, reduceCtorEq, not_false_eq_true, Function.update_of_ne, hrsp]
  exact words_save s hk

/-- The stub restores the handled frame and what the processor pushed. -/
theorem interruptStub_spec (handler : SyscallRegisters → SyscallRegisters) (unknown : Unknown)
    {s : Cpu} {rip cs rflags rsp ss : UInt64}
    (hcpu : words s.mem (s.regs .rsp) 5 = [rip, cs, rflags, rsp, ss]) :
    let s' := interruptStub handler unknown s
    s'.regs = (handler (SyscallRegisters.ofRegs s.regs)).toRegs rsp ∧
      s'.rip = rip ∧ s'.cs = cs ∧ s'.rflags = rflags ∧ s'.ss = ss := by
  intro s'
  -- the frame is what was saved, below the five words of the processor
  obtain ⟨hrdi, hframe⟩ := interruptStubSave_spec s (k := 5) (by decide)
  rw [hcpu] at hframe
  simp only [s', interruptStub]
  generalize run s interruptStubSave = saved at hrdi hframe ⊢
  have hhandled := words_bridge handler unknown (within (saved.regs .rsp) (8 * (15 + 5)))
    (s := saved) (n := 5) (by decide) (by rw [hrdi]; exact hframe)
    (by rw [hrdi]; exact fun x hx => hx)
  have hrsp : (bridge handler unknown (within (saved.regs .rsp) (8 * (15 + 5))) saved).regs .rsp =
      saved.regs .rdi := hrdi.symm
  rw [← hrsp, words_append] at hhandled
  generalize bridge handler unknown (within (saved.regs .rsp) (8 * (15 + 5))) saved = handled
    at hhandled ⊢
  -- the handler has changed the frame, and nothing above it
  obtain ⟨hlow, hhigh⟩ := List.append_inj hhandled (by rw [length_words]; rfl)
  rw [show UInt64.ofNat (8 * 15) = 120 from rfl] at hhigh
  rw [run_restore handled _ hlow]
  generalize handler (SyscallRegisters.ofRegs s.regs) = f at *
  have hret := iretq_eq (s := { handled with regs := f.toRegs (handled.regs .rsp + 120) }) hhigh
  rw [hret]
  refine ⟨?_, rfl, rfl, rfl, rfl⟩
  funext r
  cases r <;> rfl

/-- `invoke_via_interrupt`: the `asm!` block loads four registers, executes `int 0x80` and
reads `rax` and `rcx`; the other registers are whatever they are. -/
def invokeViaInterrupt (setup : InterruptSetup) (k : Kernel) (unknown : Unknown) (s : Cpu)
    (number arg0 arg1 arg2 : UInt64) : Except SyscallError UInt64 :=
  let called := run s [.movImm .rax number, .movImm .rdi arg0, .movImm .rsi arg1, .movImm .rdx arg2]
  let returned := syscallInterrupt setup k unknown called
  decodeResponse (returned.regs .rcx) (returned.regs .rax)

/-- The registers after `int 0x80`: the handled frame of the registers before it. -/
theorem syscallInterrupt_regs (setup : InterruptSetup) (k : Kernel) (unknown : Unknown) (s : Cpu) :
    (syscallInterrupt setup k unknown s).regs =
      (handleInterruptFromRegisters k (SyscallRegisters.ofRegs s.regs)).toRegs (s.regs .rsp) :=
  (interruptStub_spec _ _ (words_interruptEntry setup.rsp0 setup.kernelCs setup.handler s)).1

/-- **The `int 0x80` path is transparent.** Whatever the registers and the kernel's globals
are, and whatever the compiled handler leaves behind: every register but `rax` and `rcx`, the
stack pointer among them, has its value again, these two decode to the result of `dispatch`,
and so does `invoke_via_interrupt`. -/
theorem interrupt_path_transparent (setup : InterruptSetup) (k : Kernel) (unknown : Unknown)
    (s : Cpu) :
    let s' := syscallInterrupt setup k unknown s
    (∀ r, r ≠ .rax → r ≠ .rcx → s'.regs r = s.regs r) ∧
    (s'.rip = s.rip ∧ s'.rflags = s.rflags ∧ s'.cs = s.cs ∧ s'.ss = s.ss) ∧
    decodeResponse (s'.regs .rcx) (s'.regs .rax) =
      dispatch k (s.regs .rax) (s.regs .rdi) (s.regs .rsi) (s.regs .rdx) ∧
    ∀ number arg0 arg1 arg2, invokeViaInterrupt setup k unknown s number arg0 arg1 arg2 =
      dispatch k number arg0 arg1 arg2 := by
  intro s'
  have hdecode : ∀ s : Cpu, decodeResponse ((syscallInterrupt setup k unknown s).regs .rcx)
      ((syscallInterrupt setup k unknown s).regs .rax) =
      dispatch k (s.regs .rax) (s.regs .rdi) (s.regs .rsi) (s.regs .rdx) := by
    intro s
    rw [syscallInterrupt_regs]
    exact decodeResponse_encodeResult _
  refine ⟨?_, ?_, hdecode s, ?_⟩
  · intro r hrax hrcx
    simp only [s', syscallInterrupt_regs]
    cases r <;> first | rfl | contradiction
  · obtain ⟨-, hrip, hcs, hrflags, hss⟩ := interruptStub_spec
      (handleInterruptFromRegisters k) unknown
      (words_interruptEntry setup.rsp0 setup.kernelCs setup.handler s)
    exact ⟨hrip, hrflags, hcs, hss⟩
  · intro number arg0 arg1 arg2
    exact hdecode (run s [.movImm .rax number, .movImm .rdi arg0, .movImm .rsi arg1,
      .movImm .rdx arg2])

end JingOS.Syscall
