import JingOS.Syscall.Interrupt
import Mathlib.Tactic.FinCases

/-!
# System calls through `syscall` and `sysretq`

The fast stub changes to a stack of its own, which it finds through the hidden `gs` base,
and keeps the user's stack pointer beside it.

* `fastStubSave_spec`, `fastStubRestore_spec` — the two halves of the stub;
* `fastStub_spec` — the stub around the handler;
* `fast_path_agrees` — the path as a whole, compared with `int 0x80`.
-/

namespace JingOS.Syscall

open X86 ByteMem

/-! ## The two statics and the model specific registers -/

/-- `FAST_SYSCALL_STACK_SIZE`. -/
def fastSyscallStackSize : UInt64 := 4096 * 4

/-- Where the two statics of the fast path are: they do not overlap. -/
structure FastSyscallLayout where
  /-- `FAST_SYSCALL_STACK`. -/
  stackStart : UInt64
  /-- `FAST_SYSCALL_CPU_LOCAL`: the kernel stack pointer, then the saved user one. -/
  cpuLocal : UInt64
  stack_fits : stackStart.toNat + 16384 < 2 ^ 64
  local_fits : cpuLocal.toNat + 16 < 2 ^ 64
  disjoint : cpuLocal.toNat + 16 ≤ stackStart.toNat ∨ stackStart.toNat + 16384 ≤ cpuLocal.toNat

/-- The value `program_fast_syscall_msrs` stores in `kernel_rsp`. -/
def FastSyscallLayout.kernelRsp (layout : FastSyscallLayout) : UInt64 :=
  (layout.stackStart + fastSyscallStackSize) &&& ~~~0xf

/-- The selectors of the GDT. -/
structure Selectors where
  kernelCodeSelector : UInt16
  kernelDataSelector : UInt16
  userCodeSelector : UInt16
  userDataSelector : UInt16
deriving DecidableEq

/-- The layout of selectors that `syscall` and `sysret` compute theirs by: each data selector eight
from its code selector on the right side, in the right rings. -/
def StarLayout (selectors : Selectors) : Prop :=
  (selectors.userCodeSelector.toNat : ℤ) - 16 = (selectors.userDataSelector.toNat : ℤ) - 8 ∧
    (selectors.kernelCodeSelector.toNat : ℤ) = (selectors.kernelDataSelector.toNat : ℤ) - 8 ∧
    selectors.userDataSelector &&& 3 = 3 ∧ selectors.kernelDataSelector &&& 3 = 0

instance (selectors : Selectors) : Decidable (StarLayout selectors) :=
  inferInstanceAs (Decidable (_ ∧ _ ∧ _ ∧ _))

/-- `program_fast_syscall_msrs`, with the address of the entry stub; `starAccepts` is what
`Star::write` of the crate `x86_64` says to the selectors. -/
def programFastSyscallMsrs (starAccepts : Selectors → Bool) (layout : FastSyscallLayout)
    (lstar : UInt64) (selectors : Selectors) (s : Cpu) : Except String (SyscallMsrs × Cpu) :=
  if starAccepts selectors then
    .ok ({ lstar, sfmask := interruptFlag ||| trapFlag ||| directionFlag,
           kernelCs := selectors.kernelCodeSelector.toUInt64,
           kernelSs := selectors.kernelDataSelector.toUInt64,
           userCs := selectors.userCodeSelector.toUInt64,
           userSs := selectors.userDataSelector.toUInt64 },
         { s with
           mem := setWord (setWord s.mem layout.cpuLocal layout.kernelRsp) (layout.cpuLocal + 8) 0
           kernelGsBase := layout.cpuLocal })
  else .error "STAR selector layout rejected by x86_64 crate"

/-- What the fast path relies on: the hidden `gs` base and the stack pointer stored there. -/
structure FastReady (layout : FastSyscallLayout) (s : Cpu) : Prop where
  gs : s.kernelGsBase = layout.cpuLocal
  rsp : word s.mem layout.cpuLocal = layout.kernelRsp

theorem FastReady.congr {layout : FastSyscallLayout} {s s' : Cpu} (h : FastReady layout s)
    (hmem : s'.mem = s.mem) (hgs : s'.kernelGsBase = s.kernelGsBase) : FastReady layout s' :=
  ⟨hgs.trans h.gs, by rw [hmem]; exact h.rsp⟩

/-- The stack pointer is the end of the stack, rounded down. -/
theorem FastSyscallLayout.toNat_kernelRsp (layout : FastSyscallLayout) :
    layout.stackStart.toNat + 16384 - 15 ≤ layout.kernelRsp.toNat ∧
      layout.kernelRsp.toNat ≤ layout.stackStart.toNat + 16384 ∧
      layout.kernelRsp.toNat % 16 = 0 := by
  have hfits := layout.stack_fits
  have hend : (layout.stackStart + fastSyscallStackSize).toNat =
      layout.stackStart.toNat + 16384 := by
    rw [UInt64.toNat_add, show fastSyscallStackSize.toNat = 16384 from rfl]
    omega
  rw [FastSyscallLayout.kernelRsp, toNat_and_not_fifteen, hend]
  omega

/-- The part of the stack in use does not overlap the pair of stack pointers. -/
theorem FastSyscallLayout.apart (layout : FastSyscallLayout) {x : UInt64}
    (h : within (layout.kernelRsp - 144) 144 x = true) : within layout.cpuLocal 16 x = false := by
  obtain ⟨hlow, hhigh, -⟩ := layout.toNat_kernelRsp
  have hstack := layout.stack_fits
  have hlocal := layout.local_fits
  have := x.toNat_lt
  rw [within_iff, UInt64.toNat_sub, show (144 : UInt64).toNat = 144 from rfl] at h
  rw [← Bool.not_eq_true, within_iff]
  rcases layout.disjoint with hbelow | habove
  · omega
  · omega

/-- The frame and the words above it are part of the stack in use. -/
theorem within_stack_of_frame {rsp x : UInt64} {n : ℕ} (hn : n ≤ 136)
    (h : within (rsp - 136) n x = true) : within (rsp - 144) 144 x = true := by
  have := rsp.toNat_lt
  have := x.toNat_lt
  rw [within_iff, UInt64.toNat_sub, show (136 : UInt64).toNat = 136 from rfl] at h
  rw [within_iff, UInt64.toNat_sub, show (144 : UInt64).toNat = 144 from rfl]
  omega

/-- What is outside the stack in use is outside the frame. -/
theorem outside_frame {rsp x : UInt64} {n : ℕ} (hn : n ≤ 136)
    (h : within (rsp - 144) 144 x = false) : within (rsp - 136) n x = false :=
  outside_of_within (within_stack_of_frame hn) h

/-- `program_fast_syscall_msrs` makes the fast path ready. -/
theorem programFastSyscallMsrs_ready {starAccepts : Selectors → Bool} {layout : FastSyscallLayout}
    {lstar : UInt64} {selectors : Selectors} {s s' : Cpu} {msrs : SyscallMsrs}
    (h : programFastSyscallMsrs starAccepts layout lstar selectors s = .ok (msrs, s')) :
    FastReady layout s' := by
  unfold programFastSyscallMsrs at h
  split at h
  · simp only [Except.ok.injEq, Prod.mk.injEq] at h
    obtain ⟨-, rfl⟩ := h
    exact ⟨rfl, (word_congr fun x hx => setWord_outside (outside_add_eight hx)).trans
      (word_setWord _ _ _)⟩
  · simp at h

/-! ## The stub -/

/-- `jingos_fast_syscall_entry` before its `call`. -/
def fastStubSave : List Instr :=
  [.swapgs, .storeGs 8 .rsp, .loadGs .rsp 0, .push .r11, .push .rcx] ++ savePushes ++
    [.subImm .rsp 8, .lea .rdi .rsp 8]

/-- `jingos_fast_syscall_entry` between its `call` and its `sysretq`. -/
def fastStubRestore : List Instr :=
  [.addImm .rsp 8] ++ restorePops ++
    [.mov .r10 .rcx, .pop .rcx, .pop .r11, .loadGs .rsp 8, .swapgs]

/-- Everything the stub pushes. -/
def fastPushed : List Reg := .r11 :: .rcx :: frameOrder.reverse

/-- The memory at the `call`. -/
def fastSavedMem (layout : FastSyscallLayout) (s : Cpu) : Mem :=
  pushWords (setWord s.mem (layout.cpuLocal + 8) (s.regs .rsp)) layout.kernelRsp
    (fastPushed.map s.regs)

/-- Storing the user's stack pointer leaves the kernel's alone. -/
theorem word_cpuLocal_setWord (layout : FastSyscallLayout) (m : Mem) (v : UInt64) :
    word (setWord m (layout.cpuLocal + 8) v) layout.cpuLocal = word m layout.cpuLocal :=
  word_congr fun _ hx => setWord_outside (outside_add_eight hx)

/-- The stub up to its `call`. -/
theorem fastStubSave_spec {layout : FastSyscallLayout} {s : Cpu} (h : FastReady layout s) :
    let saved := run s fastStubSave
    saved.regs .rsp = layout.kernelRsp - 144 ∧ saved.regs .rdi = layout.kernelRsp - 136 ∧
      saved.gsBase = layout.cpuLocal ∧ saved.kernelGsBase = s.gsBase ∧
      saved.mem = fastSavedMem layout s := by
  intro saved
  -- the switch of the stacks, the pushes, and the pointer to the frame
  have hpushes : fastStubSave = [.swapgs, .storeGs 8 .rsp, .loadGs .rsp 0] ++
      fastPushed.map .push ++ [.subImm .rsp 8, .lea .rdi .rsp 8] := rfl
  -- `swapgs` makes the block of the kernel the one that `gs` names
  have hentered : run s [.swapgs, .storeGs 8 .rsp, .loadGs .rsp 0] =
      { s with
        regs := Function.update s.regs .rsp layout.kernelRsp
        gsBase := layout.cpuLocal
        kernelGsBase := s.gsBase
        mem := setWord s.mem (layout.cpuLocal + 8) (s.regs .rsp) } := by
    simp only [run_cons, run_nil, Instr.exec, h.gs, UInt64.add_zero, word_cpuLocal_setWord, h.rsp]
  have hvals : fastPushed.map (Function.update s.regs .rsp layout.kernelRsp) =
      fastPushed.map s.regs := rfl
  have hsaved : saved = run (run (run s [.swapgs, .storeGs 8 .rsp, .loadGs .rsp 0])
      (fastPushed.map .push)) [.subImm .rsp 8, .lea .rdi .rsp 8] := by
    simp only [saved, hpushes, run_append]
  rw [hentered, run_push _ (by decide)] at hsaved
  simp only [hvals, Function.update_self, Function.update_idem, run_cons, run_nil,
    Instr.exec] at hsaved
  have hlen : UInt64.ofNat (8 * fastPushed.length) = 136 := rfl
  rw [hlen] at hsaved
  rw [hsaved]
  refine ⟨?_, ?_, rfl, rfl, rfl⟩
  · simp only [ne_eq, reduceCtorEq, not_false_eq_true, Function.update_of_ne, Function.update_self]
    grind
  · simp only [Function.update_self]
    grind

/-- The frame at the `call`, with the user's `rcx` and `r11` above it. -/
theorem words_fastSavedMem (layout : FastSyscallLayout) (s : Cpu) :
    words (fastSavedMem layout s) (layout.kernelRsp - 136) (15 + 2) =
      (SyscallRegisters.ofRegs s.regs).toWords ++ [s.regs .rcx, s.regs .r11] :=
  words_pushWords (setWord s.mem (layout.cpuLocal + 8) (s.regs .rsp)) (fastPushed.map s.regs)
    layout.kernelRsp (k := 0) (by simp [fastPushed, frameOrder])

/-- The stub writes to its stack and to the slot of the user's stack pointer only. -/
theorem fastSavedMem_outside {layout : FastSyscallLayout} {s : Cpu} {x : UInt64}
    (hstack : within (layout.kernelRsp - 136) 136 x = false)
    (hlocal : within (layout.cpuLocal + 8) 8 x = false) : fastSavedMem layout s x = s.mem x := by
  have hlen : (fastPushed.map s.regs).length = 17 := rfl
  rw [fastSavedMem, pushWords_outside (by simp [hlen]), setWord_outside hlocal]
  rw [hlen]
  exact hstack

/-- The stub from the return of its `call` to its `sysretq`. -/
theorem fastStubRestore_spec (s : Cpu) {f : SyscallRegisters} {rsp rcx r11 : UInt64}
    (user : UInt64)
    (hrsp : s.regs .rsp = rsp - 144)
    (hstack : words s.mem (rsp - 136) (15 + 2) = f.toWords ++ [rcx, r11])
    (huser : word s.mem (s.gsBase + 8) = user) :
    let s' := run s fastStubRestore
    (∀ r, s'.regs r = match r with
      | .rcx => rcx
      | .r11 => r11
      | .r10 => f.rcx
      | r => f.toRegs user r) ∧
    s'.gsBase = s.kernelGsBase ∧ s'.kernelGsBase = s.gsBase ∧ s'.mem = s.mem := by
  intro s'
  -- the frame, and above it the two registers that `sysretq` takes
  rw [words_append] at hstack
  obtain ⟨hlow, hhigh⟩ := List.append_inj hstack (by rw [length_words]; rfl)
  have htop : rsp - 136 + UInt64.ofNat (8 * 15) = rsp - 16 := by
    rw [show UInt64.ofNat (8 * 15) = 120 from rfl]
    grind
  rw [htop] at hhigh
  simp only [words, List.cons.injEq, and_true] at hhigh
  obtain ⟨hrcx, hr11⟩ := hhigh
  obtain ⟨freed, hfreed⟩ : ∃ freed, freed = run s [.addImm .rsp 8] := ⟨_, rfl⟩
  have hgs : freed.gsBase = s.gsBase := by rw [hfreed]; rfl
  have hkgs : freed.kernelGsBase = s.kernelGsBase := by rw [hfreed]; rfl
  have hmem : freed.mem = s.mem := by rw [hfreed]; rfl
  have hfreedRsp : freed.regs .rsp = rsp - 136 := by
    simp only [hfreed, run_cons, run_nil, Instr.exec, Function.update_self, hrsp]
    grind
  -- the registers come back from the frame, with the stack pointer above it
  have hrestored : run freed restorePops = { freed with regs := f.toRegs (rsp - 16) } := by
    have hsum : rsp - 136 + 120 = rsp - 16 := by grind
    have hread : words freed.mem (freed.regs .rsp) 15 = f.toWords := by
      rw [hfreedRsp, hmem]
      exact hlow
    rw [run_restore freed f hread, hfreedRsp, hsum]
  have hfinal : s' = run (run freed restorePops)
      [.mov .r10 .rcx, .pop .rcx, .pop .r11, .loadGs .rsp 8, .swapgs] := by
    simp only [s', fastStubRestore, run_append, hfreed]
  rw [hrestored] at hfinal
  clear hfreed
  have hrsp' : f.toRegs (rsp - 16) .rsp = rsp - 16 := rfl
  simp only [run_cons, run_nil, Instr.exec, hgs, hkgs, hmem, huser, hrsp', ne_eq, reduceCtorEq,
    not_false_eq_true, Function.update_of_ne, Function.update_self, hrcx, hr11] at hfinal
  rw [hfinal]
  refine ⟨?_, rfl, rfl, rfl⟩
  intro r
  cases r <;> simp only [ne_eq, reduceCtorEq, not_false_eq_true, Function.update_of_ne,
    Function.update_self, SyscallRegisters.toRegs]

/-! ## The whole path -/

/-- `jingos_fast_syscall_entry` up to its `sysretq`. The caller's bytes at the `call` are its
part of the stack and the pair of stack pointers; `untouched` are bytes elsewhere that the
handler has no access to. -/
def fastStub (layout : FastSyscallLayout) (untouched : UInt64 → Bool)
    (handler : SyscallRegisters → SyscallRegisters) (unknown : Unknown) (s : Cpu) : Cpu :=
  let saved := run s fastStubSave
  let keeps := fun x =>
    within (saved.regs .rsp) 144 x || within layout.cpuLocal 16 x || untouched x
  run (bridge handler unknown keeps saved) fastStubRestore

/-- The registers behind the stub: the handled frame, but the status in `r10` and `rcx`, `r11`
and the stack pointer as before. -/
def fastRegs (f : SyscallRegisters) (s : Cpu) : Reg → UInt64
  | .rcx => s.regs .rcx
  | .r11 => s.regs .r11
  | .r10 => f.rcx
  | r => f.toRegs (s.regs .rsp) r

/-- The whole stub: the way in, the handler and the way back. -/
theorem fastStub_spec {layout : FastSyscallLayout} (untouched : UInt64 → Bool)
    (handler : SyscallRegisters → SyscallRegisters) (unknown : Unknown) {s : Cpu}
    (h : FastReady layout s) :
    let s' := fastStub layout untouched handler unknown s
    s'.regs = fastRegs (handler (SyscallRegisters.ofRegs s.regs)) s ∧
      s'.gsBase = s.gsBase ∧ s'.kernelGsBase = s.kernelGsBase ∧
      word s'.mem layout.cpuLocal = layout.kernelRsp ∧
      ∀ x, untouched x = true → within (layout.kernelRsp - 144) 144 x = false →
        within layout.cpuLocal 16 x = false → s'.mem x = s.mem x := by
  intro s'
  obtain ⟨hrsp, hrdi, hgs, hkgs, hmem⟩ := fastStubSave_spec h
  have hframe := words_fastSavedMem layout s
  simp only [s', fastStub]
  generalize run s fastStubSave = saved at hrsp hrdi hgs hkgs hmem ⊢
  obtain ⟨keeps, hkeeps⟩ : ∃ keeps, keeps = fun x =>
    within (saved.regs .rsp) 144 x || within layout.cpuLocal 16 x || untouched x := ⟨_, rfl⟩
  rw [← hkeeps]
  have hkept : ∀ x, within (saved.regs .rdi) (8 * (15 + 2)) x = true → keeps x = true := by
    intro x hx
    rw [hrdi] at hx
    have hin := within_stack_of_frame (by decide) hx
    simp [hkeeps, hrsp, hin]
  have hstacked := words_bridge handler unknown keeps (n := 2) (by decide)
    (by rw [hrdi, hmem]; exact hframe) hkept
  rw [hrdi] at hstacked
  -- the pair of stack pointers is outside everything that is written after it is filled
  have hlocal : ∀ x, within layout.cpuLocal 16 x = true →
      (bridge handler unknown keeps saved).mem x =
        setWord s.mem (layout.cpuLocal + 8) (s.regs .rsp) x := by
    intro x hx
    have hstack : within (layout.kernelRsp - 144) 144 x = false := by
      rw [← Bool.not_eq_true]
      intro hin
      rw [layout.apart hin] at hx
      exact Bool.noConfusion hx
    rw [bridge_mem_outside (by rw [hrdi]; exact outside_frame (by decide) hstack)
      (by simp [hkeeps, hx]), hmem]
    exact pushWords_outside (by simp [fastPushed, frameOrder]) (outside_frame le_rfl hstack)
  have huser : word (bridge handler unknown keeps saved).mem (layout.cpuLocal + 8) =
      s.regs .rsp :=
    (word_congr fun x hx => hlocal x (within_add_eight hx)).trans (word_setWord _ _ _)
  have hkernel : word (bridge handler unknown keeps saved).mem layout.cpuLocal =
      layout.kernelRsp := by
    refine (word_congr fun x hx => hlocal x ?_).trans
      ((word_cpuLocal_setWord _ _ _).trans h.rsp)
    rw [within_iff] at hx ⊢
    omega
  have hgsKept : (bridge handler unknown keeps saved).gsBase = layout.cpuLocal := hgs
  obtain ⟨hregs, hgs', hkgs', hmem'⟩ := fastStubRestore_spec
    (bridge handler unknown keeps saved) (s.regs .rsp) hrsp hstacked
    (by rw [hgsKept]; exact huser)
  refine ⟨?_, hgs'.trans hkgs, hkgs'.trans (hgs.trans h.gs.symm), by rw [hmem', hkernel], ?_⟩
  · funext r
    rw [hregs]
    cases r <;> rfl
  · intro x hx hstack hpair
    have hslot : within (layout.cpuLocal + 8) 8 x = false :=
      outside_of_within within_add_eight hpair
    rw [hmem', bridge_mem_outside (by rw [hrdi]; exact outside_frame (by decide) hstack)
      (by simp [hkeeps, hx]), hmem]
    exact fastSavedMem_outside (outside_frame le_rfl hstack) hslot

/-- `syscall` and everything up to the instruction behind it. -/
def fastSyscall (layout : FastSyscallLayout) (untouched : UInt64 → Bool) (msrs : SyscallMsrs)
    (k : Kernel) (unknown : Unknown) (s : Cpu) : Cpu :=
  sysretq msrs (fastStub layout untouched (handleInterruptFromRegisters k) unknown
    (syscallEntry msrs s))

theorem FastReady.syscallEntry {layout : FastSyscallLayout} {s : Cpu} (h : FastReady layout s)
    (msrs : SyscallMsrs) : FastReady layout (syscallEntry msrs s) :=
  h.congr rfl rfl

/-- The state after `syscall`: the registers, the way back to user code, and the fast path
ready for the next call. -/
theorem fastSyscall_spec {layout : FastSyscallLayout} {s : Cpu} (h : FastReady layout s)
    (untouched : UInt64 → Bool) (msrs : SyscallMsrs) (k : Kernel) (unknown : Unknown) :
    let s' := fastSyscall layout untouched msrs k unknown s
    s'.regs = fastRegs (handleInterruptFromRegisters k
        (SyscallRegisters.ofRegs (X86.syscallEntry msrs s).regs)) (X86.syscallEntry msrs s) ∧
      s'.rip = s.rip ∧ s'.gsBase = s.gsBase ∧ s'.kernelGsBase = s.kernelGsBase ∧
      FastReady layout s' ∧
      ∀ x, untouched x = true → within (layout.kernelRsp - 144) 144 x = false →
        within layout.cpuLocal 16 x = false → s'.mem x = s.mem x := by
  obtain ⟨hregs, hgs, hkgs, hkernel, hmem⟩ := fastStub_spec untouched
    (handleInterruptFromRegisters k) unknown (h.syscallEntry msrs)
  simp only [fastSyscall]
  generalize fastStub layout untouched (handleInterruptFromRegisters k) unknown
    (X86.syscallEntry msrs s) = left at hregs hgs hkgs hkernel hmem ⊢
  refine ⟨hregs, ?_, hgs, hkgs, ⟨hkgs.trans h.gs, hkernel⟩, hmem⟩
  have hrcx := congrFun hregs .rcx
  exact hrcx

/-- **The two entries agree.** With the same number and arguments, `syscall` and `int 0x80`
give the same `rax`, and the status in `r10` and `rcx`. The fast path restores the other
registers, the user's stack pointer and the two `gs` bases, hands `sysretq` the return
address and the flags that `syscall` put into `rcx` and `r11`, and calls the handler with an
aligned stack. -/
theorem fast_path_agrees (layout : FastSyscallLayout) (untouched : UInt64 → Bool)
    (msrs : SyscallMsrs) (setup : InterruptSetup) (k : Kernel) (unknown unknown' : Unknown)
    (s t : Cpu) (hready : FastReady layout s)
    (hsame : ∀ r ∈ [Reg.rax, .rdi, .rsi, .rdx], t.regs r = s.regs r) :
    let entered := syscallEntry msrs s
    let left := fastStub layout untouched (handleInterruptFromRegisters k) unknown entered
    let fast := fastSyscall layout untouched msrs k unknown s
    let slow := syscallInterrupt setup k unknown' t
    (fast.regs .rax = slow.regs .rax ∧ fast.regs .r10 = slow.regs .rcx) ∧
    (∀ r ∈ [Reg.rbx, .rdx, .rsi, .rdi, .rbp, .r8, .r9, .r12, .r13, .r14, .r15, .rsp],
      fast.regs r = s.regs r) ∧
    (fast.gsBase = s.gsBase ∧ fast.kernelGsBase = s.kernelGsBase) ∧
    (left.regs .rcx = entered.regs .rcx ∧ left.regs .r11 = entered.regs .r11) ∧
    (entered.regs .rcx = s.rip ∧ entered.regs .r11 = s.rflags) ∧
    ((run entered fastStubSave).regs .rsp).toNat % 16 = 0 := by
  intro entered left fast slow
  have hentered : FastReady layout entered := hready.syscallEntry msrs
  obtain ⟨hregs, -⟩ := fastStub_spec untouched
    (handleInterruptFromRegisters k) unknown hentered
  obtain ⟨hfast, -, hgs, hkgs, -, -⟩ := fastSyscall_spec hready untouched msrs k unknown
  have hfast : fast.regs = _ := hfast
  have hslow : slow.regs = _ := syscallInterrupt_regs setup k unknown' t
  -- the result depends on the four argument registers alone
  have hframe : ∀ regs regs' : Reg → UInt64,
      (∀ r ∈ [Reg.rax, .rdi, .rsi, .rdx], regs r = regs' r) →
      encodeResult (dispatch k (regs .rax) (regs .rdi) (regs .rsi) (regs .rdx)) =
        encodeResult (dispatch k (regs' .rax) (regs' .rdi) (regs' .rsi) (regs' .rdx)) := by
    intro regs regs' h
    rw [h .rax (by simp), h .rdi (by simp), h .rsi (by simp), h .rdx (by simp)]
  have hresult := hframe s.regs t.regs fun r hr => (hsame r hr).symm
  refine ⟨⟨?_, ?_⟩, ?_, ⟨hgs, hkgs⟩, ⟨?_, ?_⟩, ⟨rfl, rfl⟩, ?_⟩
  · rw [hfast, hslow]
    exact congrArg Prod.fst hresult
  · rw [hfast, hslow]
    exact congrArg Prod.snd hresult
  · rw [hfast]
    intro r hr
    fin_cases hr <;> rfl
  · exact congrFun hregs .rcx
  · exact congrFun hregs .r11
  · obtain ⟨hrsp, -⟩ := fastStubSave_spec hentered
    obtain ⟨hlow, -, halign⟩ := layout.toNat_kernelRsp
    rw [hrsp, UInt64.toNat_sub, show (144 : UInt64).toNat = 144 from rfl]
    omega

/-- The addition 40 + 2, with the statics at 0x10000 and 0x20000 and the selectors of the
GDT. -/
theorem fast_path_agrees_add :
    let layout : FastSyscallLayout := ⟨0x10000, 0x20000, by decide, by decide, by decide⟩
    let selectors : Selectors := ⟨0x08, 0x10, 0x23, 0x1b⟩
    let k : Kernel := ⟨Interrupts.Timer.initial, none⟩
    let unknown : Unknown := ⟨fun _ => 7, 0, fun _ => 0xcc⟩
    let user : Cpu := ⟨fun r => if r = .rax then 2 else if r = .rdi then 40 else
      if r = .rsi then 2 else 5, 0x4000, 0x202, 0x23, 0x1b, 0, 0, fun _ => 0⟩
    ∃ msrs s, programFastSyscallMsrs (fun selectors => decide (StarLayout selectors)) layout 0x9000
        selectors user = .ok (msrs, s) ∧
      (fastSyscall layout (fun _ => false) msrs k unknown s).regs .rax =
        (syscallInterrupt ⟨0x8000, 0x08, 0x9100⟩ k unknown s).regs .rax := by
  intro layout selectors k unknown user
  obtain ⟨msrs, s, hprogram⟩ : ∃ msrs s,
      programFastSyscallMsrs (fun selectors => decide (StarLayout selectors)) layout 0x9000
        selectors user = .ok (msrs, s) :=
    ⟨_, _, if_pos (by decide)⟩
  refine ⟨msrs, s, hprogram, ?_⟩
  exact (fast_path_agrees layout (fun _ => false) msrs ⟨0x8000, 0x08, 0x9100⟩ k unknown unknown s s
    (programFastSyscallMsrs_ready hprogram) (fun _ _ => rfl)).1.1

end JingOS.Syscall
