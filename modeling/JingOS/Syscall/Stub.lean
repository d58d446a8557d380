import JingOS.Lib.X86
import JingOS.Syscall.Dispatch

/-!
# The assembly stubs (`kernel/src/interrupts.rs`)

The three stubs, instruction by instruction, around the call of a Rust function that works
on the register frame. The compiled function is known through its ABI only: the registers it
need not save, the flags and every byte that is not the caller's are unknown after it
(`X86.Unknown`), and the frame holds what the Rust function computes.

* `run_save`, `run_restore` — the pushes build the `repr(C)` frame and the pops take it apart;
* `words_bridge` — the call changes the frame and nothing above it.
-/

namespace JingOS.Syscall

open X86 ByteMem

/-! ## The frame in memory -/

/-- The registers in the order of the fields of `SyscallRegisters`. -/
def frameOrder : List Reg :=
  [.rax, .rbx, .rcx, .rdx, .rsi, .rdi, .rbp, .r8, .r9, .r10, .r11, .r12, .r13, .r14, .r15]

namespace SyscallRegisters

/-- The fields in memory order. -/
def toWords (f : SyscallRegisters) : List UInt64 :=
  [f.rax, f.rbx, f.rcx, f.rdx, f.rsi, f.rdi, f.rbp, f.r8, f.r9, f.r10, f.r11, f.r12, f.r13, f.r14,
   f.r15]

/-- The frame that saves these registers. -/
def ofRegs (regs : Reg → UInt64) : SyscallRegisters :=
  { rax := regs .rax, rbx := regs .rbx, rcx := regs .rcx, rdx := regs .rdx, rsi := regs .rsi,
    rdi := regs .rdi, rbp := regs .rbp, r8 := regs .r8, r9 := regs .r9, r10 := regs .r10,
    r11 := regs .r11, r12 := regs .r12, r13 := regs .r13, r14 := regs .r14, r15 := regs .r15 }

/-- The registers restored from a frame, with the stack pointer beside it. -/
def toRegs (f : SyscallRegisters) (rsp : UInt64) : Reg → UInt64
  | .rax => f.rax | .rbx => f.rbx | .rcx => f.rcx | .rdx => f.rdx | .rsi => f.rsi | .rdi => f.rdi
  | .rbp => f.rbp | .rsp => rsp | .r8 => f.r8 | .r9 => f.r9 | .r10 => f.r10 | .r11 => f.r11
  | .r12 => f.r12 | .r13 => f.r13 | .r14 => f.r14 | .r15 => f.r15

end SyscallRegisters

/-- The frame at an address: one field every eight bytes. -/
def readFrame (m : Mem) (a : UInt64) : SyscallRegisters :=
  { rax := word m a, rbx := word m (a + 8), rcx := word m (a + 16), rdx := word m (a + 24),
    rsi := word m (a + 32), rdi := word m (a + 40), rbp := word m (a + 48), r8 := word m (a + 56),
    r9 := word m (a + 64), r10 := word m (a + 72), r11 := word m (a + 80), r12 := word m (a + 88),
    r13 := word m (a + 96), r14 := word m (a + 104), r15 := word m (a + 112) }

/-- A frame in memory, word by word. -/
def writeFrame (m : Mem) (a : UInt64) (f : SyscallRegisters) : Mem := setWords m a f.toWords

theorem toWords_readFrame (m : Mem) (a : UInt64) : (readFrame m a).toWords = words m a 15 := by
  have h : ∀ x y : UInt64, a + x + y = a + (x + y) := fun x y => UInt64.add_assoc a x y
  simp only [words, readFrame, SyscallRegisters.toWords, h, UInt64.reduceAdd]

theorem toWords_injective {f g : SyscallRegisters} (h : f.toWords = g.toWords) : f = g := by
  simp only [SyscallRegisters.toWords, List.cons.injEq, and_true] at h
  cases f
  cases g
  simpa using h

/-! ## The stubs -/

/-- The fifteen pushes that all stubs share. -/
def savePushes : List Instr :=
  [.push .r15, .push .r14, .push .r13, .push .r12, .push .r11, .push .r10, .push .r9, .push .r8,
   .push .rbp, .push .rdi, .push .rsi, .push .rdx, .push .rcx, .push .rbx, .push .rax]

/-- The fifteen pops that all stubs share. -/
def restorePops : List Instr :=
  [.pop .rax, .pop .rbx, .pop .rcx, .pop .rdx, .pop .rsi, .pop .rdi, .pop .rbp, .pop .r8, .pop .r9,
   .pop .r10, .pop .r11, .pop .r12, .pop .r13, .pop .r14, .pop .r15]

/-- A bridge function: `handler` works on the frame that `rdi` points to. -/
def bridge (handler : SyscallRegisters → SyscallRegisters) (unknown : Unknown)
    (keeps : UInt64 → Bool) (s : Cpu) : Cpu :=
  let after := sysVCall unknown keeps s
  { after with
    mem := writeFrame after.mem (s.regs .rdi) (handler (readFrame s.mem (s.regs .rdi))) }

/-! ## Saving and restoring -/

theorem frameOrder_map (regs : Reg → UInt64) :
    frameOrder.map regs = (SyscallRegisters.ofRegs regs).toWords := rfl

/-- The pushes build the frame on top of what is on the stack. -/
theorem run_save (s : Cpu) :
    run s savePushes =
      { s with
        regs := Function.update s.regs .rsp (s.regs .rsp - 120)
        mem := pushWords s.mem (s.regs .rsp) (frameOrder.reverse.map s.regs) } :=
  run_push frameOrder.reverse (by decide) s

/-- The pushes of the stub are the frame. -/
theorem words_save (s : Cpu) {k : ℕ} (hk : 8 * (k + 15) ≤ 2 ^ 64) :
    words (run s savePushes).mem (s.regs .rsp - 120) (15 + k) =
      (SyscallRegisters.ofRegs s.regs).toWords ++ words s.mem (s.regs .rsp) k := by
  rw [run_save]
  have h := words_pushWords s.mem (frameOrder.reverse.map s.regs) (s.regs .rsp) (k := k)
    (by simpa [frameOrder] using hk)
  rw [List.map_reverse, List.reverse_reverse, frameOrder_map] at h
  exact h

/-- The pops take the frame apart. -/
theorem run_restore (s : Cpu) (f : SyscallRegisters)
    (h : words s.mem (s.regs .rsp) 15 = f.toWords) :
    run s restorePops = { s with regs := f.toRegs (s.regs .rsp + 120) } := by
  have hpop := run_pop frameOrder (by decide) s
  have hlen : frameOrder.length = 15 := rfl
  rw [hlen, h] at hpop
  refine Eq.trans hpop ?_
  congr 1
  funext r
  cases r <;> rfl

/-- The bridge: the frame is handled, the words above it stay. -/
theorem words_bridge (handler : SyscallRegisters → SyscallRegisters) (unknown : Unknown)
    (keeps : UInt64 → Bool) {s : Cpu} {f : SyscallRegisters} {rest : List UInt64} {n : ℕ}
    (hn : 8 * (15 + n) ≤ 2 ^ 64) (hframe : words s.mem (s.regs .rdi) (15 + n) = f.toWords ++ rest)
    (hkeeps : ∀ x, within (s.regs .rdi) (8 * (15 + n)) x = true → keeps x = true) :
    words (bridge handler unknown keeps s).mem (s.regs .rdi) (15 + n) =
      (handler f).toWords ++ rest := by
  rw [words_append] at hframe ⊢
  obtain ⟨hlow, hhigh⟩ := List.append_inj hframe (by rw [length_words]; rfl)
  -- what the handler reads is the frame, since 15 words are one frame
  have hread : readFrame s.mem (s.regs .rdi) = f :=
    toWords_injective ((toWords_readFrame _ _).trans hlow)
  have hmem : (bridge handler unknown keeps s).mem =
      setWords (sysVCall unknown keeps s).mem (s.regs .rdi) (handler f).toWords := by
    rw [← hread]
    rfl
  have hlen : (handler f).toWords.length = 15 := rfl
  rw [hmem, ← hhigh]
  refine congrArg₂ (· ++ ·) ?_ ?_
  · have hwritten := words_setWords (sysVCall unknown keeps s).mem (handler f).toWords
      (s.regs .rdi) (by simp [hlen])
    rwa [hlen] at hwritten
  -- above the frame nothing has been written
  · refine words_congr (by omega) fun x hx => ?_
    have := (s.regs .rdi).toNat_lt
    have := x.toNat_lt
    rw [within_iff, UInt64.toNat_add, UInt64.toNat_ofNat'] at hx
    rw [setWords_outside (by simp [hlen])]
    · have hkept := hkeeps x (by rw [within_iff]; omega)
      simp [sysVCall, hkept]
    · rw [hlen, ← Bool.not_eq_true, within_iff]
      omega

/-- Outside the frame the bridge leaves what it has to keep. -/
theorem bridge_mem_outside {handler : SyscallRegisters → SyscallRegisters} {unknown : Unknown}
    {keeps : UInt64 → Bool} {s : Cpu} {x : UInt64} (hframe : within (s.regs .rdi) 120 x = false)
    (hkeeps : keeps x = true) : (bridge handler unknown keeps s).mem x = s.mem x := by
  have hlen : (handler (readFrame s.mem (s.regs .rdi))).toWords.length = 15 := rfl
  simp only [bridge, writeFrame]
  rw [setWords_outside (by simp [hlen])]
  · simp [sysVCall, hkeeps]
  · rw [hlen]
    exact hframe

end JingOS.Syscall
