import JingOS.Lib.ByteMem
import Mathlib.Logic.Function.Basic

/-!
# A fragment of x86-64

The registers, the instructions that entry stubs are made of, and the transfers between
rings as the processor performs them. Code is a list of instructions here; decoding it from
memory is in `JingOS.Lib.X86Decode`.

* `run` — straight-line code;
* `run_push`, `run_pop` — a row of pushes is one `pushWords`, a row of pops loads registers
  from the words on the stack;
* `interruptEntry` and `iretq`, `syscallEntry` and `sysretq`;
* `sysVCall` — a call of a compiled function: what the ABI lets it change has an unknown value
  afterwards.
-/

namespace X86

open ByteMem

/-- The general registers. -/
inductive Reg where
  | rax | rbx | rcx | rdx | rsi | rdi | rbp | rsp
  | r8 | r9 | r10 | r11 | r12 | r13 | r14 | r15
deriving DecidableEq, Repr

/-- A processor with its memory. -/
structure Cpu where
  regs : Reg → UInt64
  rip : UInt64
  rflags : UInt64
  cs : UInt64
  ss : UInt64
  /-- The base of the `gs` segment in use. -/
  gsBase : UInt64
  /-- The base that `swapgs` puts in its place. -/
  kernelGsBase : UInt64
  mem : Mem

/-- The instructions of the model. -/
inductive Instr where
  | nop
  | mov (dst src : Reg)
  | movImm (dst : Reg) (value : UInt64)
  | push (src : Reg)
  | pop (dst : Reg)
  | storeGs (offset : UInt64) (src : Reg)
  | loadGs (dst : Reg) (offset : UInt64)
  | lea (dst base : Reg) (offset : UInt64)
  | addImm (dst : Reg) (value : UInt64)
  | subImm (dst : Reg) (value : UInt64)
  | swapgs
deriving DecidableEq, Repr

/-! ## Straight-line code -/

/-- The status flags CF, PF, AF, ZF, SF and OF. -/
def statusMask : UInt64 := 0x8d5

/-- Replace the status flags, given `x`, `y`, the result `r` and whether the operation
carried and overflowed. -/
def setStatus (flags x y r : UInt64) (carry overflow : Bool) : UInt64 :=
  let ones := (List.range 8).countP fun i => r.toNat.testBit i
  let cf : UInt64 := if carry then 0x1 else 0
  let pf : UInt64 := if ones % 2 = 0 then 0x4 else 0
  let af : UInt64 := (x ^^^ y ^^^ r) &&& 0x10
  let zf : UInt64 := if r = 0 then 0x40 else 0
  let sf : UInt64 := (r >>> 63) <<< 7
  let of : UInt64 := if overflow then 0x800 else 0
  (flags &&& ~~~statusMask) ||| cf ||| pf ||| af ||| zf ||| sf ||| of

namespace Instr

/-- The effect of an instruction, apart from moving on to the next one. -/
def exec (s : Cpu) : Instr → Cpu
  | nop => s
  | mov dst src => { s with regs := Function.update s.regs dst (s.regs src) }
  | movImm dst value => { s with regs := Function.update s.regs dst value }
  | push src =>
    { s with
      regs := Function.update s.regs .rsp (s.regs .rsp - 8)
      mem := setWord s.mem (s.regs .rsp - 8) (s.regs src) }
  | pop dst =>
    { s with
      regs := Function.update (Function.update s.regs .rsp (s.regs .rsp + 8)) dst
        (word s.mem (s.regs .rsp)) }
  | storeGs offset src => { s with mem := setWord s.mem (s.gsBase + offset) (s.regs src) }
  | loadGs dst offset =>
    { s with regs := Function.update s.regs dst (word s.mem (s.gsBase + offset)) }
  | lea dst base offset => { s with regs := Function.update s.regs dst (s.regs base + offset) }
  | addImm dst value =>
    let x := s.regs dst
    let r := x + value
    { s with
      regs := Function.update s.regs dst r
      rflags := setStatus s.rflags x value r (r < x) (((x ^^^ r) &&& (value ^^^ r)) >>> 63 == 1) }
  | subImm dst value =>
    let x := s.regs dst
    let r := x - value
    { s with
      regs := Function.update s.regs dst r
      rflags := setStatus s.rflags x value r (x < value) (((x ^^^ value) &&& (x ^^^ r)) >>> 63 == 1) }
  | swapgs => { s with gsBase := s.kernelGsBase, kernelGsBase := s.gsBase }

end Instr

/-- Execute instructions one after the other. -/
def run (s : Cpu) : List Instr → Cpu
  | [] => s
  | i :: is => run (i.exec s) is

@[simp] theorem run_nil (s : Cpu) : run s [] = s := rfl

@[simp] theorem run_cons (s : Cpu) (i : Instr) (is : List Instr) :
    run s (i :: is) = run (i.exec s) is := rfl

theorem run_append (s : Cpu) (is js : List Instr) : run s (is ++ js) = run (run s is) js := by
  induction is generalizing s with
  | nil => rfl
  | cons i is ih => exact ih (i.exec s)

/-- Pushing a row of registers. -/
theorem run_push (rs : List Reg) (hrs : Reg.rsp ∉ rs) (s : Cpu) :
    run s (rs.map .push) =
      { s with
        regs := Function.update s.regs .rsp (s.regs .rsp - UInt64.ofNat (8 * rs.length))
        mem := pushWords s.mem (s.regs .rsp) (rs.map s.regs) } := by
  induction rs generalizing s with
  | nil => simp [pushWords]
  | cons r rs ih =>
    simp only [List.mem_cons, not_or] at hrs
    rw [List.map_cons, run_cons, ih hrs.2]
    have hvals : rs.map (Instr.exec s (.push r)).regs = rs.map s.regs := by
      refine List.map_congr_left fun x hx => ?_
      have hne : x ≠ Reg.rsp := by
        rintro rfl
        exact hrs.2 hx
      simp [Instr.exec, hne]
    have hsp : s.regs .rsp - 8 - UInt64.ofNat (8 * rs.length) =
        s.regs .rsp - UInt64.ofNat (8 * (rs.length + 1)) := by
      rw [Nat.mul_succ, UInt64.ofNat_add]
      grind
    rw [hvals]
    simp only [Instr.exec, Function.update_self, Function.update_idem, List.length_cons,
      List.map_cons, pushWords, hsp]

/-- Load registers from a list of words, one after the other. -/
def loadRegs (regs : Reg → UInt64) : List Reg → List UInt64 → Reg → UInt64
  | r :: rs, w :: ws => loadRegs (Function.update regs r w) rs ws
  | _, _ => regs

/-- Popping a row of registers. -/
theorem run_pop (rs : List Reg) (hrs : Reg.rsp ∉ rs) (s : Cpu) :
    run s (rs.map .pop) =
      { s with
        regs := loadRegs
          (Function.update s.regs .rsp (s.regs .rsp + UInt64.ofNat (8 * rs.length))) rs
          (words s.mem (s.regs .rsp) rs.length) } := by
  induction rs generalizing s with
  | nil => simp [loadRegs]
  | cons r rs ih =>
    simp only [List.mem_cons, not_or] at hrs
    rw [List.map_cons, run_cons, ih hrs.2]
    have hsp : s.regs .rsp + 8 + UInt64.ofNat (8 * rs.length) =
        s.regs .rsp + UInt64.ofNat (8 * (rs.length + 1)) := by
      rw [Nat.mul_succ, UInt64.ofNat_add]
      grind
    simp only [Instr.exec, List.length_cons, words, loadRegs, Function.update_of_ne hrs.1,
      Function.update_self, hsp]
    rw [Function.update_comm (Ne.symm hrs.1), Function.update_idem]

/-! ## Between the rings -/

/-- TF, IF and DF: the flags that `int` and a usual `SFMASK` clear. -/
def interruptFlag : UInt64 := 0x200

def trapFlag : UInt64 := 0x100

def directionFlag : UInt64 := 0x400

/-- `int` through an interrupt gate: change to the ring-0 stack `rsp0` unless in ring 0,
align the stack, and push the five words that `iretq` pops. `rip` is already behind the
`int`. -/
def interruptEntry (rsp0 kernelCs handler : UInt64) (s : Cpu) : Cpu :=
  let base := if s.cs &&& 3 = 0 then s.regs .rsp else rsp0
  let top := base &&& ~~~0xf
  { s with
    regs := Function.update s.regs .rsp (top - 40)
    mem := pushWords s.mem top [s.ss, s.regs .rsp, s.rflags, s.cs, s.rip]
    rip := handler
    rflags := s.rflags &&& ~~~(interruptFlag ||| trapFlag)
    cs := kernelCs
    ss := if s.cs &&& 3 = 0 then s.ss else 0 }

/-- Five words come off the stack, and the program goes on where they say. -/
def iretq (s : Cpu) : Cpu :=
  { s with
    rip := word s.mem (s.regs .rsp)
    cs := word s.mem (s.regs .rsp + 8)
    rflags := word s.mem (s.regs .rsp + 16)
    ss := word s.mem (s.regs .rsp + 32)
    regs := Function.update s.regs .rsp (word s.mem (s.regs .rsp + 24)) }

/-- `iretq` takes the five words on top of the stack. -/
theorem iretq_eq {s : Cpu} {rip cs rflags rsp ss : UInt64}
    (h : words s.mem (s.regs .rsp) 5 = [rip, cs, rflags, rsp, ss]) :
    iretq s = { s with
      rip := rip, cs := cs, rflags := rflags, ss := ss,
      regs := Function.update s.regs .rsp rsp } := by
  have hadd : ∀ x y : UInt64, s.regs .rsp + x + y = s.regs .rsp + (x + y) :=
    fun x y => UInt64.add_assoc _ x y
  simp only [words, hadd, UInt64.reduceAdd, List.cons.injEq, and_true] at h
  obtain ⟨hrip, hcs, hrflags, hrsp, hss⟩ := h
  rw [iretq, hrip, hcs, hrflags, hrsp, hss]

/-- The five words are on top of the stack when the handler starts. -/
theorem words_interruptEntry (rsp0 kernelCs handler : UInt64) (s : Cpu) :
    words (interruptEntry rsp0 kernelCs handler s).mem
        ((interruptEntry rsp0 kernelCs handler s).regs .rsp) 5 =
      [s.rip, s.cs, s.rflags, s.regs .rsp, s.ss] := by
  have hpushed := words_pushWords s.mem [s.ss, s.regs .rsp, s.rflags, s.cs, s.rip]
    ((if s.cs &&& 3 = 0 then s.regs .rsp else rsp0) &&& ~~~0xf) (k := 0) (by simp)
  simpa [interruptEntry, words] using hpushed

/-- The registers that `syscall` and `sysretq` read. -/
structure SyscallMsrs where
  lstar : UInt64
  sfmask : UInt64
  kernelCs : UInt64
  kernelSs : UInt64
  userCs : UInt64
  userSs : UInt64
deriving DecidableEq

/-- `syscall`; `rip` is already behind it. -/
def syscallEntry (msrs : SyscallMsrs) (s : Cpu) : Cpu :=
  { s with
    regs := Function.update (Function.update s.regs .rcx s.rip) .r11 s.rflags
    rip := msrs.lstar
    rflags := s.rflags &&& ~~~msrs.sfmask
    cs := msrs.kernelCs
    ss := msrs.kernelSs }

/-- The way back of `syscall`: `rcx` and `r11` are where to and with what flags. -/
def sysretq (msrs : SyscallMsrs) (s : Cpu) : Cpu :=
  { s with
    rip := s.regs .rcx
    rflags := (s.regs .r11 &&& 0x3c7fd7) ||| 0x2
    cs := msrs.userCs
    ss := msrs.userSs }

/-! ## Calls of compiled code -/

/-- The registers a function has to give back unchanged. -/
def calleeSaved : Reg → Bool
  | .rbx | .rbp | .rsp | .r12 | .r13 | .r14 | .r15 => true
  | _ => false

/-- What a function may leave behind where the ABI allows anything. -/
structure Unknown where
  regs : Reg → UInt64
  rflags : UInt64
  mem : Mem

/-- A call that returns. `keeps` tells the bytes that belong to the caller. -/
def sysVCall (unknown : Unknown) (keeps : UInt64 → Bool) (s : Cpu) : Cpu :=
  { s with
    regs := fun r => if calleeSaved r then s.regs r else unknown.regs r
    rflags := unknown.rflags
    mem := fun x => if keeps x then s.mem x else unknown.mem x }

end X86
