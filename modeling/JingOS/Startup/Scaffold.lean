import JingOS.Monitor.World
import JingOS.Syscall.Fast

/-!
# The fast system calls at boot (`gdt.rs`, `syscall.rs`)

`init_fast_syscall_scaffold` asks the processor, programs the registers of `syscall` for the
selectors of the GDT, and turns `syscall` on. What came of it is a status that the monitor shows
later on; nothing reads the registers again.

* `X86Crate` — what the crate `x86_64` decides;
* `gdt` — the selectors, in the order in which the descriptors are appended;
* `initFastSyscallScaffold` — the scaffold, on any processor;
* `scaffold_truthful` — the status against the machine.
-/

namespace JingOS.Startup

open X86 JingOS.Monitor JingOS.Syscall

/-! ## The GDT -/

/-- The descriptors of the kernel's GDT. -/
inductive Descriptor where
  | kernelCodeSegment
  | kernelDataSegment
  | userDataSegment
  | userCodeSegment
  | tssSegment
deriving DecidableEq, Repr

/-- A system descriptor has two entries of the table. -/
def Descriptor.entries : Descriptor → ℕ
  | .tssSegment => 2
  | _ => 1

/-- The privilege level of the descriptor. -/
def Descriptor.ring : Descriptor → ℕ
  | .userDataSegment => 3
  | .userCodeSegment => 3
  | _ => 0

/-- What is used of the crate `x86_64`. -/
structure X86Crate where
  /-- The selector that `GlobalDescriptorTable::append` returns for a descriptor behind others. -/
  append : List Descriptor → Descriptor → UInt16
  /-- What `Star::write` says to the selectors. -/
  starAccepts : Selectors → Bool

/-- The crate as it is documented: a selector is an index, behind that of the null descriptor, with
a privilege level, and `Star::write` checks what the processor relies on. -/
structure X86Crate.Documented (crate : X86Crate) : Prop where
  append : ∀ table descriptor, crate.append table descriptor =
    UInt16.ofNat (8 * (1 + (table.map Descriptor.entries).sum) + descriptor.ring)
  starAccepts : ∀ selectors, crate.starAccepts selectors = true ↔ StarLayout selectors

/-- `GDT`: the selectors without that of the TSS. -/
def gdt (crate : X86Crate) : Selectors :=
  let kernelCodeSelector := crate.append [] .kernelCodeSegment
  let kernelDataSelector := crate.append [.kernelCodeSegment] .kernelDataSegment
  let userDataSelector := crate.append [.kernelCodeSegment, .kernelDataSegment] .userDataSegment
  let userCodeSelector :=
    crate.append [.kernelCodeSegment, .kernelDataSegment, .userDataSegment] .userCodeSegment
  { kernelCodeSelector, kernelDataSelector, userCodeSelector, userDataSelector }

/-- The order of the descriptors is the one that `syscall` and `sysret` rely on. -/
theorem gdt_accepted {crate : X86Crate} (h : crate.Documented) :
    crate.starAccepts (gdt crate) = true := by
  rw [h.starAccepts]
  unfold gdt
  simp only [h.append]
  decide

/-! ## The scaffold -/

/-- What `cpuid` answers to a leaf, as far as it is read. -/
structure CpuidResult where
  eax : UInt32
  edx : UInt32

/-- What the startup can ask of the processor. -/
structure Processor where
  cpuid : UInt32 → CpuidResult
  /-- What `EFER` holds after a write. -/
  writeEfer : UInt64 → UInt64

/-- The registers that decide about `syscall`. -/
structure FastMachine where
  cpu : Cpu
  efer : UInt64
  /-- `STAR`, `LSTAR` and `SFMASK`, once they have been programmed. -/
  msrs : Option SyscallMsrs

/-- `EferFlags::SYSTEM_CALL_EXTENSIONS`. -/
def systemCallExtensions : UInt64 := 0x1

/-- `Efer::read().contains(..)`. -/
def FastMachine.sce (m : FastMachine) : Bool := m.efer &&& systemCallExtensions != 0

/-- Bit 11 of the extended feature leaf, if there is such a leaf. -/
def cpuSupportsSyscall (processor : Processor) : Bool :=
  if (processor.cpuid 0x80000000).eax < 0x80000001 then false
  else (processor.cpuid 0x80000001).edx &&& ((1 : UInt32) <<< 11) != 0

/-- `FAST_SYSCALL_STATUS` as it is declared. -/
def defaultFastSyscallStatus : FastSyscallStatus where
  stage := .uninitialized
  cpuSupport := false
  sceEnabled := false
  selectors := none
  lstar := none
  kernelGsBase := none
  note := "not initialized"

/-- The selectors as the status shows them. -/
def selectorPlan (selectors : Selectors) : FastSyscallSelectorPlan where
  kernelCs := selectors.kernelCodeSelector
  kernelSs := selectors.kernelDataSelector
  userCs := selectors.userCodeSelector
  userSs := selectors.userDataSelector

/-- `init_fast_syscall_scaffold`, where `ENABLE_FAST_SYSCALL_SCE` is set. -/
def initFastSyscallScaffold (processor : Processor) (starAccepts : Selectors → Bool)
    (layout : FastSyscallLayout) (lstar : UInt64) (selectors : Selectors) (m : FastMachine) :
    FastSyscallStatus × FastMachine :=
  if cpuSupportsSyscall processor = false then
    ({ stage := .unsupportedCpu, cpuSupport := false, sceEnabled := m.sce, selectors := none,
       lstar := none, kernelGsBase := none,
       note := "cpu does not report SYSCALL/SYSRET support" }, m)
  else
    match programFastSyscallMsrs starAccepts layout lstar selectors m.cpu with
    | .error note =>
      ({ stage := .scaffolded, cpuSupport := true, sceEnabled := m.sce,
         selectors := some (selectorPlan selectors), lstar := none, kernelGsBase := none, note }, m)
    | .ok (msrs, cpu) =>
      let m : FastMachine :=
        { cpu, efer := processor.writeEfer (m.efer ||| systemCallExtensions), msrs := some msrs }
      if m.sce then
        ({ stage := .sceEnabledExperimental, cpuSupport := true, sceEnabled := true,
           selectors := some (selectorPlan selectors), lstar := some msrs.lstar,
           kernelGsBase := some cpu.kernelGsBase,
           note := "SCE enabled (experimental); int 0x80 remains default monitor ABI while " ++
             "syscall path is validated" }, m)
      else
        ({ stage := .msrProgrammedNoSce, cpuSupport := true, sceEnabled := false,
           selectors := some (selectorPlan selectors), lstar := some msrs.lstar,
           kernelGsBase := some cpu.kernelGsBase,
           note := "STAR/LSTAR/SFMASK programmed; SCE not enabled (CPU/firmware policy)" }, m)

/-! ## The status -/

/-- The stages in which the registers have been programmed. -/
def programmed (stage : FastSyscallStage) : Prop :=
  stage = .msrProgrammedNoSce ∨ stage = .sceEnabledExperimental

/-- What the status says of the machine `m'` that the scaffold has made of `m`. -/
structure Truthful (processor : Processor) (starAccepts : Selectors → Bool)
    (layout : FastSyscallLayout) (selectors : Selectors) (m m' : FastMachine)
    (status : FastSyscallStatus) : Prop where
  support : status.cpuSupport = cpuSupportsSyscall processor
  sce : status.sceEnabled = m'.sce
  enabled : status.stage = .sceEnabledExperimental ↔ programmed status.stage ∧ m'.sce = true
  programmed : programmed status.stage ↔
    cpuSupportsSyscall processor = true ∧ starAccepts selectors = true
  ready : Startup.programmed status.stage → ∃ msrs, m'.msrs = some msrs ∧ FastReady layout m'.cpu ∧
    status.selectors = some (selectorPlan selectors) ∧ status.lstar = some msrs.lstar ∧
    status.kernelGsBase = some m'.cpu.kernelGsBase
  untouched : ¬ Startup.programmed status.stage → m' = m ∧ status.lstar = none ∧
    status.kernelGsBase = none

/-- **The status.** On every processor, for every GDT and whatever the machine was before, the
status tells what has become of the machine, and a machine that is not programmed is untouched. -/
theorem scaffold_truthful (processor : Processor) (starAccepts : Selectors → Bool)
    (layout : FastSyscallLayout) (lstar : UInt64) (selectors : Selectors) (m : FastMachine) :
    Truthful processor starAccepts layout selectors m
      (initFastSyscallScaffold processor starAccepts layout lstar selectors m).2
      (initFastSyscallScaffold processor starAccepts layout lstar selectors m).1 := by
  unfold initFastSyscallScaffold
  cases hsupport : cpuSupportsSyscall processor with
  -- nothing is programmed without support
  | false =>
    rw [if_pos rfl]
    exact ⟨hsupport.symm, rfl, by simp [programmed], by simp [programmed, hsupport],
      by simp [programmed], fun _ => ⟨rfl, rfl, rfl⟩⟩
  | true =>
    rw [if_neg (by decide)]
    cases hmsrs : programFastSyscallMsrs starAccepts layout lstar selectors m.cpu with
    | error note =>
      -- and nothing with selectors that are refused
      have hrejected : starAccepts selectors = false := by
        unfold programFastSyscallMsrs at hmsrs
        split at hmsrs
        · cases hmsrs
        · next h => exact Bool.eq_false_iff.mpr h
      exact ⟨hsupport.symm, rfl, by simp [programmed], by simp [programmed, hrejected],
        by simp [programmed], fun _ => ⟨rfl, rfl, rfl⟩⟩
    | ok outcome =>
      rcases outcome with ⟨msrs, cpu⟩
      -- otherwise all is programmed; only the last register tells the two ends apart
      have hready := programFastSyscallMsrs_ready hmsrs
      have haccepted : starAccepts selectors = true := by
        unfold programFastSyscallMsrs at hmsrs
        split at hmsrs
        · next h => exact h
        · cases hmsrs
      simp only
      split
      · next hsce =>
        exact ⟨hsupport.symm, hsce.symm, by simp [programmed, hsce],
          by simp [programmed, hsupport, haccepted],
          fun _ => ⟨msrs, rfl, hready, rfl, rfl, rfl⟩, fun h => absurd (Or.inr rfl) h⟩
      · next hsce =>
        exact ⟨hsupport.symm, (Bool.eq_false_iff.mpr hsce).symm, by simp [programmed, hsce],
          by simp [programmed, hsupport, haccepted],
          fun _ => ⟨msrs, rfl, hready, rfl, rfl, rfl⟩, fun h => absurd (Or.inl rfl) h⟩

/-- A processor that has just been reset into long mode. -/
def sampleFast : FastMachine where
  cpu := { regs := fun _ => 0, rip := 0x8000001230, rflags := 0x2, cs := 0x8, ss := 0x10,
           gsBase := 0, kernelGsBase := 0, mem := fun _ => 0 }
  efer := 0x500
  msrs := none

/-- The crate as it is documented. -/
def sampleCrate : X86Crate where
  append table descriptor :=
    UInt16.ofNat (8 * (1 + (table.map Descriptor.entries).sum) + descriptor.ring)
  starAccepts selectors := decide (StarLayout selectors)

theorem sampleCrate_documented : sampleCrate.Documented :=
  ⟨fun _ _ => rfl, fun _ => decide_eq_true_iff⟩

end JingOS.Startup
