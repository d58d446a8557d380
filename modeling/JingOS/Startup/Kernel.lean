import JingOS.Startup.Probe

/-!
# From power-on to the monitor (`kernel_main` in `kernel/src/main.rs`)

The whole of `kernel_main` on a machine whose statics are as they are declared: the messages of
boot, the probe of the memory, the tables of the processor, the interrupts, the task table, and
the wait for the timer, behind which `input_loop` is called. The bootloader may have found a
framebuffer or none, the page tables, the memory map and the processor may be any.

* `kernelMain` — the program;
* `Entered` — the machine when `input_loop` is called;
* `kernel_main_enters` — the three ways in which `kernel_main` ends, and the monitor's start.
-/

namespace JingOS.Startup

open Checked Hoare Text X86
open JingOS.Framebuffer JingOS.Interrupts JingOS.Memory JingOS.Memory.BootInfoFrameAllocator
open JingOS.Monitor JingOS.Syscall JingOS.Task JingOS.Usermode

variable {σ : Type}

/-! ## The machine -/

/-- What `kernel_main` finds besides the fields of a `Boot`. -/
structure Platform (σ : Type) where
  mapper : Mapper σ
  /-- `boot_info.framebuffer`. -/
  framebuffer : Option (List UInt8 × FrameBufferInfo)
  processor : Processor
  crate : X86Crate
  layout : FastSyscallLayout
  /-- `fast_syscall_entry_address`. -/
  lstar : UInt64
  /-- `{boot_info:?}`. -/
  debugBootInfo : String
  /-- `{first_frames:?}`. -/
  debugFrames : List (Option PhysFrame) → String

/-- The statics as they are declared, with any memory and any interrupts to come. The variables of
`input_loop` are not there yet. -/
def declared (userMem : ByteMem.Mem) (arrivals : ℕ → Burst) : World where
  kernel := { timer := Timer.initial, memorySummary := none }
  keyboardIrqs := 0
  dropped := 0
  tasks := TaskTable.new
  autoScheduler := SchedulerAutoMode.new 0
  history := CommandHistory.new
  userModeContext := none
  session := { exitExpected := false, pendingKind := none, lastReport := none }
  userMem
  fastSyscallStatus := defaultFastSyscallStatus
  writer := none
  serial := ""
  arrivals

/-! ## The messages -/

/-- `writeln!(port, ..)`. -/
def serialPrintln (line : String) : BootM σ Unit :=
  inWorld (modify fun w => { w with serial := w.serial ++ line ++ "\n" })

/-- `println!`. -/
def println (boot : Boot) (line : String) : BootM σ Unit := inWorld (print boot (line ++ "\n"))

/-- The line for one part of the probe. -/
def partLine {α : Type} (ok : α → String) (failed skipped : String) :
    Option (Except String α) → String
  | none => s!"{skipped}: no physical memory mapping"
  | some (.ok value) => ok value
  | some (.error error) => s!"{failed}: {error}"

def usermodeLine (probe : Option PagingProbe) : String :=
  partLine (fun _ => "User mode memory initialized") "User mode memory init failed"
    "User mode memory init skipped" (probe.map PagingProbe.usermode)

/-- What is written to the serial port behind the probe. -/
def serialReport (boot : Boot) (platform : Platform σ) (summary : MemorySummary)
    (allocated remaining : ℕ) (first : List (Option PhysFrame)) (probe : Option PagingProbe) :
    List String :=
  [s!"Memory: regions={summary.totalRegions} usable_regions={summary.usableRegions} " ++
     s!"usable_bytes={summary.usableBytes} reserved_bytes={summary.reservedBytes} " ++
     s!"largest_usable={summary.largestUsableRegionBytes}",
   s!"Frame allocator: usable_frames={summary.usableFrames4k} allocated={allocated} " ++
     s!"remaining_est={remaining} first_frames={platform.debugFrames first}",
   s!"Physical memory mapping offset = {debugOption boot.physicalMemoryOffset}",
   partLine (fun value => s!"Paging probe: demo page mapped, value={hex value.toNat}")
     "Paging probe failed" "Paging probe skipped" (probe.map PagingProbe.paging),
   partLine (fun values => s!"Heap probe: Box={hex values.1.toNat}, Vec sum={values.2}")
     "Heap probe failed" "Heap probe skipped" (probe.map PagingProbe.heap),
   usermodeLine probe]

/-- What is shown on the framebuffer. -/
def screenReport (boot : Boot) (platform : Platform σ) (summary : MemorySummary)
    (allocated remaining : ℕ) (first : List (Option PhysFrame)) (probe : Option PagingProbe) :
    List String :=
  ["jingOS framebuffer console ready",
   s!"Memory: regions={summary.totalRegions} usable={summary.usableRegions} " ++
     s!"usable_bytes={summary.usableBytes} reserved_bytes={summary.reservedBytes}",
   s!"Frames: usable={summary.usableFrames4k} allocated={allocated} " ++
     s!"remaining~={remaining} first={platform.debugFrames first}",
   s!"Phys mem offset = {debugOption boot.physicalMemoryOffset}",
   partLine (fun value => s!"Paging probe ok: demo value={hex value.toNat}")
     "Paging probe failed" "Paging probe skipped" (probe.map PagingProbe.paging),
   partLine (fun values => s!"Heap probe ok: box={hex values.1.toNat}, vec_sum={values.2}")
     "Heap probe failed" "Heap probe skipped" (probe.map PagingProbe.heap),
   usermodeLine probe]

/-! ## The program -/

/-- `framebuffer::init`. -/
def initFramebuffer (buffer : List UInt8) (info : FrameBufferInfo) : BootM σ Unit :=
  inWorld (modify fun w => { w with writer := some (FrameBufferWriter.new buffer info).clear })

/-- `syscall::init_fast_syscall_scaffold` with the selectors of the GDT. -/
def scaffolded (platform : Platform σ) (s : BootState σ) : BootState σ :=
  let outcome := initFastSyscallScaffold platform.processor platform.crate.starAccepts
    platform.layout platform.lstar (gdt platform.crate) s.machine.fast
  { s with machine := { s.machine with
    world := { s.machine.world with fastSyscallStatus := outcome.1 }, fast := outcome.2 } }

/-- `set_kernel_memory_summary`. -/
def summarized (boot : Boot) (w : World) : World :=
  { w with kernel := { w.kernel with memorySummary := some (summarizeMemory boot.memoryRegions) } }

/-- `set_pit_hz(100)`. -/
def programmedTimer (w : World) : World :=
  { w with kernel := { w.kernel with timer := (w.kernel.timer.setPitHz 100).2 } }

/-- `task::init`. -/
def bootstrappedTasks (w : World) : World := { w with tasks := w.tasks.ensureBootstrapTask }

/-- `wait_for_ticks`; `spins` is what is left of `max_spins`. -/
def waitForTicks (target : UInt64) : ℕ → BootM σ (Option UInt64)
  | 0 => pure none
  | spins + 1 => do
    let now ← inWorld ticks
    if now ≥ target then pure (some now) else waitForTicks target spins

/-- The arguments of `wait_for_ticks`. -/
def timerTarget : UInt64 := 5

def timerSpins : ℕ := 500000000

section Program

variable (boot : Boot) (platform : Platform σ)

/-- The first part of `kernel_main`: up to `paging_probe`. -/
def probed : BootM σ (List (Option PhysFrame) × Option PagingProbe) := do
  serialPrintln s!"jingOS kernel started: boot info = {platform.debugBootInfo}"
  serialPrintln "Hello from Rust kernel!"
  inWorld (modify (summarized boot))
  probeMemory platform.mapper boot

/-- The second part: up to the wait for the timer. -/
def bring (first : List (Option PhysFrame)) (probe : Option PagingProbe) : BootM σ Unit := do
  let s ← get
  let memorySummary := summarizeMemory boot.memoryRegions
  let allocated := s.allocator.allocatedFrames
  let remaining ← lift Halt.panic s.allocator.remainingUsableFramesEstimate
  (serialReport boot platform memorySummary allocated remaining first probe).forM serialPrintln
  platform.framebuffer.toList.forM fun (buffer, info) => do
    initFramebuffer buffer info
    (screenReport boot platform memorySummary allocated remaining first probe).forM (println boot)
  println boot "jingOS kernel started"
  println boot "Hello from Rust kernel!"
  println boot "GDT + TSS initialized"
  modify (scaffolded platform)
  let s ← get
  let status := s.machine.world.fastSyscallStatus
  println boot (s!"fast syscall scaffold: stage={fastSyscallStageName status.stage} " ++
    s!"cpu_support={status.cpuSupport} sce_enabled={status.sceEnabled}")
  println boot "Initializing IDT + PIC + PIT..."
  -- `interrupts::init` and `task::init`
  inWorld (modify programmedTimer)
  inWorld (modify bootstrappedTasks)
  println boot "IRQ0(timer) and IRQ1(keyboard) enabled"
  println boot "Keyboard input window started (press ESC to exit)"

/-- The third part; its return stands for the call of `input_loop`. -/
def awaitTimer : BootM σ Unit := do
  match ← (waitForTicks timerTarget timerSpins : BootM σ (Option UInt64)) with
  | some now => do
    serialPrintln s!"Timer interrupts active, observed ticks = {now}"
    println boot s!"Timer interrupts active, observed ticks = {now}"
  | none => do
    serialPrintln "Timer interrupts not observed within timeout"
    println boot "Timer interrupts not observed within timeout"
    throw (.exit .failed)

/-- `kernel_main`: what it sets up, in order, and at its end the monitor. -/
def kernelMain : BootM σ Unit := do
  let (first, probe) ← probed boot platform
  bring boot platform first probe
  awaitTimer boot

end Program

/-! ## The messages leave the machine alone -/

/-- The state without what has been printed. -/
def BootState.silenced (s : BootState σ) : BootState σ :=
  { s with machine := { s.machine with world := { s.machine.world with
    serial := "", writer := none } } }

/-- The framebuffer shows some text once it has been initialized. -/
def Displays (boot : Boot) (framebuffer : Option (List UInt8 × FrameBufferInfo))
    (writer : Option FrameBufferWriter) : Prop :=
  match framebuffer with
  | none => writer = none
  | some (buffer, info) => ∃ messages w, writer = some w ∧
      (FrameBufferWriter.new buffer info).clear.writeStr boot.font messages = .ok w

/-- Nothing but messages is new since `base`. -/
structure Quiet (boot : Boot) (framebuffer : Option (List UInt8 × FrameBufferInfo))
    (base s : BootState σ) : Prop where
  same : s.silenced = base.silenced
  console : Displays boot framebuffer s.machine.world.writer

section

variable {boot : Boot} {framebuffer : Option (List UInt8 × FrameBufferInfo)} {base : BootState σ}

theorem serialPrintln_reaches (line : String) :
    Reaches (Quiet boot framebuffer base) (serialPrintln line) fun _ =>
      Quiet boot framebuffer base :=
  fun _ hs => ⟨_, _, rfl, hs.same, hs.console⟩

/-- An update that neither reads nor changes what has been printed. -/
theorem update_reaches {g : BootState σ → BootState σ}
    (hsilenced : ∀ s, (g s).silenced = g s.silenced)
    (hwriter : ∀ s, (g s).machine.world.writer = s.machine.world.writer) :
    Reaches (Quiet boot framebuffer base) (modify g : BootM σ PUnit) fun _ =>
      Quiet boot framebuffer (g base) := by
  refine Reaches.modify fun s hs => ⟨?_, ?_⟩
  · rw [hsilenced, hs.same, ← hsilenced]
  · rw [hwriter]
    exact hs.console

/-- What the framebuffer shows is a text that it takes from the beginning. -/
theorem Displays.print (hfits : ∀ pair ∈ framebuffer, FrameBufferWriter.Fits pair.2 pair.1.length)
    {w : FrameBufferWriter} (h : Displays boot framebuffer (some w)) (text : String) :
    ∃ w', w.writeStr boot.font text = .ok w' ∧ Displays boot framebuffer (some w') := by
  cases framebuffer with
  | none => cases h
  | some pair =>
    rcases pair with ⟨buffer, info⟩
    rcases h with ⟨messages, w₀, hw, hmessages⟩
    rw [← Option.some.inj hw] at hmessages
    rcases FrameBufferWriter.writeStr_returns boot.font
      (FrameBufferWriter.clear_inv (FrameBufferWriter.new_inv (hfits _ rfl))) (messages ++ text) with
      ⟨w', hall, _⟩
    have hrest := hall
    rw [writeStr_append, hmessages] at hrest
    exact ⟨w', hrest, messages ++ text, w', rfl, hall⟩

/-- A line of the log changes nothing but the consoles. -/
theorem println_reaches (hfits : ∀ pair ∈ framebuffer, FrameBufferWriter.Fits pair.2 pair.1.length)
    (line : String) :
    Reaches (Quiet boot framebuffer base) (println boot line) fun _ =>
      Quiet boot framebuffer base := by
  intro s hs
  have hdisplays := hs.console
  cases hwriter : s.machine.world.writer with
  | none =>
    -- without a console nothing is printed
    have hprint : print boot (line ++ "\n") s.machine.world = .ok () s.machine.world := by
      change (print boot (line ++ "\n")).run s.machine.world = _
      unfold print
      rw [run_get_bind, hwriter]
      rfl
    refine ⟨(), s, ?_, hs⟩
    change inWorld (print boot (line ++ "\n")) s = _
    unfold inWorld
    rw [hprint]
  | some w =>
    rw [hwriter] at hdisplays
    rcases hdisplays.print hfits (line ++ "\n") with ⟨w', hwrite, hconsole⟩
    have hprint : print boot (line ++ "\n") s.machine.world =
        .ok () { s.machine.world with writer := some w' } := by
      change (print boot (line ++ "\n")).run s.machine.world = _
      unfold print
      rw [run_get_bind, hwriter]
      simp only [hwrite]
      rfl
    refine ⟨(), { s with machine := { s.machine with world := { s.machine.world with
      writer := some w' } } }, ?_, hs.same, hconsole⟩
    change inWorld (print boot (line ++ "\n")) s = _
    unfold inWorld
    rw [hprint]

/-- `framebuffer::init`. -/
theorem initFramebuffer_reaches (buffer : List UInt8) (info : FrameBufferInfo) :
    Reaches (Quiet boot none base) (initFramebuffer buffer info) fun _ =>
      Quiet boot (some (buffer, info)) base :=
  fun _ hs => ⟨_, _, rfl, hs.same, "", _, rfl, rfl⟩

end

/-! ## The second part -/

/-- An update of the world alone. -/
def BootState.withWorld (s : BootState σ) (f : World → World) : BootState σ :=
  { s with machine := { s.machine with world := f s.machine.world } }

/-- What the second part makes of the machine. -/
def brought (platform : Platform σ) (s : BootState σ) : BootState σ :=
  ((scaffolded platform s).withWorld programmedTimer).withWorld bootstrappedTasks

theorem inWorld_modify (f : World → World) :
    (inWorld (modify f) : BootM σ PUnit) = modify fun s : BootState σ => s.withWorld f := rfl

section

variable {boot : Boot} {platform : Platform σ} {s : BootState σ}
  (hmap : PageMap boot.memoryRegions)
  (hfits : ∀ pair ∈ platform.framebuffer, FrameBufferWriter.Fits pair.2 pair.1.length)

include hmap in
/-- The estimate does not panic. -/
theorem remaining_returns (hs : s.allocator.memoryRegions = boot.memoryRegions) :
    ∃ remaining, s.allocator.remainingUsableFramesEstimate = .ok remaining := by
  have hframes : s.allocator.frameAddresses.mapM frameAt = .ok (frames boot.memoryRegions) := by
    rcases hallocator : s.allocator with ⟨regions, next⟩
    rw [hallocator] at hs
    change regions = boot.memoryRegions at hs
    subst hs
    exact mapM_eq fun address hmem => frameAt_eq hmap.below hmem
  refine ⟨((frames boot.memoryRegions).drop s.allocator.next).length, ?_⟩
  unfold remainingUsableFramesEstimate
  rw [hframes]
  rfl

include hmap hfits in
/-- **The second part.** It returns; besides the messages it sets up the processor, the timer and
the task table. -/
theorem bring_reaches (hs : s.allocator.memoryRegions = boot.memoryRegions)
    (hwriter : s.machine.world.writer = none) (first : List (Option PhysFrame))
    (probe : Option PagingProbe) :
    Reaches (· = s) (bring boot platform first probe) fun _ =>
      Quiet boot platform.framebuffer (brought platform s) := by
  rcases remaining_returns hmap hs with ⟨remaining, hremaining⟩
  -- the count for the reports, then the two reports and the console between them
  unfold bring
  refine Reaches.get fun s' hs' => ?_
  subst hs'
  refine Reaches.lift_bind hremaining ?_
  have hprintln : ∀ {base : BootState σ} (line : String),
      Reaches (Quiet boot platform.framebuffer base) (println boot line) fun _ =>
        Quiet boot platform.framebuffer base := fun line => println_reaches hfits line
  have hserial : Reaches (· = s') ((serialReport boot platform (summarizeMemory boot.memoryRegions)
      s'.allocator.allocatedFrames remaining first probe).forM serialPrintln) fun _ =>
        Quiet boot none s' := by
    have hforM : ∀ lines : List String, Reaches (Quiet boot none s') (lines.forM serialPrintln)
        fun _ => Quiet boot none s' := fun _ => Reaches.forM fun line _ => serialPrintln_reaches line
    intro s hs
    rw [hs]
    exact hforM _ s' ⟨rfl, hwriter⟩
  refine hserial.bind fun _ => ?_
  refine Reaches.bind (Q := fun _ => Quiet boot platform.framebuffer s') ?_ fun _ => ?_
  · cases hframebuffer : platform.framebuffer with
    | none => exact Reaches.pure fun _ hs => hs
    | some pair =>
      rcases pair with ⟨buffer, info⟩
      rw [hframebuffer] at hprintln
      refine Reaches.bind (Q := fun _ => Quiet boot (some (buffer, info)) s') ?_ fun _ =>
        Reaches.pure fun _ hs => hs
      exact (initFramebuffer_reaches buffer info).bind fun _ =>
        Reaches.forM fun line _ => hprintln line
  refine (hprintln _).bind fun _ => (hprintln _).bind fun _ => (hprintln _).bind fun _ => ?_
  -- the registers of the fast path, the timer and the tasks, each followed by its lines
  refine (update_reaches (g := scaffolded platform) (fun _ => rfl) fun _ => rfl).bind fun _ =>
    Reaches.get fun _ _ => ?_
  refine (hprintln _).bind fun _ => (hprintln _).bind fun _ => ?_
  rw [inWorld_modify, inWorld_modify]
  refine (update_reaches (g := (·.withWorld programmedTimer)) (fun _ => rfl) fun _ => rfl).bind
    fun _ => ?_
  refine (update_reaches (g := (·.withWorld bootstrappedTasks)) (fun _ => rfl) fun _ => rfl).bind
    fun _ => ?_
  exact (hprintln _).bind fun _ => hprintln _

end

/-! ## The third part -/

/-- The state after a number of looks at the clock. -/
def looked (w : World) (n : ℕ) : World := World.interrupted^[n] w

/-- What `ticks` returns at a look. -/
def ticksAt (w : World) (n : ℕ) : UInt64 := (looked w n).kernel.timer.ticks

theorem looked_succ (w : World) (n : ℕ) : looked w (n + 1) = looked w.interrupted n :=
  Function.iterate_succ_apply _ _ _

/-- Looks change the counters only. -/
theorem looked_eq (w : World) (n : ℕ) : looked w n = { w with
    kernel := { w.kernel with timer := { w.kernel.timer with ticks := ticksAt w n } }
    keyboardIrqs := (looked w n).keyboardIrqs
    dropped := (looked w n).dropped
    arrivals := (looked w n).arrivals } := by
  induction n generalizing w with
  | zero => rfl
  | succ n ih =>
    unfold ticksAt
    rw [looked_succ, ih w.interrupted]
    rfl

/-- The clock goes by the timer and the interrupts to come. -/
theorem ticksAt_congr {w w' : World} (hticks : w'.kernel.timer.ticks = w.kernel.timer.ticks)
    (harrivals : w'.arrivals = w.arrivals) (n : ℕ) : ticksAt w' n = ticksAt w n := by
  induction n generalizing w w' with
  | zero => exact hticks
  | succ n ih =>
    unfold ticksAt at ih ⊢
    rw [looked_succ, looked_succ]
    refine ih ?_ ?_
    · change w'.kernel.timer.ticks + UInt64.ofNat (w'.arrivals 0).timer = _
      rw [hticks, harrivals]
      rfl
    · change (fun n => w'.arrivals (n + 1)) = _
      rw [harrivals]
      rfl

/-- The wait ends at the first look that is late enough, or with the last one. -/
theorem waitForTicks_run (target : UInt64) (spins : ℕ) (s : BootState σ) :
    (∃ k < spins, target ≤ ticksAt s.machine.world (k + 1) ∧
      (∀ j < k, ticksAt s.machine.world (j + 1) < target) ∧
      (waitForTicks target spins).run s =
        .ok (some (ticksAt s.machine.world (k + 1))) (s.withWorld (looked · (k + 1)))) ∨
    ((∀ k < spins, ticksAt s.machine.world (k + 1) < target) ∧
      (waitForTicks target spins).run s = .ok none (s.withWorld (looked · spins))) := by
  induction spins generalizing s with
  | zero => exact Or.inr ⟨nofun, rfl⟩
  | succ spins ih =>
    have hlook : (inWorld ticks : BootM σ UInt64).run s =
        .ok (ticksAt s.machine.world 1) (s.withWorld World.interrupted) := rfl
    have hstart : (waitForTicks target (spins + 1)).run s =
        (if ticksAt s.machine.world 1 ≥ target then pure (some (ticksAt s.machine.world 1))
          else waitForTicks target spins : BootM σ (Option UInt64)).run
          (s.withWorld World.interrupted) := by
      rw [waitForTicks, run_bind_ok hlook]
    rw [hstart]
    rcases UInt64.le_or_lt target (ticksAt s.machine.world 1) with hle | hlt
    · rw [if_pos hle]
      exact Or.inl ⟨0, Nat.succ_pos _, hle, nofun, rfl⟩
    · rw [if_neg (UInt64.not_le.mpr hlt)]
      -- the looks of the rest are those of the whole, one later
      have hshift : ∀ n, ticksAt (s.withWorld World.interrupted).machine.world n =
          ticksAt s.machine.world (n + 1) := by
        intro n
        unfold ticksAt
        rw [looked_succ]
        rfl
      have hstate : ∀ n, (s.withWorld World.interrupted).withWorld (looked · n) =
          s.withWorld (looked · (n + 1)) := by
        intro n
        unfold BootState.withWorld
        simp only [looked_succ]
      have hearlier : ∀ {n}, (∀ k < n,
          ticksAt (s.withWorld World.interrupted).machine.world (k + 1) < target) →
          ∀ k < n + 1, ticksAt s.machine.world (k + 1) < target := by
        intro n hall k hk
        cases k with
        | zero => exact hlt
        | succ k =>
          have hless := hall k (Nat.lt_of_succ_lt_succ hk)
          rwa [hshift] at hless
      rcases ih (s.withWorld World.interrupted) with ⟨k, hk, hle, hall, hrun⟩ | ⟨hall, hrun⟩
      · rw [hshift] at hle
        rw [hshift, hstate] at hrun
        exact Or.inl ⟨k + 1, Nat.succ_lt_succ hk, hle, hearlier hall, hrun⟩
      · rw [hstate] at hrun
        exact Or.inr ⟨hearlier hall, hrun⟩

/-! ## All of it -/

/-- The machine at power-on: the statics as they are declared, and no frame of the allocator in
use. -/
structure PoweredOn (boot : Boot) (owns : σ → PhysFrame → Prop) (s : BootState σ) : Prop where
  world : ∃ userMem arrivals, s.machine.world = declared userMem arrivals
  heap : s.machine.heap = none
  allocator : s.allocator = init boot.memoryRegions
  unowned : ∀ frame ∈ frames boot.memoryRegions, ¬ owns s.tables frame

/-- Heap and ring 3 can be used if their pages are among those that have been mapped. -/
structure Serves (boot : Boot) (machine : Machine) (names : List Page) : Prop where
  heap : (machine.heap = some (heapStart, heapSize) ∧ (∀ page ∈ heapPages, page ∈ names) ∧
      (probeAllocations boot).Returns fun _ => True) ∨
    (machine.heap = none ∧ ¬ ∀ page ∈ heapPages, page ∈ names)
  usermode : (machine.world.userModeContext = some ⟨userCodeStart, userStackTop⟩ ∧
      (∀ page ∈ userPages, page ∈ names) ∧
      ∃ m, machine.world.userMem = writeDemoCode m userIntDemoCode) ∨
    (machine.world.userModeContext = none ∧ ¬ ∀ page ∈ userPages, page ∈ names)

/-- Every page of boot has been mapped, if physical memory is mapped, the pages were free and there
are frames enough. -/
def Complete (mapper : Mapper σ) (boot : Boot) (s : BootState σ) (log : List (Page × PhysFrame)) :
    Prop :=
  boot.physicalMemoryOffset ≠ none → (∀ page ∈ bootPages, mapper.frameOf s.tables page = none) →
    3 + 4 * bootPages.length ≤ (frames boot.memoryRegions).length → log.map Prod.fst = bootPages

/-- The machine when `input_loop` is called. -/
structure Entered (boot : Boot) (platform : Platform σ) (s s' : BootState σ) : Prop where
  console : Displays boot platform.framebuffer s'.machine.world.writer
  tasks : s'.machine.world.tasks = bootstrapped
  history : s'.machine.world.history = CommandHistory.new
  session : s'.machine.world.session =
    { exitExpected := false, pendingKind := none, lastReport := none }
  memorySummary : s'.machine.world.kernel.memorySummary =
    some (summarizeMemory boot.memoryRegions)
  pitHz : s'.machine.world.kernel.timer.pitHz = Timer.initial.pitHz
  fast : Truthful platform.processor platform.crate.starAccepts platform.layout
    (gdt platform.crate) s.machine.fast s'.machine.fast s'.machine.world.fastSyscallStatus
  memory : ∃ first log, Mapped platform.mapper boot.memoryRegions first s s' log ∧
    Serves boot s'.machine (log.map Prod.fst) ∧ Complete platform.mapper boot s log

/-- With ring 3 at hand, this is the state that the monitor starts from. -/
theorem Entered.booted {boot : Boot} {platform : Platform σ} {s s' : BootState σ}
    (h : Entered boot platform s s')
    (hfits : ∀ pair ∈ platform.framebuffer, FrameBufferWriter.Fits pair.2 pair.1.length)
    (hsummary : boot.memorySummary = summarizeMemory boot.memoryRegions)
    (hcontext : s'.machine.world.userModeContext ≠ none) : Booted boot s'.machine.world where
  console := by
    intro writer hwriter
    have hconsole := h.console
    cases hframebuffer : platform.framebuffer with
    | none =>
      rw [hframebuffer] at hconsole
      rw [show s'.machine.world.writer = none from hconsole] at hwriter
      cases hwriter
    | some pair =>
      rw [hframebuffer] at hconsole
      rcases hconsole with ⟨messages, w, hw, hmessages⟩
      rw [hw] at hwriter
      rw [Option.some.inj hwriter] at hmessages
      exact ⟨pair.1, pair.2, messages, hfits pair hframebuffer, hmessages⟩
  tasks := h.tasks
  history := h.history
  session := h.session
  context := by
    rcases h.memory with ⟨first, log, _, hserves, _⟩
    rcases hserves.usermode with ⟨hsome, _⟩ | ⟨hnone, _⟩
    · exact hsome
    · exact absurd hnone hcontext
  memorySummary := by
    rw [h.memorySummary, hsummary]

/-- How `kernel_main` ends: in `input_loop` behind the first look at the clock that shows enough
ticks, with an exit code when no look does, or with the panic of the first allocation. -/
def KernelEnds (boot : Boot) (platform : Platform σ) (s : BootState σ)
    (result : EStateM.Result Halt (BootState σ) Unit) : Prop :=
  (∃ k < timerSpins, timerTarget ≤ ticksAt s.machine.world (k + 1) ∧
    (∀ j < k, ticksAt s.machine.world (j + 1) < timerTarget) ∧
    ∃ s', result = .ok () s' ∧ Entered boot platform s s' ∧
      s'.machine.world.kernel.timer.ticks = ticksAt s.machine.world (k + 1)) ∨
  ((∀ k < timerSpins, ticksAt s.machine.world (k + 1) < timerTarget) ∧
    ∃ s', result = .error (.exit .failed) s') ∨
  ∃ panic s', result = .error (.panic panic) s' ∧ probeAllocations boot = .error panic

/-- The results of the probe are no longer needed. -/
theorem Told.serves {boot : Boot} {probe : PagingProbe} {m m' : Machine} {names : List Page}
    (h : Told boot probe m m' names) (hheap : m.heap = none)
    (hcontext : m.world.userModeContext = none) : Serves boot m' names where
  heap := by
    have hallocator := h.allocator
    have hnames := h.heap
    have hserved := h.served
    revert hallocator hnames hserved
    cases probe.heap with
    | error error =>
      intro hallocator hnames _
      exact Or.inr ⟨hallocator.trans hheap, fun hall => nomatch hnames.mpr hall⟩
    | ok values =>
      intro hallocator hnames hserved
      exact Or.inl ⟨hallocator, hnames.mp rfl, values, hserved values rfl, trivial⟩
  usermode := by
    have hmonitor := h.context
    cases hdone : probe.usermode.isOk with
    | false =>
      rw [hdone] at hmonitor
      refine Or.inr ⟨hmonitor.trans hcontext, fun hall => ?_⟩
      rw [h.usermode.mpr hall] at hdone
      cases hdone
    | true =>
      rw [hdone] at hmonitor
      exact Or.inl ⟨hmonitor, h.usermode.mp hdone, h.code hdone⟩

section

variable {boot : Boot} {platform : Platform σ} {owns : σ → PhysFrame → Prop} {s : BootState σ}

/-- What the probe leaves, with or without a mapping of physical memory. -/
theorem probe_serves (hmap : PageMap boot.memoryRegions)
    (hlawful : platform.mapper.Lawful owns boot.memoryRegions)
    (hreadable : ∀ offset ∈ boot.physicalMemoryOffset, boot.paging.ReadableAt offset)
    (hallocator : s.allocator = init boot.memoryRegions)
    (hunowned : ∀ frame ∈ frames boot.memoryRegions, ¬ owns s.tables frame)
    (hheap : s.machine.heap = none) (hcontext : s.machine.world.userModeContext = none) :
    (∃ first probe s' log, (probeMemory platform.mapper boot).run s = .ok (first, probe) s' ∧
      Mapped platform.mapper boot.memoryRegions first s s' log ∧
      Serves boot s'.machine (log.map Prod.fst) ∧
      s'.machine = { s.machine with
        heap := s'.machine.heap
        world := { s.machine.world with
          userMem := s'.machine.world.userMem
          userModeContext := s'.machine.world.userModeContext } } ∧
      Complete platform.mapper boot s log) ∨
    ∃ panic s', (probeMemory platform.mapper boot).run s = .error (.panic panic) s' ∧
      probeAllocations boot = .error panic := by
  have hreadyAll : Ready owns boot.memoryRegions
      { s with allocator := ⟨boot.memoryRegions, 3⟩ } :=
    ⟨rfl, fun frame hframe => hunowned frame (List.mem_of_mem_drop hframe)⟩
  cases hoffset : boot.physicalMemoryOffset with
  -- physical memory is not mapped, so that nothing is
  | none =>
    have hrun : (probeMemory platform.mapper boot).run s =
        .ok ((List.range 3).map fun k => (frames boot.memoryRegions)[k]?, none)
          { s with allocator := ⟨boot.memoryRegions, 3⟩ } := by
      unfold probeMemory
      rw [run_bind_ok (firstFrames_run hmap hallocator), hoffset]
      rfl
    have hlog : Attempted platform.mapper owns boot.memoryRegions []
        { s with allocator := ⟨boot.memoryRegions, 3⟩ }
        { s with allocator := ⟨boot.memoryRegions, 3⟩ } [] true := Attempted.refl hreadyAll
    refine Or.inl ⟨_, none, _, [], hrun, hlog.toMapped hmap (List.nil_sublist _) rfl rfl, ?_, ?_⟩
    · exact ⟨Or.inr ⟨hheap, by decide⟩, Or.inr ⟨hcontext, by decide⟩⟩
    · exact ⟨rfl, fun hsome => absurd hoffset hsome⟩
  | some offset =>
    have hlimit : 3 + 4 * bootPages.length < 2 ^ 64 := by
      rw [length_bootPages]
      omega
    rw [probeMemory_run hmap hallocator hoffset]
    -- the probe ends, or its first allocation panics
    rcases pagingProbe_ends hmap hlawful (hreadable offset hoffset) hreadyAll hlimit with
      ⟨probe, s', log, hrun, hlog, htold⟩ | ⟨panic, s', _, _, _, hrun, hpanic, _⟩
    · rw [run_bind_ok hrun]
      exact Or.inl ⟨_, some probe, s', log, rfl, hlog.toMapped hmap (List.Sublist.refl _) rfl rfl,
        htold.serves hheap hcontext, htold.rest,
        fun _ hfree hmemory => hlog.all_mapped nodup_bootPages hfree hmemory⟩
    · rw [run_bind_error hrun]
      exact Or.inr ⟨panic, s', rfl, hpanic⟩

/-- Nothing but the messages tells the state from the base. -/
theorem Quiet.eq {framebuffer : Option (List UInt8 × FrameBufferInfo)} {base : BootState σ}
    (h : Quiet boot framebuffer base s) : ∃ serial writer, s =
      base.withWorld fun w => { w with serial, writer } := by
  refine ⟨s.machine.world.serial, s.machine.world.writer, ?_⟩
  calc s = s.silenced.withWorld fun w => { w with
        serial := s.machine.world.serial, writer := s.machine.world.writer } := rfl
    _ = base.silenced.withWorld fun w => { w with
        serial := s.machine.world.serial, writer := s.machine.world.writer } := by rw [h.same]

/-- The messages before the probe, and the summary of the memory. -/
def readied (boot : Boot) (platform : Platform σ) (s : BootState σ) : BootState σ :=
  s.withWorld fun w => summarized boot { w with serial := w.serial ++
    s!"jingOS kernel started: boot info = {platform.debugBootInfo}" ++ "\n" ++
    "Hello from Rust kernel!" ++ "\n" }

theorem probed_run : (probed boot platform).run s =
    (probeMemory platform.mapper boot).run (readied boot platform s) := rfl

/-- The state behind the last message. -/
theorem entered {s₂ s₃ s₄ : BootState σ} {first : List (Option PhysFrame)}
    {log : List (Page × PhysFrame)} {n : ℕ} (hs : PoweredOn boot owns s)
    (hmapped : Mapped platform.mapper boot.memoryRegions first (readied boot platform s) s₂ log)
    (hserves : Serves boot s₂.machine (log.map Prod.fst))
    (hmachine : s₂.machine = { (readied boot platform s).machine with
      heap := s₂.machine.heap
      world := { (readied boot platform s).machine.world with
        userMem := s₂.machine.world.userMem
        userModeContext := s₂.machine.world.userModeContext } })
    (hcomplete : Complete platform.mapper boot s log)
    (hbrought : Quiet boot platform.framebuffer (brought platform s₂) s₃)
    (hlooked : Quiet boot platform.framebuffer (s₃.withWorld (looked · n)) s₄) :
    Entered boot platform s s₄ ∧
      s₄.machine.world.kernel.timer.ticks = ticksAt s₃.machine.world n := by
  rcases hs.world with ⟨userMem, arrivals, hworld⟩
  -- the world before boot has touched it, with what the serial port has sent
  have hready : (readied boot platform s).machine.world =
      summarized boot { declared userMem arrivals with
        serial := (readied boot platform s).machine.world.serial } := by
    unfold readied
    rw [show s = s.withWorld fun _ => declared userMem arrivals by rw [← hworld]; rfl]
    rfl
  have hconsole := hlooked.console
  rcases hlooked.eq with ⟨serial, writer, hlooked⟩
  rcases hbrought.eq with ⟨serial', writer', hbrought⟩
  have hclock : s₄.machine.world.kernel.timer.ticks = ticksAt s₃.machine.world n := by
    rw [hlooked]
    rfl
  -- the world in the end: what boot has brought, at the clock of the last look
  have hworld₄ : s₄.machine.world = { (brought platform s₂).machine.world with
      kernel := { (brought platform s₂).machine.world.kernel with
        timer := { (brought platform s₂).machine.world.kernel.timer with
          ticks := ticksAt s₃.machine.world n } }
      keyboardIrqs := (looked s₃.machine.world n).keyboardIrqs
      dropped := (looked s₃.machine.world n).dropped
      arrivals := (looked s₃.machine.world n).arrivals
      serial, writer } := by
    calc s₄.machine.world = { looked s₃.machine.world n with serial, writer } := by
          rw [hlooked]
          rfl
      _ = _ := congrArg (fun w : World => { w with serial, writer }) (looked_eq s₃.machine.world n)
      _ = _ := by
          rw [hbrought]
          rfl
  have hfast : s₄.machine.fast = (scaffolded platform s₂).machine.fast := by
    rw [hlooked, hbrought]
    rfl
  have htables : s₄.tables = s₂.tables ∧ s₄.allocator = s₂.allocator := by
    rw [hlooked, hbrought]
    exact ⟨rfl, rfl⟩
  have hheap : s₄.machine.heap = s₂.machine.heap := by
    rw [hlooked, hbrought]
    rfl
  have hsame : s₂.machine.fast = s.machine.fast := by
    rw [hmachine]
    rfl
  refine ⟨⟨hconsole, ?_, ?_, ?_, ?_, ?_, ?_, first, log, ?_, ?_, hcomplete⟩, hclock⟩
  · rw [hworld₄]
    change s₂.machine.world.tasks.ensureBootstrapTask = _
    rw [hmachine, hready]
    rfl
  · rw [hworld₄]
    change s₂.machine.world.history = _
    rw [hmachine, hready]
    rfl
  · rw [hworld₄]
    change s₂.machine.world.session = _
    rw [hmachine, hready]
    rfl
  · rw [hworld₄]
    change s₂.machine.world.kernel.memorySummary = _
    rw [hmachine, hready]
    rfl
  · rw [hworld₄]
    change (s₂.machine.world.kernel.timer.setPitHz 100).2.pitHz = _
    rw [hmachine, hready]
    rfl
  · rw [hworld₄, hfast, ← hsame]
    exact scaffold_truthful platform.processor platform.crate.starAccepts platform.layout
      platform.lstar (gdt platform.crate) s₂.machine.fast
  · exact ⟨by rw [htables.1]; exact hmapped.binds, hmapped.inOrder, hmapped.own, hmapped.usable,
      by rw [htables.2]; exact hmapped.allocator, by rw [htables.2]; exact hmapped.cost⟩
  · have hcontext : s₄.machine.world.userModeContext = s₂.machine.world.userModeContext := by
      rw [hworld₄]
      rfl
    have hmem : s₄.machine.world.userMem = s₂.machine.world.userMem := by
      rw [hworld₄]
      rfl
    exact ⟨by rw [hheap]; exact hserves.heap, by rw [hcontext, hmem]; exact hserves.usermode⟩

/-- Looks leave the console alone. -/
theorem Quiet.looked {s' : BootState σ} (h : Quiet boot platform.framebuffer s s') (n : ℕ) :
    Quiet boot platform.framebuffer (s'.withWorld (Startup.looked · n))
      (s'.withWorld (Startup.looked · n)) := by
  refine ⟨rfl, ?_⟩
  change Displays boot platform.framebuffer (Startup.looked s'.machine.world n).writer
  rw [looked_eq]
  exact h.console

/-- A line on both outputs. -/
theorem announce_run (hfits : ∀ pair ∈ platform.framebuffer,
      FrameBufferWriter.Fits pair.2 pair.1.length) (line : String) {base s' : BootState σ}
    (h : Quiet boot platform.framebuffer base s') :
    ∃ s₁ s₂, (serialPrintln line).run s' = .ok () s₁ ∧ (println boot line).run s₁ = .ok () s₂ ∧
      Quiet boot platform.framebuffer base s₂ := by
  rcases serialPrintln_reaches line s' h with ⟨_, s₁, hrun₁, h₁⟩
  rcases println_reaches hfits line s₁ h₁ with ⟨_, s₂, hrun₂, h₂⟩
  exact ⟨s₁, s₂, hrun₁, hrun₂, h₂⟩

/-- The whole startup, with its phases put together. -/
theorem kernelMain_ends (hmap : PageMap boot.memoryRegions)
    (hlawful : platform.mapper.Lawful owns boot.memoryRegions)
    (hreadable : ∀ offset ∈ boot.physicalMemoryOffset, boot.paging.ReadableAt offset)
    (hfits : ∀ pair ∈ platform.framebuffer, FrameBufferWriter.Fits pair.2 pair.1.length)
    (hs : PoweredOn boot owns s) : KernelEnds boot platform s ((kernelMain boot platform).run s) := by
  rcases hs.world with ⟨userMem, arrivals, hworld⟩
  have hwriter : (readied boot platform s).machine.world.writer = none := by
    change s.machine.world.writer = none
    rw [hworld]
    rfl
  have hcontext : (readied boot platform s).machine.world.userModeContext = none := by
    change s.machine.world.userModeContext = none
    rw [hworld]
    rfl
  unfold kernelMain
  rcases probe_serves (s := readied boot platform s) hmap hlawful hreadable hs.allocator hs.unowned
    hs.heap hcontext with
      ⟨first, probe, s₂, log, hprobe, hmapped, hserves, hmachine, hcomplete⟩ | hpanic
  · have hs₂ : s₂.machine.world.writer = none := by
      rw [hmachine]
      exact hwriter
    rcases bring_reaches hmap hfits hmapped.allocator hs₂ first probe s₂ rfl with
      ⟨_, s₃, hbring, hbrought⟩
    have hclock : ∀ n, ticksAt s₃.machine.world n = ticksAt s.machine.world n := by
      rcases hbrought.eq with ⟨serial, writer, heq⟩
      refine ticksAt_congr ?_ ?_
      · rw [heq]
        change s₂.machine.world.kernel.timer.ticks = _
        rw [hmachine]
        rfl
      · rw [heq]
        change s₂.machine.world.arrivals = _
        rw [hmachine]
        rfl
    rw [run_bind_ok (probed_run.trans hprobe)]
    simp only
    rw [run_bind_ok hbring]
    unfold awaitTimer
    rcases waitForTicks_run timerTarget timerSpins s₃ with
      ⟨k, hk, hlate, hearly, hwait⟩ | ⟨hall, hwait⟩
    · rw [run_bind_ok hwait]
      rcases announce_run hfits
        s!"Timer interrupts active, observed ticks = {ticksAt s₃.machine.world (k + 1)}"
        (hbrought.looked (k + 1)) with ⟨_, s₄, hserial, hscreen, hquiet⟩
      rcases entered hs hmapped hserves hmachine hcomplete hbrought hquiet with ⟨hentered, hticks⟩
      simp only [hclock] at hlate hearly hticks
      exact Or.inl ⟨k, hk, hlate, hearly, s₄, (run_bind_ok hserial).trans hscreen, hentered, hticks⟩
    · rw [run_bind_ok hwait]
      rcases announce_run hfits "Timer interrupts not observed within timeout"
        (hbrought.looked timerSpins) with ⟨_, s₄, hserial, hscreen, _⟩
      simp only [hclock] at hall
      exact Or.inr (Or.inl ⟨hall, s₄, (run_bind_ok hserial).trans (run_bind_ok hscreen)⟩)
  · rcases hpanic with ⟨panic, s', hrun, hpanic⟩
    rw [run_bind_error (probed_run.trans hrun)]
    exact Or.inr (Or.inr ⟨panic, s', rfl, hpanic⟩)

/-- Where `kernel_main` returns, the machine has been entered. -/
theorem KernelEnds.entered {result : EStateM.Result Halt (BootState σ) Unit} {s' : BootState σ}
    (h : KernelEnds boot platform s result) (hresult : result = .ok () s') :
    Entered boot platform s s' := by
  rw [hresult] at h
  rcases h with ⟨_, _, _, _, _, hok, hentered, _⟩ | ⟨_, _, herror⟩ | ⟨_, _, herror, _⟩
  · cases hok
    exact hentered
  · cases herror
  · cases herror

/-- Where nothing is in the way of the pages, the monitor finds all that it relies on. -/
theorem Entered.booted_of_free (h : Entered boot platform s s') (hboot : boot.Successful)
    (hfits : ∀ pair ∈ platform.framebuffer, FrameBufferWriter.Fits pair.2 pair.1.length)
    (hsummary : boot.memorySummary = summarizeMemory boot.memoryRegions)
    (hfree : ∀ page ∈ bootPages, platform.mapper.frameOf s.tables page = none)
    (hmemory : 3 + 4 * bootPages.length ≤ (frames boot.memoryRegions).length) :
    Booted boot s'.machine.world := by
  refine h.booted hfits hsummary ?_
  rcases hboot.mapped with ⟨offset, hoffset, _⟩
  rcases h.memory with ⟨first, log, _, hserves, hcomplete⟩
  have hlog := hcomplete (by rw [hoffset]; nofun) hfree hmemory
  rcases hserves.usermode with ⟨hsome, _⟩ | ⟨_, hnot⟩
  · rw [hsome]
    nofun
  · -- the user pages are the last of all
    refine absurd (fun page hpage => ?_) hnot
    rw [hlog]
    exact List.mem_append_right _ (List.mem_append_right _ hpage)

/-- **Boot.** On any memory map, with any page tables, framebuffer and processor, and whatever
interrupts come in: `kernel_main` calls `input_loop` with a machine that is as it should be, unless
no tick is seen or the first allocation panics. The descriptors are in the order that `syscall`
needs, so its registers have been programmed exactly if the processor has it. Where nothing is in
the way of the pages, the monitor finds all that it relies on. -/
theorem kernel_main_enters (hmap : PageMap boot.memoryRegions)
    (hlawful : platform.mapper.Lawful owns boot.memoryRegions)
    (hreadable : ∀ offset ∈ boot.physicalMemoryOffset, boot.paging.ReadableAt offset)
    (hfits : ∀ pair ∈ platform.framebuffer, FrameBufferWriter.Fits pair.2 pair.1.length)
    (hs : PoweredOn boot owns s) :
    KernelEnds boot platform s ((kernelMain boot platform).run s) ∧
    (platform.crate.Documented → ∀ s', (kernelMain boot platform).run s = .ok () s' →
      (programmed s'.machine.world.fastSyscallStatus.stage ↔
        cpuSupportsSyscall platform.processor = true)) ∧
    (boot.Successful → boot.memorySummary = summarizeMemory boot.memoryRegions →
      (∀ page ∈ bootPages, platform.mapper.frameOf s.tables page = none) →
      3 + 4 * bootPages.length ≤ (frames boot.memoryRegions).length →
      ∀ s', (kernelMain boot platform).run s = .ok () s' → Booted boot s'.machine.world) := by
  have hends := kernelMain_ends hmap hlawful hreadable hfits hs
  refine ⟨hends, fun hcrate s' hrun => ?_, fun hboot hsummary hfree hmemory s' hrun =>
    (hends.entered hrun).booted_of_free hboot hfits hsummary hfree hmemory⟩
  rw [(hends.entered hrun).fast.programmed]
  exact and_iff_left (gdt_accepted hcrate)

/-- The sample machine with a framebuffer of one character and a processor with `syscall`. -/
def samplePlatform : Platform TableTree where
  mapper := TableTree.mapper
  framebuffer := some (List.replicate 64 0, ⟨8, 8, .u8, 1, 8⟩)
  processor := { cpuid := fun _ => ⟨0x80000008, 0x800⟩, writeEfer := id }
  crate := sampleCrate
  layout := ⟨0x8000010000, 0x8000020000, by decide, by decide, by decide⟩
  lstar := 0x8000005000
  debugBootInfo := "BootInfo"
  debugFrames := fun _ => "[]"

def samplePowerOn : BootState TableTree :=
  { sampleStart with machine := { sampleStart.machine with
    world := declared (fun _ => 0) fun _ => ⟨1, 0, 0⟩ } }

theorem samplePowerOn_poweredOn : PoweredOn sampleBoot TableTree.Owns samplePowerOn where
  world := ⟨_, _, rfl⟩
  heap := rfl
  allocator := rfl
  unowned := sampleStart_unowned

theorem samplePlatform_readable :
    ∀ offset ∈ sampleBoot.physicalMemoryOffset, sampleBoot.paging.ReadableAt offset := by
  intro offset hoffset
  rw [← Option.some.inj hoffset]
  exact sampleBoot_readable

theorem samplePlatform_fits :
    ∀ pair ∈ samplePlatform.framebuffer, FrameBufferWriter.Fits pair.2 pair.1.length := by
  intro pair hpair
  rw [← Option.some.inj hpair]
  exact ⟨by decide, by decide, by decide, by decide, by decide, by decide⟩

theorem samplePowerOn_ends : KernelEnds sampleBoot samplePlatform samplePowerOn
    ((kernelMain sampleBoot samplePlatform).run samplePowerOn) :=
  kernelMain_ends sampleBoot_pageMap (TableTree.mapper_lawful sampleBoot_pageMap)
    samplePlatform_readable samplePlatform_fits samplePowerOn_poweredOn

/-- One timer interrupt comes in before every look: the fifth look sees enough of them. -/
theorem samplePowerOn_enters : ∃ s', (kernelMain sampleBoot samplePlatform).run samplePowerOn =
    .ok () s' := by
  rcases samplePowerOn_ends with ⟨_, _, _, _, s', hrun, _⟩ | ⟨hearly, _⟩ | ⟨_, _, _, hpanic⟩
  · exact ⟨s', hrun⟩
  · exact absurd (hearly 4 (by decide)) (by decide)
  · rcases sampleBoot_successful.heap with ⟨values, hvalues, _⟩
    rw [hvalues] at hpanic
    cases hpanic

theorem sampleBoot_room : 3 + 4 * bootPages.length ≤ (frames sampleBoot.memoryRegions).length := by
  rw [length_frames, length_bootPages]
  decide

theorem kernel_main_enters_sample :
    ∃ s', (kernelMain sampleBoot samplePlatform).run samplePowerOn = .ok () s' ∧
      KernelEnds sampleBoot samplePlatform samplePowerOn (.ok () s') ∧
      programmed s'.machine.world.fastSyscallStatus.stage ∧ Booted sampleBoot s'.machine.world := by
  have hall : KernelEnds sampleBoot samplePlatform samplePowerOn
      ((kernelMain sampleBoot samplePlatform).run samplePowerOn) ∧ _ :=
    kernel_main_enters sampleBoot_pageMap (TableTree.mapper_lawful sampleBoot_pageMap)
      samplePlatform_readable samplePlatform_fits samplePowerOn_poweredOn
  rcases hall with ⟨hends, hprogrammed, hbooted⟩
  rcases samplePowerOn_enters with ⟨s', hrun⟩
  rw [hrun] at hends
  exact ⟨s', hrun, hends, (hprogrammed sampleCrate_documented s' hrun).mpr (by decide),
    hbooted sampleBoot_successful rfl (fun _ _ => rfl) sampleBoot_room s' hrun⟩

end

end JingOS.Startup
