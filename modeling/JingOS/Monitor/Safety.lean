import JingOS.Monitor.Command
import JingOS.Task.Spec

/-!
# Safety of the commands

A panic ends the whole kernel, so every command is followed with every argument.

* `Boot.Successful`, `Booted` — what a successful boot leaves behind;
* `World.Inv` — what the commands rely on: console, history and scheduler cursor in order;
* `Framed` — the invariant, and a part of the state that stays as it is;
* one lemma for each command, `Safe (Framed part a) E`; `E` is arbitrary where the command
  returns, and `part` where the command leaves it alone;
* `executeCommand_safe` — the one way to a panic is `vm` with a non-canonical address.
-/

namespace JingOS.Monitor

open Checked Hoare Text
open JingOS.Framebuffer JingOS.Interrupts JingOS.Memory JingOS.Syscall JingOS.Task JingOS.Usermode

/-! ## After boot -/

/-- A boot that found everything: physical memory is mapped, with the page tables readable, and
the heap served the probe that boot itself makes. The pointers of the running kernel are
canonical, as the processor requires. -/
structure Boot.Successful (boot : Boot) : Prop where
  mapped : ∃ offset, boot.physicalMemoryOffset = some offset ∧ boot.paging.ReadableAt offset
  heap : (probeAllocations boot).Returns fun _ => True
  regions : boot.memoryRegions.length < 2 ^ 64
  stack : IsCanonical boot.stackPointer
  code : IsCanonical boot.codePointer

/-- The state when boot enters `input_loop`: the console, if there is one, has shown the
messages of boot. -/
structure Booted (boot : Boot) (w : World) : Prop where
  console : ∀ writer ∈ w.writer, ∃ buffer info messages,
    FrameBufferWriter.Fits info buffer.length ∧
    (FrameBufferWriter.new buffer info).clear.writeStr boot.font messages = .ok writer
  tasks : w.tasks = bootstrapped
  history : w.history = CommandHistory.new
  session : w.session = { exitExpected := false, pendingKind := none, lastReport := none }
  context : w.userModeContext = some ⟨userCodeStart, userStackTop⟩
  memorySummary : w.kernel.memorySummary = some boot.memorySummary

/-! ## The invariant -/

structure World.Inv (w : World) : Prop where
  writer : ∀ writer ∈ w.writer, writer.Inv
  history : w.history.Inv
  cursor : w.tasks.nextRrIndex < maxTasks

/-- The world that the startup leaves is a good one. -/
theorem Booted.inv {boot : Boot} {w : World} (h : Booted boot w) : w.Inv where
  writer := by
    intro writer hwriter
    obtain ⟨buffer, info, messages, hfits, hwrite⟩ := h.console writer hwriter
    obtain ⟨writer', hwrite', hinv⟩ := FrameBufferWriter.writeStr_returns boot.font
      (FrameBufferWriter.clear_inv (FrameBufferWriter.new_inv hfits)) messages
    rw [hwrite, Except.ok.injEq] at hwrite'
    rw [hwrite']
    exact hinv
  history := by
    rw [h.history]
    exact CommandHistory.new_inv
  cursor := by
    rw [h.tasks]
    decide

/-! ## What the commands leave alone -/

/-- A part of the state that clock, console, scheduler and ring 3 do not touch. -/
class Apart {α : Type} (part : World → α) : Prop where
  interrupted : ∀ w : World, part w.interrupted = part w
  kernel : ∀ (w : World) kernel, part { w with kernel } = part w
  serial : ∀ (w : World) serial, part { w with serial } = part w
  writer : ∀ (w : World) writer, part { w with writer } = part w
  tasks : ∀ (w : World) tasks, part { w with tasks } = part w
  session : ∀ (w : World) session userMem, part { w with session, userMem } = part w

instance : Apart fun _ => () := ⟨fun _ => rfl, fun _ _ => rfl, fun _ _ => rfl, fun _ _ => rfl,
  fun _ _ => rfl, fun _ _ _ => rfl⟩

instance : Apart World.history := ⟨fun _ => rfl, fun _ _ => rfl, fun _ _ => rfl, fun _ _ => rfl,
  fun _ _ => rfl, fun _ _ _ => rfl⟩

instance : Apart fun w => w.autoScheduler.enabled := ⟨fun _ => rfl, fun _ _ => rfl, fun _ _ => rfl,
  fun _ _ => rfl, fun _ _ => rfl, fun _ _ _ => rfl⟩

/-- The invariant, with the part as it was. -/
structure Framed {α : Type} (part : World → α) (a : α) (w : World) : Prop extends World.Inv w where
  same : part w = a

/-- The invariant alone. -/
theorem unframed {α : Type} {E : Stop → Prop} {x : MonitorM α} {Q : α → Prop}
    (h : Ensures (Framed (fun _ => ()) ()) E x Q) : Ensures World.Inv E x Q := by
  intro w hw
  have hrun := h w ⟨hw, rfl⟩
  revert hrun
  cases x.run w with
  | ok a w' => exact fun hrun => ⟨hrun.1, hrun.2.toInv⟩
  | error e w' => exact fun hrun => ⟨hrun.1, hrun.2.toInv⟩

section Commands

variable {E : Stop → Prop} {boot : Boot} {β : Type} {part : World → β} [Apart part] {a : β}

/-! ## Clock and console -/

theorem interrupted_safe : Safe (Framed part a) E (modify World.interrupted) :=
  Safe.modify fun w hw =>
    ⟨⟨hw.writer, hw.history, hw.cursor⟩, (Apart.interrupted w).trans hw.same⟩

theorem ticks_safe : Safe (Framed part a) E ticks :=
  interrupted_safe.bind fun _ => Safe.get fun _ _ => Safe.pure _

omit [Apart part] in
theorem pitHz_safe : Safe (Framed part a) E pitHz := Safe.get fun _ _ => Safe.pure _

theorem setPitHz_safe (requestedHz : UInt32) : Safe (Framed part a) E (setPitHz requestedHz) :=
  Safe.modifyGet fun w hw =>
    ⟨⟨hw.writer, hw.history, hw.cursor⟩, (Apart.kernel w _).trans hw.same⟩

theorem keyboardCounters_safe : Safe (Framed part a) E keyboardCounters :=
  interrupted_safe.bind fun _ => Safe.get fun _ _ => Safe.pure _

theorem serial_safe (sent : World → String) :
    Safe (Framed part a) E (modify fun w => { w with serial := sent w }) :=
  Safe.modify fun w hw =>
    ⟨⟨hw.writer, hw.history, hw.cursor⟩, (Apart.serial w _).trans hw.same⟩

theorem print_safe (text : String) : Safe (Framed part a) E (print boot text) := by
  refine Safe.get fun w hw => ?_
  -- without a framebuffer nothing is written
  cases hwriter : w.writer with
  | none => exact Safe.pure _
  | some writer =>
    have hwrite := FrameBufferWriter.writeStr_returns boot.font (hw.writer writer hwriter) text
    refine (Ensures.lift hwrite).bind fun writer' hinv => Safe.modify fun w hw => ?_
    exact ⟨⟨by rintro _ ⟨⟩; exact hinv, hw.history, hw.cursor⟩, (Apart.writer w _).trans hw.same⟩

theorem printlnWith_safe {text : MonitorM String} (h : Safe (Framed part a) E text) :
    Safe (Framed part a) E (consolePrintlnWith boot text) := by
  refine h.bind fun line => ?_
  refine (serial_safe _).bind fun _ => ?_
  exact h.bind fun line => print_safe _

theorem println_safe (text : String) : Safe (Framed part a) E (consolePrintln boot text) :=
  printlnWith_safe (Safe.pure text)

theorem consolePrint_safe (text : String) : Safe (Framed part a) E (consolePrint boot text) :=
  (serial_safe _).bind fun _ => print_safe _

theorem clearScreen_safe : Safe (Framed part a) E clearScreen := by
  refine Safe.modify fun w hw =>
    ⟨⟨?_, hw.history, hw.cursor⟩, (Apart.writer w _).trans hw.same⟩
  intro writer hwriter
  obtain ⟨old, hold, rfl⟩ := Option.map_eq_some_iff.mp hwriter
  exact FrameBufferWriter.clear_inv (hw.writer old hold)

/-! ## Status and time -/

theorem status_safe : Safe (Framed part a) E (statusCommand boot) :=
  keyboardCounters_safe.bind fun _ => printlnWith_safe (ticks_safe.bind fun _ => Safe.pure _)

theorem ticksCommand_safe : Safe (Framed part a) E (ticksCommand boot) :=
  printlnWith_safe (ticks_safe.bind fun _ => Safe.pure _)

/-- The rate is at least 19, and what is left of a second is below it. -/
theorem uptime_safe : Safe (Framed part a) E (uptimeCommand boot) := by
  refine ticks_safe.bind fun ticks => pitHz_safe.bind fun rate => ?_
  have hpos : rate.hz.toNat ≠ 0 := rate.pos.ne'
  have hhz := rate.hz.toNat_lt
  have hrest : ticks.toNat % rate.hz.toNat < rate.hz.toNat := Nat.mod_lt _ rate.pos
  refine Ensures.lift_eq (div_eq hpos) ?_
  refine Ensures.lift_eq (rem_eq hpos) ?_
  refine Ensures.lift_eq (mul_eq (by omega)) ?_
  exact Ensures.lift_eq (div_eq hpos) (println_safe _)

theorem timerhz_safe (args : List String) : Safe (Framed part a) E (timerhzCommand boot args) := by
  unfold timerhzCommand
  split
  · exact printlnWith_safe (pitHz_safe.bind fun _ => Safe.pure _)
  · split
    · exact println_safe _
    · exact pitHz_safe.bind fun _ => (setPitHz_safe _).bind fun _ => println_safe _

theorem irq_safe : Safe (Framed part a) E (irqCommand boot) :=
  keyboardCounters_safe.bind fun _ => println_safe _

/-! ## Memory -/

/-- No more regions are shown than there are. -/
theorem mapsLoop_ensures (limit : Option ℕ) (regions : List MemoryRegion) (index shown : ℕ)
    (h : shown + regions.length < 2 ^ 64) :
    Ensures (Framed part a) E (mapsLoop boot limit index shown regions)
      fun total => total ≤ shown + regions.length := by
  induction regions generalizing index shown with
  | nil => exact Ensures.pure (Nat.le_refl _)
  | cons region rest ih =>
    unfold mapsLoop
    rw [List.length_cons] at h ⊢
    -- the limit is reached, or one more region is shown
    split
    · exact Ensures.pure (by omega)
    · refine Ensures.bind (println_safe _) fun _ _ => ?_
      refine Ensures.lift_eq (add_eq (by omega)) ?_
      exact (ih (index + 1) (shown + 1) (by omega)).mono (fun _ => id) fun total htotal => by omega

theorem printMaps_safe (h : boot.memoryRegions.length < 2 ^ 64) (limit : Option ℕ) :
    Safe (Framed part a) E (printMaps boot limit) := by
  refine (println_safe _).bind fun _ => ?_
  refine Ensures.bind (mapsLoop_ensures limit boot.memoryRegions 0 0 (by omega)) fun shown hshown => ?_
  split
  · exact Ensures.lift_eq (sub_eq (by omega)) (println_safe _)
  · exact Safe.pure _

theorem maps_safe (h : boot.memoryRegions.length < 2 ^ 64) (args : List String) :
    Safe (Framed part a) E (mapsCommand boot args) := by
  unfold mapsCommand
  split
  · exact printMaps_safe h _
  · split
    · exact printMaps_safe h _
    · split
      · exact println_safe _
      · exact printMaps_safe h _

theorem heap_safe (h : (probeAllocations boot).Returns fun _ => True) :
    Safe (Framed part a) E (heapCommand boot) :=
  Ensures.bind (Ensures.lift h) fun _ _ => println_safe _

/-- The page of a canonical address is canonical. -/
theorem pageOf_canonical {address : UInt64} (h : IsCanonical address) :
    IsCanonical (pageOf address) := by
  have hlow : (pageOf address).toNat = address.toNat / 2 ^ 12 * 2 ^ 12 := by
    have hmask : (0xfffffffffffff000 : UInt64).toNat = (2 ^ 52 - 1) * 2 ^ 12 := by decide
    rw [pageOf, UInt64.toNat_and, hmask]
    refine Nat.eq_of_testBit_eq fun i => ?_
    rw [Nat.testBit_and, Nat.testBit_mul_two_pow, Nat.testBit_mul_two_pow,
      Nat.testBit_two_pow_sub_one, Nat.testBit_div_two_pow]
    -- below bit 12 both sides are 0; above it the mask has ones up to the top of the word
    by_cases hi : 12 ≤ i
    · by_cases hi' : i - 12 < 52
      · simp [hi, hi', Nat.sub_add_cancel hi]
      · have hbit : address.toNat.testBit i = false :=
          Nat.testBit_lt_two_pow (lt_of_lt_of_le address.toNat_lt
            (Nat.pow_le_pow_right (by decide) (by omega)))
        simp [hi, hbit, Nat.sub_add_cancel hi]
    · simp [hi]
  unfold IsCanonical at h ⊢
  rw [hlow]
  omega

/-- Everything that `vm` and `vmmap` look up of themselves is canonical. -/
theorem importantMappings_canonical (hstack : IsCanonical boot.stackPointer)
    (hcode : IsCanonical boot.codePointer) :
    ∀ mapping ∈ importantMappings boot, IsCanonical mapping.1 := by
  intro mapping hmem
  simp only [importantMappings, List.mem_cons, List.not_mem_nil, or_false] at hmem
  rcases hmem with rfl | rfl | rfl | rfl | rfl
  · decide
  · decide
  · decide
  · exact pageOf_canonical hstack
  · exact pageOf_canonical hcode

theorem printVmTranslation_safe {offset virtualAddress : UInt64}
    (h : boot.paging.ReadableAt offset) (hcanonical : IsCanonical virtualAddress) (label : String) :
    Safe (Framed part a) E (printVmTranslation boot offset virtualAddress label) := by
  refine Ensures.bind (Ensures.lift (translateVirtualAddress_returns h hcanonical)) fun physical _ => ?_
  cases physical with
  | none => exact println_safe _
  | some physicalAddress => exact println_safe _

theorem printVmWalk_safe {offset : UInt64} (h : boot.paging.ReadableAt offset)
    (virtualAddress : UInt64) (label : String) :
    Safe (Framed part a) E (printVmWalk boot offset virtualAddress label) := by
  refine Ensures.bind (Ensures.lift (walkVirtualAddress_returns h virtualAddress)) fun walk _ => ?_
  refine (println_safe _).bind fun _ => (println_safe _).bind fun _ => ?_
  split
  · exact println_safe _
  · exact println_safe _

/-- `vmmap` returns for every argument. -/
theorem vmmap_safe (h : boot.Successful) (args : List String) :
    Safe (Framed part a) E (vmmapCommand boot args) := by
  obtain ⟨offset, hoffset, hreadable⟩ := h.mapped
  unfold vmmapCommand
  rw [hoffset]
  simp only
  split
  · split
    · exact println_safe _
    · exact printVmWalk_safe hreadable _ _
  · exact (println_safe _).bind fun _ => Safe.forM fun mapping _ => printVmWalk_safe hreadable _ _

/-- `vm` returns for every argument that does not stand for a non-canonical address. -/
theorem vm_safe (h : boot.Successful) {args : List String}
    (hargs : ∀ rawAddr rest address, args = rawAddr :: rest → parseU64 rawAddr = some address →
      ¬ IsCanonical address → E (.panic VirtAddr.panicNew)) :
    Safe (Framed part a) E (vmCommand boot args) := by
  obtain ⟨offset, hoffset, hreadable⟩ := h.mapped
  unfold vmCommand
  rw [hoffset]
  simp only
  split
  · next rawAddr rest =>
    split
    · exact println_safe _
    · next virtualAddress hparse =>
      -- the only stop of a command that depends on its argument
      by_cases hcanonical : IsCanonical virtualAddress
      · have htranslate := translateVirtualAddress_returns hreadable hcanonical
        refine Ensures.bind (Ensures.lift htranslate) fun physical _ => ?_
        cases physical with
        | none => exact println_safe _
        | some physicalAddress => exact println_safe _
      · rw [translateVirtualAddress_panics hreadable hcanonical]
        refine Safe.bind (Safe.throw (hargs rawAddr rest virtualAddress rfl hparse hcanonical)) fun _ => ?_
        split <;> exact println_safe _
  · refine (println_safe _).bind fun _ => Safe.forM fun mapping hmem => ?_
    exact printVmTranslation_safe hreadable (importantMappings_canonical h.stack h.code mapping hmem) _

theorem faultAt_safe (hfault : ∀ address, E (.fault address)) (address : UInt64) :
    Safe (Framed part a) E (faultAt boot address) := by
  refine (println_safe _).bind fun _ => ?_
  split
  · exact Safe.pure _
  · exact Safe.throw (hfault _)

theorem fault_safe (hfault : ∀ address, E (.fault address)) (args : List String) :
    Safe (Framed part a) E (faultCommand boot args) := by
  unfold faultCommand
  split
  · exact faultAt_safe hfault _
  · split
    · exact println_safe _
    · exact faultAt_safe hfault _

/-! ## System calls and ring 3 -/

theorem invokeViaInterrupt_safe (number arg0 arg1 arg2 : UInt64) :
    Safe (Framed part a) E (invokeViaInterrupt number arg0 arg1 arg2) :=
  interrupted_safe.bind fun _ => Safe.get fun _ _ => Safe.pure _

theorem syscall_safe (args : List String) : Safe (Framed part a) E (syscallCommand boot args) := by
  unfold syscallCommand
  split
  · exact println_safe _
  · split
    · exact println_safe _
    · split
      · exact println_safe _
      · exact println_safe _
      · exact println_safe _
      · refine (invokeViaInterrupt_safe _ _ _ _).bind fun result => ?_
        cases result with
        | ok value => exact println_safe _
        | error error => exact println_safe _

theorem sysabi_safe : Safe (Framed part a) E (sysabiCommand boot) := by
  refine (println_safe _).bind fun _ => (println_safe _).bind fun _ => Safe.get fun w _ => ?_
  refine (println_safe _).bind fun _ => ?_
  refine (Safe.forM fun _ _ => println_safe _).bind fun _ => ?_
  refine (Safe.forM fun _ _ => println_safe _).bind fun _ => ?_
  exact Safe.forM fun _ _ => println_safe _

theorem runUserDemo_safe : Safe (Framed part a) E runUserDemo.run := by
  refine Safe.exceptBind (invokeViaInterrupt_safe _ _ _ _) fun ticks => ?_
  refine Safe.exceptBind (invokeViaInterrupt_safe _ _ _ _) fun uptimeSeconds => ?_
  refine Safe.exceptBind (invokeViaInterrupt_safe _ _ _ _) fun sum => ?_
  refine Safe.exceptBind (invokeViaInterrupt_safe _ _ _ _) fun usableBytes => ?_
  refine Safe.exceptBind (invokeViaInterrupt_safe _ _ _ _) fun usableFrames => ?_
  exact Safe.pure _

theorem runDemoCode_safe (hring3 : ∀ context, E (.ring3 context)) (code : List UInt8)
    (kind : Option FastSyscallDemoKind) : Safe (Framed part a) E (runDemoCode code kind) := by
  refine Safe.get fun w _ => ?_
  cases w.userModeContext with
  | none => exact Safe.pure _
  | some context =>
    -- control leaves with the session open
    refine (Safe.modify fun w hw => ⟨⟨hw.writer, hw.history, hw.cursor⟩,
      (Apart.session w _ _).trans hw.same⟩).bind fun _ => ?_
    exact Safe.throw (hring3 context)

theorem runBuiltCode_safe (hring3 : ∀ context, E (.ring3 context))
    (code : Except String UserCodeBuilder) (kind : FastSyscallDemoKind) :
    Safe (Framed part a) E (runBuiltCode code kind) := by
  cases code with
  | error error => exact Safe.pure _
  | ok builder => exact runDemoCode_safe hring3 _ _

theorem reportRing3_safe (result : Except String Unit) (unexpected failed : String) :
    Safe (Framed part a) E (reportRing3 boot result unexpected failed) := by
  cases result with
  | ok _ => exact println_safe _
  | error error => exact println_safe _

theorem userdemo_safe : Safe (Framed part a) E (userdemoCommand boot) := by
  refine runUserDemo_safe.bind fun result => ?_
  cases result with
  | ok report => exact println_safe _
  | error error => exact println_safe _

theorem usermode_safe (hring3 : ∀ context, E (.ring3 context)) :
    Safe (Framed part a) E (usermodeCommand boot) :=
  (println_safe _).bind fun _ => (runDemoCode_safe hring3 _ _).bind fun _ => reportRing3_safe _ _ _

theorem usermodeSyscall_safe (hring3 : ∀ context, E (.ring3 context)) :
    Safe (Framed part a) E (usermodeSyscallCommand boot) :=
  (println_safe _).bind fun _ => (runBuiltCode_safe hring3 _ _).bind fun _ => reportRing3_safe _ _ _

theorem usermodeSyscallFail_safe (hring3 : ∀ context, E (.ring3 context)) :
    Safe (Framed part a) E (usermodeSyscallFailCommand boot) :=
  (println_safe _).bind fun _ => (runBuiltCode_safe hring3 _ _).bind fun _ => reportRing3_safe _ _ _

/-! ## Tasks -/

/-- A call that keeps the cursor on the table. -/
theorem withTasks_safe {α : Type} {call : TaskTable → α × TaskTable}
    (h : ∀ t, t.nextRrIndex < maxTasks → (call t).2.nextRrIndex < maxTasks) :
    Safe (Framed part a) E (withTasks call) :=
  Safe.modifyGet fun w hw =>
    ⟨⟨hw.writer, hw.history, h w.tasks hw.cursor⟩, (Apart.tasks w _).trans hw.same⟩

theorem taskStep_safe (now : UInt64) : Safe (Framed part a) E (taskStep now) := by
  refine Safe.get fun w hw => ?_
  have hcursor : w.tasks.nextRrIndex < 8 := hw.cursor
  refine Ensures.lift_eq (add_eq (by unfold maxTasks; omega)) ?_
  exact withTasks_safe fun t ht => exec_cursor_lt ht (.step now)

/-- The array of the caller has room for all tasks. -/
theorem listLoop_returns (tasks : List TaskInfo) (output : List (Option TaskInfo)) (count : ℕ)
    (h : count + tasks.length ≤ output.length) (hlt : output.length < 2 ^ 64) :
    (listLoop output count tasks).Returns fun _ => True := by
  induction tasks generalizing output count with
  | nil => exact Returns.pure trivial
  | cons task rest ih =>
    rw [List.length_cons] at h
    unfold listLoop
    rw [store_eq (by omega), add_eq (by omega)]
    refine ih _ _ ?_ ?_
    · rw [List.length_set]
      omega
    · rw [List.length_set]
      exact hlt

theorem tasks_safe : Safe (Framed part a) E (tasksCommand boot) := by
  refine Safe.get fun w _ => (println_safe _).bind fun _ => ?_
  have hcount : w.tasks.tasks.length ≤ maxTasks := by
    unfold TaskTable.tasks
    exact (List.length_filterMap_le _ _).trans (by rw [List.length_finRange])
  have hlist := listLoop_returns w.tasks.tasks (List.replicate maxTasks none) 0
    (by rw [List.length_replicate]; omega) (by rw [List.length_replicate]; decide)
  refine Ensures.bind (Ensures.lift hlist) ?_
  rintro ⟨count, entries⟩ _
  simp only
  split
  · exact println_safe _
  · exact Safe.forM fun _ _ => println_safe _

theorem tasknew_safe (args : List String) : Safe (Framed part a) E (tasknewCommand boot args) := by
  unfold tasknewCommand
  simp only
  split
  · exact println_safe _
  · next kind _ =>
    refine Safe.bind (withTasks_safe fun t ht => ?_) fun result => ?_
    · exact exec_cursor_lt ht (.spawn kind)
    · cases result with
      | ok id => exact println_safe _
      | error error => exact println_safe _

/-- A payload may leave for ring 3, and does not panic. -/
theorem runTaskPayload_safe (hring3 : ∀ context, E (.ring3 context)) (kind : TaskKind) :
    Safe (Framed part a) E (runTaskPayload boot kind) := by
  cases kind with
  | kernelMonitor => exact Safe.pure _
  | userDemo =>
    refine runUserDemo_safe.bind fun result => ?_
    cases result with
    | ok report => exact println_safe _
    | error error => exact println_safe _
  | fastSyscallSuccess =>
    exact (println_safe _).bind fun _ =>
      (runBuiltCode_safe hring3 _ _).bind fun _ => reportRing3_safe _ _ _
  | fastSyscallError =>
    exact (println_safe _).bind fun _ =>
      (runBuiltCode_safe hring3 _ _).bind fun _ => reportRing3_safe _ _ _

theorem runTaskStep_safe (hring3 : ∀ context, E (.ring3 context)) (label : String)
    (printNoReady : Bool) :
    Safe (Framed part a) E (runTaskStepWithLabelInternal boot label printNoReady) := by
  refine ticks_safe.bind fun now => (taskStep_safe now).bind fun report => ?_
  cases report with
  | none =>
    simp only
    split
    · exact (println_safe _).bind fun _ => Safe.pure _
    · exact Safe.pure _
  | some report =>
    exact (println_safe _).bind fun _ => (runTaskPayload_safe hring3 _).bind fun _ => Safe.pure _

theorem taskstep_safe (hring3 : ∀ context, E (.ring3 context)) :
    Safe (Framed part a) E (taskstepCommand boot) :=
  (runTaskStep_safe hring3 _ _).bind fun _ => Safe.pure _

/-- The batch, by induction on what is left of it. -/
theorem taskrunLoop_safe (hring3 : ∀ context, E (.ring3 context)) (left : ℕ) (executed : UInt64) :
    Safe (Framed part a) E (taskrunLoop boot left executed) := by
  induction left generalizing executed with
  | zero => exact Safe.pure _
  | succ left ih =>
    refine (runTaskStep_safe hring3 _ _).bind fun ran => ?_
    split
    · exact ih _
    · exact Safe.pure _

theorem taskrun_safe (hring3 : ∀ context, E (.ring3 context)) (args : List String) :
    Safe (Framed part a) E (taskrunCommand boot args) := by
  have hrun : ∀ steps, Safe (Framed part a) E (taskrun boot steps) := fun steps =>
    (taskrunLoop_safe hring3 _ _).bind fun _ => println_safe _
  unfold taskrunCommand
  split
  · exact hrun _
  · split
    · exact println_safe _
    · split
      · exact println_safe _
      · exact hrun _

theorem tasksleep_safe (args : List String) : Safe (Framed part a) E (tasksleepCommand boot args) := by
  have hsleep : ∀ id ticks, Safe (Framed part a) E (tasksleep boot id ticks) := by
    intro id ticks
    refine ticks_safe.bind fun now => ?_
    refine Safe.bind (withTasks_safe fun t ht => ?_) fun result => ?_
    · exact exec_cursor_lt ht (.sleep id ticks now)
    · cases result with
      | ok untilTick => exact println_safe _
      | error error => exact println_safe _
  unfold tasksleepCommand
  simp only
  split
  · exact println_safe _
  · split
    · exact println_safe _
    · split
      · exact hsleep _ _
      · split
        · exact println_safe _
        · split
          · exact println_safe _
          · exact hsleep _ _

/-- The commands on one task, whatever they do to it. -/
theorem taskCommand_safe {name done : String}
    {call : UInt64 → UInt64 → TaskTable → Except String TaskInfo × TaskTable}
    (h : ∀ id now t, t.nextRrIndex < maxTasks → (call id now t).2.nextRrIndex < maxTasks)
    (args : List String) : Safe (Framed part a) E (taskCommand boot name done call args) := by
  unfold taskCommand
  split
  · exact println_safe _
  · split
    · exact println_safe _
    · refine ticks_safe.bind fun now => (withTasks_safe (h _ now)).bind fun result => ?_
      cases result with
      | ok info => exact println_safe _
      | error error => exact println_safe _

theorem taskwake_safe (args : List String) : Safe (Framed part a) E (taskwakeCommand boot args) :=
  taskCommand_safe (fun id now _ ht => exec_cursor_lt ht (.wake id now)) args

theorem taskrm_safe (args : List String) : Safe (Framed part a) E (taskrmCommand boot args) :=
  taskCommand_safe (fun id now _ ht => exec_cursor_lt ht (.remove id now)) args

theorem taskprio_safe (args : List String) : Safe (Framed part a) E (taskprioCommand boot args) := by
  unfold taskprioCommand
  simp only
  split
  · exact println_safe _
  · split
    · exact println_safe _
    · next taskId _ =>
      split
      · exact println_safe _
      · split
        · exact println_safe _
        · refine ticks_safe.bind fun now => ?_
          refine Safe.bind (withTasks_safe fun t ht => ?_) fun result => ?_
          · exact exec_cursor_lt ht (.setPriority taskId _ now)
          · cases result with
            | ok info => exact println_safe _
            | error error => exact println_safe _

/-- The one command that touches the automatic scheduler. -/
theorem taskauto_safe (hauto : ∀ (w : World) autoScheduler, part { w with autoScheduler } = part w)
    (args : List String) : Safe (Framed part a) E (taskautoCommand boot args) := by
  have hset : ∀ auto : World → SchedulerAutoMode,
      Safe (Framed part a) E (modify fun w => { w with autoScheduler := auto w }) :=
    fun auto => Safe.modify fun w hw =>
      ⟨⟨hw.writer, hw.history, hw.cursor⟩, (hauto w _).trans hw.same⟩
  have hon : ∀ interval now, Safe (Framed part a) E (taskautoOn boot interval now) :=
    fun interval now => (hset _).bind fun _ => println_safe _
  refine ticks_safe.bind fun now => Safe.get fun w _ => ?_
  simp only
  split
  · exact println_safe _
  · split
    · exact (hset _).bind fun _ => println_safe _
    · split
      · split
        · exact hon _ _
        · split
          · exact println_safe _
          · split
            · exact println_safe _
            · exact hon _ _
      · exact println_safe _

/-! ## History and screen -/

theorem printEntry_safe {history : CommandHistory} (h : history.Inv) {index : ℕ}
    (hindex : index < history.len) : Safe (Framed part a) E (printEntry boot history index) := by
  refine Ensures.lift_eq (sub_eq (by omega)) ?_
  refine Ensures.lift_eq (sub_eq (by omega)) ?_
  refine Ensures.bind (Ensures.lift (CommandHistory.entryByAge_returns h _)) fun entry hentry => ?_
  cases entry with
  | none => exact Safe.pure _
  | some entry =>
    exact Ensures.bind (Ensures.lift (HistoryEntry.asStr_returns (hentry entry rfl))) fun _ _ =>
      println_safe _

theorem history_safe : Safe (Framed part a) E (historyCommand boot) := by
  refine Safe.get fun w hw => ?_
  split
  · exact println_safe _
  · exact Safe.forM fun index hindex => printEntry_safe hw.history (List.mem_range.mp hindex)

theorem clear_safe : Safe (Framed part a) E (clearCommand boot) :=
  clearScreen_safe.bind fun _ => println_safe _

/-! ## Every command line -/

/-- `vm` with an argument that stands for a non-canonical address. -/
def LooksUpNonCanonical (words : List String) : Prop :=
  ∃ rawAddr rest address, words = "vm" :: rawAddr :: rest ∧ parseU64 rawAddr = some address ∧
    ¬ IsCanonical address

/-- A stop that is not a panic. -/
def NoPanic (stop : Stop) : Prop := ∀ panic, stop ≠ .panic panic

/-- No command panics, apart from a lookup of an address that is not canonical. -/
theorem runCommand_safe (h : boot.Successful) (hE : ∀ stop, NoPanic stop → E stop)
    (hauto : ∀ (w : World) autoScheduler, part { w with autoScheduler } = part w)
    {command : String} {args : List String}
    (hvm : LooksUpNonCanonical (command :: args) → E (.panic VirtAddr.panicNew)) (line : String) :
    Safe (Framed part a) E (runCommand boot line command args) := by
  have hring3 : ∀ context, E (.ring3 context) := fun context => hE _ (by simp [NoPanic])
  have hfault : ∀ address, E (.fault address) := fun address => hE _ (by simp [NoPanic])
  unfold runCommand
  split
  · exact println_safe _
  · exact status_safe
  · exact ticksCommand_safe
  · exact uptime_safe
  · exact timerhz_safe _
  · exact irq_safe
  · exact println_safe _
  · exact maps_safe h.regions _
  · exact heap_safe h.heap
  · refine vm_safe h fun rawAddr rest address hargs hparse hcanonical => ?_
    exact hvm ⟨rawAddr, rest, address, by rw [hargs], hparse, hcanonical⟩
  · exact vmmap_safe h _
  · exact fault_safe hfault _
  · exact syscall_safe _
  · exact sysabi_safe
  · exact tasks_safe
  · exact tasknew_safe _
  · exact taskstep_safe hring3
  · exact taskrun_safe hring3 _
  · exact tasksleep_safe _
  · exact taskwake_safe _
  · exact taskrm_safe _
  · exact taskprio_safe _
  · exact taskauto_safe hauto _
  · exact userdemo_safe
  · exact usermode_safe hring3
  · exact usermodeSyscall_safe hring3
  · exact usermodeSyscallFail_safe hring3
  · exact println_safe _
  · exact history_safe
  · exact clear_safe
  · exact println_safe _

/-- No line panics, apart from such a lookup. -/
theorem executeCommand_safe (h : boot.Successful) (hE : ∀ stop, NoPanic stop → E stop)
    (hauto : ∀ (w : World) autoScheduler, part { w with autoScheduler } = part w)
    {line : String}
    (hvm : LooksUpNonCanonical (splitWhitespace line) → E (.panic VirtAddr.panicNew)) :
    Safe (Framed part a) E (executeCommand boot line) := by
  unfold executeCommand
  split
  · exact Safe.pure _
  · next command args hwords =>
    rw [hwords] at hvm
    split
    · exact Safe.pure _
    · exact (runCommand_safe h hE hauto hvm line).bind fun _ => Safe.pure _

/-! ## Between the commands -/

theorem startInputLoop_safe : Safe World.Inv E (startInputLoop boot) := by
  refine Safe.bind (unframed ticks_safe) fun startTicks => ?_
  refine (Safe.modify fun _ hw => ⟨hw.writer, CommandHistory.new_inv, hw.cursor⟩).bind fun _ => ?_
  refine unframed ((println_safe _).bind fun _ => (println_safe _).bind fun _ => ?_)
  exact (println_safe _).bind fun _ => consolePrint_safe _

theorem printReport_safe (report : Option FastSyscallDemoReport) :
    Safe (Framed part a) E (printReport boot report) := by
  unfold printReport
  split
  · exact Safe.pure _
  · split
    · exact println_safe _
    · exact (println_safe _).bind fun _ => println_safe _

theorem exitSession_safe (registers : SyscallRegisters) :
    Safe World.Inv E (exitSession boot registers) := by
  refine Safe.get fun w hw => ?_
  rcases hexit : handleExitInterruptFromRegisters w.session registers with ⟨exit, session⟩
  refine (Safe.set ⟨hw.writer, hw.history, hw.cursor⟩).bind fun _ => ?_
  cases exit with
  | ignored => exact unframed (serial_safe _)
  | resumed =>
    refine Safe.bind (unframed (println_safe _)) fun _ => Safe.get fun w hw => ?_
    refine (Safe.set ⟨hw.writer, hw.history, hw.cursor⟩).bind fun _ => ?_
    exact Safe.bind (unframed (printReport_safe _)) fun _ => startInputLoop_safe

theorem maybeRun_safe (hring3 : ∀ context, E (.ring3 context))
    (hnext : ∀ (w : World) nextRunTick,
      part { w with autoScheduler := { w.autoScheduler with nextRunTick } } = part w)
    (now : UInt64) : Safe (Framed part a) E (maybeRun boot now) := by
  refine Safe.get fun w hw => ?_
  simp only
  split
  · exact Safe.pure _
  · refine (Safe.set ?_).bind fun _ => (runTaskStep_safe hring3 _ _).bind fun _ => Safe.pure _
    exact ⟨⟨hw.writer, hw.history, hw.cursor⟩, (hnext w _).trans hw.same⟩

end Commands

end JingOS.Monitor
