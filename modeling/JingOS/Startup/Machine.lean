import JingOS.Monitor.RingThree
import JingOS.Startup.Kernel

/-!
# The kernel from power-on (`kernel/src/main.rs`)

`kernel_main`, `input_loop` behind it, and the way back from ring 3 into it again: whatever has
been typed, sent and interrupted since power-on, the kernel stops only for a reason that stands in
the line that was submitted last, or for a task of the automatic scheduler.

* `Entered.inv` — boot leaves what the commands rely on;
* `power_on_survives` — the stops of all runs.
-/

namespace JingOS.Startup

open Checked Hoare
open JingOS.Framebuffer JingOS.Memory JingOS.Monitor JingOS.Task

section

variable {σ : Type} {boot : Boot} {platform : Platform σ} {owns : σ → PhysFrame → Prop}
  {s s' : BootState σ}

theorem Displays.inv {framebuffer : Option (List UInt8 × FrameBufferInfo)} {w : FrameBufferWriter}
    (hfits : ∀ pair ∈ framebuffer, FrameBufferWriter.Fits pair.2 pair.1.length)
    (h : Displays boot framebuffer (some w)) : w.Inv := by
  cases framebuffer with
  | none => cases h
  | some pair =>
    rcases pair with ⟨buffer, info⟩
    rcases h with ⟨messages, w', hw, hmessages⟩
    rcases FrameBufferWriter.writeStr_returns boot.font
      (FrameBufferWriter.clear_inv (FrameBufferWriter.new_inv (hfits _ rfl))) messages with
      ⟨w'', hall, hinv⟩
    rw [hmessages, ← Option.some.inj hw] at hall
    rw [Except.ok.inj hall]
    exact hinv

/-- Boot leaves what the commands rely on. -/
theorem Entered.inv (h : Entered boot platform s s')
    (hfits : ∀ pair ∈ platform.framebuffer, FrameBufferWriter.Fits pair.2 pair.1.length) :
    s'.machine.world.Inv where
  writer := by
    intro writer hwriter
    have hconsole := h.console
    rw [hwriter] at hconsole
    exact hconsole.inv hfits
  history := by
    rw [h.history]
    exact CommandHistory.new_inv
  cursor := by
    rw [h.tasks]
    decide

/-- In a round from `t`, the stop in `t'` is a panic if and only if a fatal line has been submitted,
and what caused it stands in the last line, or the automatic scheduler did. -/
structure Explained (t t' : InputLoop) (stop : Stop) : Prop where
  panic : (∃ panic, stop = .panic panic) ↔ ∃ call ∈ t'.loop.calls, call.Fatal
  traced : Traced t.loop.calls.length stop t'.loop

/-- **Every run of the kernel.** From power-on, on any memory map and with any page tables: boot
does not panic. If a look at the clock sees five ticks, `input_loop` is entered, else the kernel ends
with the exit code of a failure. In every round of every run, through any number of sessions in
ring 3, a stop is explained. -/
theorem power_on_survives (hboot : boot.Successful) (hmap : PageMap boot.memoryRegions)
    (hlawful : platform.mapper.Lawful owns boot.memoryRegions)
    (hfits : ∀ pair ∈ platform.framebuffer, FrameBufferWriter.Fits pair.2 pair.1.length)
    (hs : PoweredOn boot owns s) :
    (∀ panic s', (kernelMain boot platform).run s ≠ .error (.panic panic) s') ∧
    ((∃ k < timerSpins, timerTarget ≤ ticksAt s.machine.world (k + 1)) →
      ∃ s' w, (kernelMain boot platform).run s = .ok () s' ∧
        (startInputLoop boot).run s'.machine.world = .ok () w) ∧
    ((∀ k < timerSpins, ticksAt s.machine.world (k + 1) < timerTarget) →
      ∃ s', (kernelMain boot platform).run s = .error (.exit .failed) s') ∧
    ∀ s', (kernelMain boot platform).run s = .ok () s' →
      ∀ t, InputLoop.Reachable boot (fun _ => True) s'.machine.world t →
        ∀ scancodes bytes stop t',
          t.decodedEvents + (bytes.length + scancodes.length) < 2 ^ 64 →
          (Monitor.round boot scancodes bytes).run t = .error stop t' → Explained t t' stop := by
  have hreadable : ∀ offset ∈ boot.physicalMemoryOffset, boot.paging.ReadableAt offset := by
    intro offset hoffset
    rcases hboot.mapped with ⟨offset', hoffset', hreadable⟩
    rw [hoffset'] at hoffset
    rw [← Option.some.inj hoffset]
    exact hreadable
  have hends := kernelMain_ends hmap hlawful hreadable hfits hs
  -- the heap is there, so that the first allocation does not panic
  have hprobe : ∀ panic, probeAllocations boot ≠ .error panic := by
    intro panic hpanic
    rcases hboot.heap with ⟨values, hvalues, _⟩
    rw [hvalues] at hpanic
    cases hpanic
  refine ⟨?_, ?_, ?_, ?_⟩
  · intro panic s' hrun
    rw [hrun] at hends
    rcases hends with ⟨_, _, _, _, _, hok, _⟩ | ⟨_, _, hexit⟩ | ⟨panic', _, _, hpanic⟩
    · cases hok
    · cases hexit
    · exact hprobe _ hpanic
  · rintro ⟨k, hk, hlook⟩
    rcases hends with ⟨_, _, _, _, s', hrun, hentered, _⟩ | ⟨hnone, _⟩ | ⟨panic, _, _, hpanic⟩
    · exact ⟨s', _, hrun, startInputLoop_run (hentered.inv hfits)⟩
    · exact absurd hlook (UInt64.not_le.mpr (hnone k hk))
    · exact absurd hpanic (hprobe _)
  · intro hnone
    rcases hends with ⟨k, hk, hlook, _⟩ | ⟨_, s', hexit⟩ | ⟨panic, _, _, hpanic⟩
    · exact absurd hlook (UInt64.not_le.mpr (hnone k hk))
    · exact ⟨s', hexit⟩
    · exact absurd hpanic (hprobe _)
  · intro s' hrun t ht scancodes bytes stop t' hcount hstop
    have hblames := ((blames_rule hboot).round scancodes bytes).of_error
      (reachable_sound hboot ((hends.entered hrun).inv hfits) ht) hstop hcount
    exact ⟨hblames.1, hblames.2⟩

/-- The sample machine is switched on, `usermode_syscall` is sent to it, and it goes to ring 3. -/
theorem power_on_survives_sample :
    ∃ (s' : BootState TableTree) (w : World) (t' : InputLoop),
      (kernelMain sampleBoot samplePlatform).run samplePowerOn = .ok () s' ∧
      (startInputLoop sampleBoot).run s'.machine.world = .ok () w ∧
      (Monitor.round sampleBoot [] (usermodeSyscallLine ++ [0x0D])).run (InputLoop.fresh w) =
        .error (.ring3 ⟨Usermode.userCodeStart, userStackTop⟩) t' ∧
      Explained (InputLoop.fresh w) t' (.ring3 ⟨Usermode.userCodeStart, userStackTop⟩) := by
  have hsurvives : (∀ panic s', (kernelMain sampleBoot samplePlatform).run samplePowerOn ≠
      .error (.panic panic) s') ∧ _ :=
    power_on_survives sampleBoot_successful sampleBoot_pageMap
      (TableTree.mapper_lawful sampleBoot_pageMap) samplePlatform_fits samplePowerOn_poweredOn
  rcases hsurvives with ⟨_, hentered, _, hrounds⟩
  rcases hentered ⟨4, by decide, by decide⟩ with ⟨s', w, hrun, hstart⟩
  have hbooted : Booted sampleBoot s'.machine.world :=
    (samplePowerOn_ends.entered hrun).booted_of_free sampleBoot_successful samplePlatform_fits rfl
      (fun _ _ => rfl) sampleBoot_room
  have hw : w = s'.machine.world.entered sampleBoot := by
    rw [startInputLoop_run hbooted.inv] at hstart
    cases hstart
    rfl
  subst hw
  have hroom : (InputLoop.fresh (s'.machine.world.entered sampleBoot)).decodedEvents + 17 < 2 ^ 64 := by
    change 0 + 17 < 2 ^ 64
    decide
  rcases usermodeSyscall_round sampleBoot_successful (entered_wellFormed hbooted.inv) rfl hroom
    hbooted.context with ⟨t', hround, _⟩
  have hcount : (InputLoop.fresh (s'.machine.world.entered sampleBoot)).decodedEvents +
      ((usermodeSyscallLine ++ [0x0D]).length + 0) < 2 ^ 64 := by
    change 0 + _ < 2 ^ 64
    decide +kernel
  exact ⟨s', _, t', hrun, hstart, hround,
    hrounds s' hrun _ (.entered hstart) [] _ _ t' hcount hround⟩

end

end JingOS.Startup
