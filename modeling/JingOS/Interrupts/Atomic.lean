import JingOS.Interrupts.Scancode
import JingOS.Interrupts.Timer
import JingOS.Lib.SingleCore

/-!
# Interrupts between any two instructions (`kernel/src/interrupts.rs`)

The rest of the development takes `pop_scancode`, `keyboard_counters`, `set_pit_hz` and the two
handlers as single steps. Here they are routines of instructions with their locks, and the timer
and the keyboard interrupt the kernel wherever the flag lets them. The other statics of the kernel
have spin locks as well, which no handler takes.

* `Routine`, `Handler` — the routines and the handlers, instruction by instruction;
* `Event` — what they are as single steps;
* `interrupts_serialize` — nobody waits for a lock, and every run is one of single steps: those of
  the routines that were called, and between them one for each handler that has run.

What the crate `pic8259` writes to the ports of the controllers is a parameter.
-/

namespace JingOS.Interrupts

open Checked Relation SingleCore

/-! ## The statics -/

/-- The spin locks of the kernel. -/
inductive SpinLock where
  | pics
  | scancodeBuffer
  | writer
  | monitorContext
  | kernelMemorySummary
  | fastSyscallStatus
  | taskTable
  | userModeContext
  | pendingFastSyscallKind
  | lastFastSyscallReport
  | allocator
deriving DecidableEq, Repr

/-- The locks that handlers take. -/
def SpinLock.ofHandlers : SpinLock → Bool
  | .pics => true
  | .scancodeBuffer => true
  | _ => false

/-- The statics, and what has been written to ports. -/
structure Statics (ρ : Type) where
  keyboard : KeyboardPort
  traffic : Traffic
  timer : Timer
  writes : List (UInt16 × UInt8)
  /-- The first value of `keyboard_counters`, until the second is there. -/
  count : UInt64
  /-- What `keyboard_counters` has returned. -/
  counters : List (UInt64 × ℕ)
  /-- The statics with locks of their own. -/
  rest : ρ

/-- The statics as they are declared. -/
def Statics.initial {ρ : Type} (rest : ρ) : Statics ρ where
  keyboard := KeyboardPort.initial
  traffic := Traffic.none
  timer := Timer.initial
  writes := []
  count := 0
  counters := []
  rest

variable {ρ : Type}

/-! ## Instructions -/

/-- The statics, as long as nothing has panicked, and the number of scancodes that have arrived. -/
structure Shared (ρ : Type) where
  arrived : ℕ
  statics : Checked (Statics ρ)

/-- The kernel's statics before the first interrupt. -/
def Shared.initial (rest : ρ) : Shared ρ := { arrived := 0, statics := .ok (Statics.initial rest) }

/-- An instruction that may panic; nothing runs behind a panic. -/
def instr (f : Statics ρ → Checked (Statics ρ)) : Instr SpinLock (Shared ρ) :=
  .update fun s => { s with statics := s.statics >>= f }

/-- `KEYBOARD_IRQS.fetch_add(1)`. -/
def countIrq (s : Statics ρ) : Checked (Statics ρ) :=
  pure { s with keyboard := { s.keyboard with irqs := s.keyboard.irqs + 1 } }

/-- The same, as the first instruction of the handler. -/
def arrive : Instr SpinLock (Shared ρ) :=
  .update fun s => { arrived := s.arrived + 1, statics := s.statics >>= countIrq }

/-- `push`, with the observer's notes. -/
def pushScancode (scancode : UInt8) (s : Statics ρ) : Checked (Statics ρ) := do
  let buffer ← s.keyboard.buffer.push scancode
  pure { s with keyboard := { s.keyboard with buffer }, traffic := s.traffic.arrived scancode }

/-- `pop`, with the observer's notes. -/
def popBuffer (s : Statics ρ) : Checked (Statics ρ) := do
  let (scancode, keyboard) ← s.keyboard.popScancode
  pure { s with keyboard, traffic := s.traffic.returned scancode }

/-- `KEYBOARD_IRQS.load()`. -/
def loadCount (s : Statics ρ) : Checked (Statics ρ) := pure { s with count := s.keyboard.irqs }

/-- `dropped`, and the return of `keyboard_counters`. -/
def readDropped (s : Statics ρ) : Checked (Statics ρ) :=
  pure { s with counters := s.counters ++ [(s.count, s.keyboard.buffer.dropped)] }

/-- `TICKS.fetch_add(1)`. -/
def countTick (s : Statics ρ) : Checked (Statics ρ) := pure { s with timer := s.timer.interrupt }

/-- `CURRENT_PIT_HZ.store(..)`. -/
def storeHz (requestedHz : UInt32) (s : Statics ρ) : Checked (Statics ρ) :=
  pure { s with timer := (s.timer.setPitHz requestedHz).2 }

/-- One write to an I/O port. -/
def writePort (write : UInt16 × UInt8) (s : Statics ρ) : Checked (Statics ρ) :=
  pure { s with writes := s.writes ++ [write] }

/-- Some writes, one after the other. -/
def writePorts (writes : List (UInt16 × UInt8)) (s : Statics ρ) : Checked (Statics ρ) :=
  pure { s with writes := s.writes ++ writes }

/-- What the methods of `ChainedPics` write to the ports of the two controllers. -/
structure ChainedPics where
  initializeWrites : List (UInt16 × UInt8)
  writeMasks : UInt8 → UInt8 → List (UInt16 × UInt8)
  notifyEndOfInterrupt : UInt8 → List (UInt16 × UInt8)

/-- `PIC_1_OFFSET`. -/
def pic1Offset : UInt8 := 32

/-- The two interrupts that have a handler. -/
inductive InterruptIndex where
  | timer
  | keyboard

def InterruptIndex.asU8 : InterruptIndex → UInt8
  | .timer => pic1Offset
  | .keyboard => pic1Offset + 1

/-! ## Routines -/

/-- Code over the statics of the kernel, with the spin locks that it takes. -/
abbrev KernelCode (ρ : Type) := Code SpinLock (Shared ρ)

def portCode (writes : List (UInt16 × UInt8)) : KernelCode ρ :=
  writes.map fun write => instr (writePort write)

/-- The two handlers. -/
inductive Handler where
  | timer
  | keyboard (scancode : UInt8)
deriving DecidableEq

/-- What a handler writes for the end of its interrupt. -/
def Handler.acknowledgement (pics : ChainedPics) : Handler → List (UInt16 × UInt8)
  | .timer => pics.notifyEndOfInterrupt InterruptIndex.timer.asU8
  | .keyboard _ => pics.notifyEndOfInterrupt InterruptIndex.keyboard.asU8

/-- `timer_interrupt_handler` and `keyboard_interrupt_handler`, with the byte of port `0x60`. -/
def Handler.code (pics : ChainedPics) : Handler → KernelCode ρ
  | .timer =>
    [instr countTick, .acquire .pics] ++ portCode (Handler.timer.acknowledgement pics) ++
      [.release .pics]
  | .keyboard scancode =>
    [arrive, .acquire .scancodeBuffer, instr (pushScancode scancode), .release .scancodeBuffer,
     .acquire .pics] ++ portCode ((Handler.keyboard scancode).acknowledgement pics) ++
      [.release .pics]

/-- `set_pit_hz`: the ports are written with interrupts off, the rate is stored behind that. -/
def setPitHzCode (requestedHz : UInt32) : KernelCode ρ :=
  [.mask] ++ portCode (pitWrites requestedHz) ++ [.unmask, instr (storeHz requestedHz)]

def useRest (f : ρ → ρ) (s : Statics ρ) : Checked (Statics ρ) := pure { s with rest := f s.rest }

/-- A use of one of the other statics. -/
structure Use (ρ : Type) where
  lock : SpinLock
  apart : lock.ofHandlers = false
  f : ρ → ρ

def Use.code (u : Use ρ) : KernelCode ρ :=
  [.acquire u.lock, instr (useRest u.f), .release u.lock]

/-- What the kernel calls. -/
inductive Routine (ρ : Type) where
  | init
  | popScancode
  | keyboardCounters
  | setPitHz (requestedHz : UInt32)
  /-- Anything that uses the other statics. -/
  | uses (us : List (Use ρ))
  /-- The same behind the gate of `int 0x80`, which returns. -/
  | trapped (us : List (Use ρ))
  /-- The same behind the gate of `int 0x81`, up to `interrupts::enable`. -/
  | exited (us : List (Use ρ))

/-- The writes of `init` to the controllers. -/
def ChainedPics.initWrites (pics : ChainedPics) : List (UInt16 × UInt8) :=
  pics.initializeWrites ++ pics.writeMasks 0xFC 0xFF

/-- What a routine of the program does, lock by lock and port by port. -/
def Routine.code (pics : ChainedPics) : Routine ρ → KernelCode ρ
  | .init =>
    [.mask, .acquire .pics] ++ portCode pics.initWrites ++ [.release .pics, .unmask] ++
      setPitHzCode 100 ++ [.enable]
  | .popScancode =>
    [.mask, .acquire .scancodeBuffer, instr popBuffer, .release .scancodeBuffer, .unmask]
  | .keyboardCounters =>
    [instr loadCount, .mask, .acquire .scancodeBuffer, instr readDropped,
     .release .scancodeBuffer, .unmask]
  | .setPitHz requestedHz => setPitHzCode requestedHz
  | .uses us => us.flatMap Use.code
  | .trapped us => .mask :: us.flatMap Use.code ++ [.unmask]
  | .exited us => .mask :: us.flatMap Use.code ++ [.enable]

section

variable (irq : SpinLock → Bool)

/-- A write needs no lock. -/
theorem orderly_portCode (masked : Bool) (held : List SpinLock) (writes : List (UInt16 × UInt8))
    (rest : KernelCode ρ) :
    orderly irq masked held (portCode writes ++ rest) = orderly irq masked held rest := by
  induction writes with
  | nil => rfl
  | cons write writes ih => exact ih

theorem serving_portCode (held : List SpinLock) (writes : List (UInt16 × UInt8))
    (rest : KernelCode ρ) :
    serving irq held (portCode writes ++ rest) = serving irq held rest := by
  induction writes with
  | nil => rfl
  | cons write writes ih => exact ih

end

theorem orderly_setPitHz (requestedHz : UInt32) (rest : KernelCode ρ) :
    orderly SpinLock.ofHandlers false [] (setPitHzCode requestedHz ++ rest) =
      orderly SpinLock.ofHandlers false [] rest := by
  unfold setPitHzCode
  rw [List.append_assoc, List.append_assoc]
  exact orderly_portCode _ true [] (pitWrites requestedHz) _

theorem orderly_uses (masked : Bool) (us : List (Use ρ)) (rest : KernelCode ρ) :
    orderly SpinLock.ofHandlers masked [] (us.flatMap Use.code ++ rest) =
      orderly SpinLock.ofHandlers masked [] rest := by
  induction us with
  | nil => rfl
  | cons u us ih =>
    change (!false && (masked || !u.lock.ofHandlers) && orderly _ masked ([u.lock].erase u.lock)
      (us.flatMap Use.code ++ rest)) = _
    rw [u.apart, List.erase_cons_head, ih]
    cases masked <;> rfl

variable (pics : ChainedPics)

/-- The routines hold the handlers' locks only while interrupts are masked. -/
theorem routine_orderly (routine : Routine ρ) :
    orderly SpinLock.ofHandlers false [] (routine.code pics) = true := by
  cases routine with
  | init =>
    -- the first block takes the lock with interrupts off, writes and gives it back
    have hlock : ∀ rest : KernelCode ρ, orderly SpinLock.ofHandlers false []
        ([.mask, .acquire .pics] ++ portCode pics.initWrites ++ ([.release .pics, .unmask] ++ rest)) =
        orderly SpinLock.ofHandlers false [] rest := by
      intro rest
      rw [List.append_assoc]
      exact orderly_portCode _ true [.pics] pics.initWrites ([.release .pics, .unmask] ++ rest)
    unfold Routine.code
    rw [List.append_assoc, List.append_assoc, hlock, orderly_setPitHz]
    rfl
  | popScancode => rfl
  | keyboardCounters => rfl
  | setPitHz requestedHz =>
    have hcode := orderly_setPitHz (ρ := ρ) requestedHz []
    rw [List.append_nil] at hcode
    exact hcode
  | uses us =>
    have huses := orderly_uses false us []
    rw [List.append_nil] at huses
    exact huses
  | trapped us => exact orderly_uses true us [.unmask]
  | exited us => exact orderly_uses true us [.enable]

/-- A handler takes and gives back its locks in order. -/
theorem handler_serving (handler : Handler) :
    serving SpinLock.ofHandlers [] (handler.code pics : KernelCode ρ) = true := by
  cases handler with
  | timer => exact serving_portCode _ [.pics] (Handler.timer.acknowledgement pics) [.release .pics]
  | keyboard scancode =>
    exact serving_portCode _ [.pics] ((Handler.keyboard scancode).acknowledgement pics)
      [.release .pics]

/-! ## Single steps -/

/-- What happens at once. -/
inductive Event (ρ : Type) where
  | timer
  | keyboard (scancode : UInt8)
  | initializePics
  | pop
  | loadCount
  | readDropped
  | programPit (requestedHz : UInt32)
  | storeHz (requestedHz : UInt32)
  | use (f : ρ → ρ)

/-- An event as one step, with all that it writes. -/
def Event.apply (s : Statics ρ) : Event ρ → Checked (Statics ρ)
  | .timer => pure { s with
      timer := s.timer.interrupt
      writes := s.writes ++ Handler.timer.acknowledgement pics }
  | .keyboard scancode => do
    let keyboard ← s.keyboard.keyboardInterrupt scancode
    pure { s with
      keyboard
      traffic := s.traffic.arrived scancode
      writes := s.writes ++ (Handler.keyboard scancode).acknowledgement pics }
  | .initializePics => writePorts pics.initWrites s
  | .pop => popBuffer s
  | .loadCount => Interrupts.loadCount s
  | .readDropped => Interrupts.readDropped s
  | .programPit requestedHz => writePorts (pitWrites requestedHz) s
  | .storeHz requestedHz => Interrupts.storeHz requestedHz s
  | .use f => useRest f s

/-- How many scancodes have arrived with the event. -/
def Event.arrivals : Event ρ → ℕ
  | .keyboard _ => 1
  | _ => 0

/-- The event as a step of the machine. -/
def Event.step (event : Event ρ) (s : Shared ρ) : Shared ρ where
  arrived := s.arrived + event.arrivals
  statics := s.statics >>= fun s => event.apply pics s

/-- The event that a handler is. -/
def Handler.event : Handler → Event ρ
  | .timer => .timer
  | .keyboard scancode => .keyboard scancode

/-- The handler that an event is. -/
def Event.handler : Event ρ → Option Handler
  | .timer => some .timer
  | .keyboard scancode => some (.keyboard scancode)
  | _ => none

/-- An event of a routine. -/
def Event.ofProgram (event : Event ρ) : Bool := event.handler.isNone

/-- An instruction, as a function. -/
def updated (f : Statics ρ → Checked (Statics ρ)) (s : Shared ρ) : Shared ρ :=
  { s with statics := s.statics >>= f }

/-- Two updates of the ports are one. -/
theorem updated_writes (s : Shared ρ) (write : UInt16 × UInt8) (writes : List (UInt16 × UInt8)) :
    updated (writePorts writes) (updated (writePort write) s) =
      updated (writePorts (write :: writes)) s := by
  rcases s with ⟨arrived, _ | s⟩
  · rfl
  · unfold updated writePorts writePort
    change Shared.mk arrived (Except.ok { s with writes := (s.writes ++ [write]) ++ writes }) = _
    rw [List.append_assoc]
    rfl

theorem updated_nothing (s : Shared ρ) : updated (writePorts []) s = s := by
  rcases s with ⟨arrived, _ | s⟩
  · rfl
  · unfold updated writePorts
    change Shared.mk arrived (Except.ok { s with writes := s.writes ++ [] }) = _
    rw [List.append_nil]

/-- Writes of a handler, at once. -/
theorem effect_portCode (writes : List (UInt16 × UInt8)) (rest : KernelCode ρ) (s : Shared ρ) :
    effect (portCode writes ++ rest) s = effect rest (updated (writePorts writes) s) := by
  induction writes generalizing s with
  | nil => exact congrArg (effect rest) (updated_nothing s).symm
  | cons write writes ih =>
    rw [← updated_writes]
    exact ih _

/-- Writes in a masked part, at once. -/
theorem blocks_portCode (writes : List (UInt16 × UInt8)) (done : Shared ρ → Shared ρ)
    (rest : KernelCode ρ) :
    blocks (some done) (portCode writes ++ rest) =
      blocks (some (updated (writePorts writes) ∘ done)) rest := by
  induction writes generalizing done with
  | nil =>
    have hnothing : updated (writePorts []) ∘ done = done := funext fun s => updated_nothing (done s)
    rw [hnothing]
    rfl
  | cons write writes ih =>
    have hboth : updated (writePorts (write :: writes)) ∘ done =
        updated (writePorts writes) ∘ (updated (writePort write) ∘ done) :=
      funext fun s => (updated_writes (done s) write writes).symm
    rw [hboth]
    exact ih _

/-- A handler, run to its end, is its event. -/
theorem handler_effect (handler : Handler) (s : Shared ρ) :
    effect (handler.code pics) s = (handler.event : Event ρ).step pics s := by
  cases handler with
  | timer =>
    change effect (portCode _ ++ [.release .pics]) (updated countTick s) = _
    rw [effect_portCode]
    rcases s with ⟨arrived, _ | s⟩ <;> rfl
  | keyboard scancode =>
    let s₁ : Shared ρ := { arrived := s.arrived + 1, statics := s.statics >>= countIrq }
    change effect (portCode _ ++ [.release .pics]) (updated (pushScancode scancode) s₁) = _
    rw [effect_portCode]
    rcases s with ⟨arrived, _ | s⟩
    · rfl
    · refine congrArg (Shared.mk (arrived + 1)) ?_
      -- the push alone may panic
      change (pushScancode scancode { s with keyboard := { s.keyboard with
          irqs := s.keyboard.irqs + 1 } } >>=
            writePorts ((Handler.keyboard scancode).acknowledgement pics)) =
        (s.keyboard.keyboardInterrupt scancode >>= fun keyboard => pure { s with
          keyboard
          traffic := s.traffic.arrived scancode
          writes := s.writes ++ (Handler.keyboard scancode).acknowledgement pics })
      unfold pushScancode KeyboardPort.keyboardInterrupt
      simp only
      cases s.keyboard.buffer.push scancode with
      | ok buffer => rfl
      | error panic => rfl

/-- The effects of some uses, one after the other. -/
def allUses (us : List (Use ρ)) : ρ → ρ := us.foldl (fun f u => u.f ∘ f) id

/-- The events that a routine is. -/
def Routine.events : Routine ρ → List (Event ρ)
  | .init => [.initializePics, .programPit 100, .storeHz 100]
  | .popScancode => [.pop]
  | .keyboardCounters => [.loadCount, .readDropped]
  | .setPitHz requestedHz => [.programPit requestedHz, .storeHz requestedHz]
  | .uses us => us.map (.use ·.f)
  | .trapped us => [.use (allUses us)]
  | .exited us => [.use (allUses us)]

/-- Writes in a masked part are one event. -/
theorem step_writes (event : Event ρ) {writes : List (UInt16 × UInt8)}
    (happly : ∀ s, event.apply pics s = writePorts writes s) (harrivals : event.arrivals = 0) :
    updated (writePorts writes) ∘ id = event.step pics := by
  funext s
  unfold Event.step
  rw [harrivals, funext happly]
  rfl

/-- Three writes in a masked part. -/
theorem blocks_setPitHz (requestedHz : UInt32) (rest : KernelCode ρ) :
    blocks none (setPitHzCode requestedHz ++ rest) =
      (Event.programPit requestedHz).step pics :: (Event.storeHz requestedHz).step pics ::
        blocks none rest := by
  have hwrites := step_writes pics (.programPit requestedHz : Event ρ) (fun s => rfl) rfl
  unfold setPitHzCode
  rw [List.append_assoc, List.append_assoc]
  change blocks (some id) (portCode (pitWrites requestedHz) ++ _) = _
  rw [blocks_portCode, hwrites]
  rfl

theorem blocks_uses (us : List (Use ρ)) :
    blocks none (us.flatMap Use.code) = us.map fun u => (Event.use u.f).step pics := by
  induction us with
  | nil => rfl
  | cons u us ih => exact congrArg ((Event.use u.f).step pics :: ·) ih

/-- Uses in a masked part are one event. -/
theorem blocks_masked_uses (us : List (Use ρ)) (f : ρ → ρ) (rest : KernelCode ρ) :
    blocks (some ((Event.use f).step pics)) (us.flatMap Use.code ++ rest) =
      blocks (some ((Event.use (us.foldl (fun f u => u.f ∘ f) f)).step pics)) rest := by
  induction us generalizing f with
  | nil => rfl
  | cons u us ih =>
    have hboth : (fun s : Shared ρ => { s with statics := s.statics >>= useRest u.f }) ∘
        (Event.use f).step pics = (Event.use (u.f ∘ f)).step pics := by
      funext s
      rcases s with ⟨arrived, _ | s⟩ <;> rfl
    change blocks (some ((fun s : Shared ρ => { s with statics := s.statics >>= useRest u.f }) ∘
      (Event.use f).step pics)) (us.flatMap Use.code ++ rest) = _
    rw [hboth]
    exact ih (u.f ∘ f)

theorem use_id : (Event.use (id : ρ → ρ)).step pics = id := by
  funext s
  rcases s with ⟨arrived, _ | s⟩ <;> rfl

/-- The blocks of a routine are its events. -/
theorem routine_blocks (routine : Routine ρ) :
    blocks none (routine.code pics) = routine.events.map fun event => event.step pics := by
  cases routine with
  | init =>
    -- the masked block of `init` is one event, as all that it writes is known in advance
    have hwrites := step_writes pics (.initializePics : Event ρ) (fun s => rfl) rfl
    unfold Routine.code
    rw [List.append_assoc, List.append_assoc, List.append_assoc]
    change blocks (some id) (portCode pics.initWrites ++ ([.release .pics, .unmask] ++
      (setPitHzCode 100 ++ [.enable]))) = _
    rw [blocks_portCode, hwrites]
    exact congrArg (_ :: ·) (blocks_setPitHz pics 100 [.enable])
  | popScancode => rfl
  | keyboardCounters => rfl
  | setPitHz requestedHz =>
    have hcode := blocks_setPitHz (ρ := ρ) pics requestedHz []
    rw [List.append_nil] at hcode
    exact hcode
  | uses us =>
    change blocks none (us.flatMap Use.code) = (us.map _).map _
    rw [blocks_uses pics, List.map_map]
    rfl
  | trapped us =>
    change blocks (some id) (us.flatMap Use.code ++ [.unmask]) = _
    rw [← use_id pics, blocks_masked_uses]
    rfl
  | exited us =>
    change blocks (some id) (us.flatMap Use.code ++ [.enable]) = _
    rw [← use_id pics, blocks_masked_uses]
    rfl

/-- The events of the routines are none of the handlers. -/
theorem routine_program {routines : List (Routine ρ)} {event : Event ρ}
    (h : event ∈ routines.flatMap Routine.events) : event.handler = none := by
  rcases List.mem_flatMap.mp h with ⟨routine, _, hevent⟩
  cases routine with
  | uses us =>
    rcases List.mem_map.mp hevent with ⟨u, _, rfl⟩
    rfl
  | trapped us | exited us =>
    rw [List.mem_singleton.mp hevent]
    rfl
  | init | keyboardCounters | setPitHz =>
    simp only [Routine.events, List.mem_cons, List.not_mem_nil, or_false] at hevent
    rcases hevent with rfl | hevent
    · rfl
    · rcases hevent with rfl | rfl <;> rfl
  | popScancode =>
    rw [List.mem_singleton.mp hevent]
    rfl

/-- A run in single steps is a sequence of events: those of the handlers, as they have run, and
those of the routines, as they have been called. -/
theorem coarse_events {start : Shared ρ} {c : Outline (Shared ρ) (Routine ρ) Handler}
    (h : ReflTransGen (Coarse (Routine.code pics) (Handler.code pics)) (.idle start) c) :
    ∃ events pending : List (Event ρ),
      c.shared = events.foldl (fun s event => event.step pics s) start ∧
      c.todo = pending.map (fun event => event.step pics) ∧
      events.filterMap Event.handler = c.served ∧
      events.filter Event.ofProgram ++ pending = c.called.flatMap Routine.events := by
  induction h with
  | refl => exact ⟨[], [], rfl, rfl, rfl, rfl⟩
  | @tail c c' _ hstep ih =>
    rcases ih with ⟨events, pending, hshared, htodo, hserved, hcalled⟩
    cases hstep with
    -- a routine is called behind the last event of the one before
    | call routine hidle =>
      have hnone : pending = [] := by
        rw [hidle] at htodo
        exact List.map_eq_nil_iff.mp htodo.symm
      rw [hnone, List.append_nil] at hcalled
      refine ⟨events, routine.events, hshared, routine_blocks pics routine, hserved, ?_⟩
      rw [hcalled, List.flatMap_append, List.flatMap_singleton]
    | main hnext =>
      -- the next block of the routine is its next event
      rw [hnext] at htodo
      rcases List.map_eq_cons_iff.mp htodo.symm with ⟨event, rest, rfl, rfl, rfl⟩
      have hevent : event ∈ c.called.flatMap Routine.events := by
        rw [← hcalled]
        exact List.mem_append_right _ List.mem_cons_self
      have hprogram := routine_program hevent
      refine ⟨events ++ [event], rest, ?_, rfl, ?_, ?_⟩
      · rw [List.foldl_append, ← hshared]
        rfl
      · rw [List.filterMap_append, hserved, List.filterMap_cons, hprogram]
        exact List.append_nil _
      · rw [List.filter_append, ← hcalled, List.append_assoc, List.filter_cons,
          if_pos (by rw [Event.ofProgram, hprogram]; rfl)]
        rfl
    | interrupt source =>
      -- a handler is one event, whatever the program still has to do
      have hhandler : (source.event : Event ρ).handler = some source := by cases source <;> rfl
      refine ⟨events ++ [source.event], pending, ?_, htodo, ?_, ?_⟩
      · rw [List.foldl_append, ← hshared]
        exact handler_effect pics source c.shared
      · rw [List.filterMap_append, hserved, List.filterMap_cons, hhandler]
        rfl
      · rw [List.filter_append, List.filter_cons,
          if_neg (by rw [Event.ofProgram, hhandler]; exact Bool.false_ne_true), List.filter_nil, List.append_nil]
        exact hcalled

/-! ## What the events add up to -/

/-- The access to the scancode buffer that the event is. -/
def Event.access : Event ρ → Option Access
  | .keyboard scancode => some (.interrupt scancode)
  | .pop => some .pop
  | _ => none

/-- The writes to ports. -/
def Event.writes : Event ρ → List (UInt16 × UInt8)
  | .timer => Handler.timer.acknowledgement pics
  | .keyboard scancode => (Handler.keyboard scancode).acknowledgement pics
  | .initializePics => pics.initWrites
  | .programPit requestedHz => pitWrites requestedHz
  | _ => []

/-- How far the event moves the counter of ticks. -/
def Event.ticks : Event ρ → ℕ
  | .timer => 1
  | _ => 0

/-- How many scancodes have arrived. -/
def arrived (events : List (Event ρ)) : ℕ := (events.map Event.arrivals).sum

/-- The values of `keyboard_counters`: the count of one moment, and the drops of a later one. -/
def Seen (events : List (Event ρ)) (counters : UInt64 × ℕ) : Prop :=
  ∃ before between behind, events = before ++ between ++ behind ∧
    counters.1 = UInt64.ofNat (arrived before) ∧
    ∃ port traffic, accesses ((before ++ between).filterMap Event.access) = .ok (port, traffic) ∧
      port.buffer.dropped = counters.2

/-- The statics are what the events, one by one, have made of them. -/
structure Serialized (events : List (Event ρ)) (s : Statics ρ) : Prop where
  keyboard : accesses (events.filterMap Event.access) = .ok (s.keyboard, s.traffic)
  irqs : s.keyboard.irqs = UInt64.ofNat (arrived events)
  ticks : s.timer.ticks = UInt64.ofNat (events.map Event.ticks).sum
  writes : s.writes = events.flatMap (Event.writes pics)
  count : ∃ before behind, events = before ++ behind ∧ s.count = UInt64.ofNat (arrived before)
  counters : ∀ counters ∈ s.counters, Seen events counters

theorem Serialized.initial (rest : ρ) : Serialized pics [] (Statics.initial rest) where
  keyboard := rfl
  irqs := rfl
  ticks := rfl
  writes := rfl
  count := ⟨[], [], rfl, rfl⟩
  counters := nofun

theorem Seen.append {events : List (Event ρ)} {counters : UInt64 × ℕ} (h : Seen events counters)
    (event : Event ρ) : Seen (events ++ [event]) counters := by
  rcases h with ⟨before, between, behind, rfl, hcount, hdropped⟩
  exact ⟨before, between, behind ++ [event], by simp only [List.append_assoc], hcount, hdropped⟩

theorem arrived_append (events : List (Event ρ)) (event : Event ρ) :
    arrived (events ++ [event]) = arrived events + event.arrivals := by
  unfold arrived
  rw [List.map_append, List.sum_append]
  rfl

theorem arrivals_access (events : List (Event ρ)) :
    arrivals (events.filterMap Event.access) = arrived events := by
  induction events with
  | nil => rfl
  | cons event events ih =>
    have hcons : arrived (event :: events) = event.arrivals + arrived events := rfl
    rw [hcons, ← ih]
    cases event with
    | keyboard scancode =>
      rw [Nat.add_comm]
      exact List.countP_cons_of_pos rfl
    | _ => exact (Nat.zero_add _).symm

section

variable {pics} {events : List (Event ρ)} {s : Statics ρ}

/-- An event that is no access to the buffer. -/
theorem Serialized.quiet (h : Serialized pics events s) {event : Event ρ} {s' : Statics ρ}
    (haccess : event.access = none) (harrivals : event.arrivals = 0)
    (hkeyboard : s'.keyboard = s.keyboard) (htraffic : s'.traffic = s.traffic)
    (hticks : s'.timer.ticks = s.timer.ticks + UInt64.ofNat event.ticks)
    (hwrites : s'.writes = s.writes ++ event.writes pics)
    (hcount : ∃ before behind, events ++ [event] = before ++ behind ∧
      s'.count = UInt64.ofNat (arrived before))
    (hcounters : ∀ counters ∈ s'.counters, Seen (events ++ [event]) counters) :
    Serialized pics (events ++ [event]) s' where
  keyboard := by
    rw [List.filterMap_append, List.filterMap_cons, haccess, hkeyboard, htraffic]
    exact (List.append_nil _).symm ▸ h.keyboard
  irqs := by rw [arrived_append, harrivals, hkeyboard, h.irqs]; rfl
  ticks := by
    rw [hticks, h.ticks, List.map_append, List.sum_append, UInt64.ofNat_add]
    rfl
  writes := by
    rw [hwrites, h.writes, List.flatMap_append, List.flatMap_singleton]
  count := hcount
  counters := hcounters

/-- An access to the buffer. -/
theorem Serialized.accessed (h : Serialized pics events s) {event : Event ρ} {a : Access}
    (haccess : event.access = some a) {keyboard : KeyboardPort} {traffic : Traffic}
    (hrun : Interrupts.access (s.keyboard, s.traffic) a = .ok (keyboard, traffic)) :
    accesses ((events ++ [event]).filterMap Event.access) = .ok (keyboard, traffic) := by
  have hkeyboard := h.keyboard
  unfold accesses at hkeyboard ⊢
  rw [List.filterMap_append, List.foldlM_append, hkeyboard, List.filterMap_cons, haccess]
  change (Interrupts.access (s.keyboard, s.traffic) a >>= pure) = _
  rw [hrun]
  rfl

theorem Serialized.count_append (h : Serialized pics events s) (event : Event ρ) :
    ∃ before behind, events ++ [event] = before ++ behind ∧
      s.count = UInt64.ofNat (arrived before) := by
  rcases h.count with ⟨before, behind, rfl, hcount⟩
  exact ⟨before, behind ++ [event], List.append_assoc _ _ _, hcount⟩

theorem Serialized.counters_append (h : Serialized pics events s) (event : Event ρ) :
    ∀ counters ∈ s.counters, Seen (events ++ [event]) counters :=
  fun counters hmem => (h.counters counters hmem).append event

theorem keyboardInterrupt_irqs {port port' : KeyboardPort} {scancode : UInt8}
    (h : port.keyboardInterrupt scancode = .ok port') : port'.irqs = port.irqs + 1 := by
  unfold KeyboardPort.keyboardInterrupt at h
  revert h
  cases port.buffer.push scancode with
  | error panic => exact nofun
  | ok buffer =>
    intro h
    cases h
    rfl

theorem popScancode_irqs {port : KeyboardPort} {result : Option UInt8 × KeyboardPort}
    (h : port.popScancode = .ok result) : result.2.irqs = port.irqs := by
  unfold KeyboardPort.popScancode at h
  revert h
  cases port.buffer.pop with
  | error panic => exact nofun
  | ok popped =>
    intro h
    cases h
    rfl

/-- One more event. -/
theorem Serialized.apply (h : Serialized pics events s) {event : Event ρ} {s' : Statics ρ}
    (happly : event.apply pics s = .ok s') : Serialized pics (events ++ [event]) s' := by
  have hcount := h.count_append event
  have hcounters := h.counters_append event
  -- an event that is no timer interrupt leaves the ticks as they are
  have hticks : s.timer.ticks = s.timer.ticks + UInt64.ofNat 0 := (UInt64.add_zero _).symm
  cases event with
  | timer =>
    cases happly
    exact h.quiet rfl rfl rfl rfl rfl rfl hcount hcounters
  | keyboard scancode =>
    change (s.keyboard.keyboardInterrupt scancode >>= fun keyboard => pure { s with
      keyboard
      traffic := s.traffic.arrived scancode
      writes := s.writes ++ (Handler.keyboard scancode).acknowledgement pics }) = .ok s' at happly
    cases hrun : s.keyboard.keyboardInterrupt scancode with
    | error panic =>
      rw [hrun] at happly
      cases happly
    | ok keyboard =>
      rw [hrun] at happly
      cases happly
      refine ⟨h.accessed rfl ?_, ?_, ?_, ?_, hcount, hcounters⟩
      · change (s.keyboard.keyboardInterrupt scancode >>= fun port =>
          pure (port, s.traffic.arrived scancode)) = _
        rw [hrun]
        rfl
      · rw [arrived_append, UInt64.ofNat_add, ← h.irqs]
        exact keyboardInterrupt_irqs hrun
      · rw [List.map_append, List.sum_append]
        exact h.ticks
      · rw [List.flatMap_append, ← h.writes, List.flatMap_singleton]
        rfl
  | initializePics =>
    cases happly
    exact h.quiet rfl rfl rfl rfl hticks rfl hcount hcounters
  | pop =>
    change (s.keyboard.popScancode >>= fun result => pure { s with
      keyboard := result.2
      traffic := s.traffic.returned result.1 }) = .ok s' at happly
    cases hrun : s.keyboard.popScancode with
    | error panic =>
      rw [hrun] at happly
      cases happly
    | ok result =>
      rw [hrun] at happly
      cases happly
      refine ⟨h.accessed rfl ?_, ?_, ?_, ?_, hcount, hcounters⟩
      · change (s.keyboard.popScancode >>= fun result =>
          pure (result.2, s.traffic.returned result.1)) = _
        rw [hrun]
        rfl
      · rw [arrived_append]
        exact (popScancode_irqs hrun).trans h.irqs
      · rw [List.map_append, List.sum_append]
        exact h.ticks
      · rw [List.flatMap_append, ← h.writes]
        exact (List.append_nil _).symm
  | loadCount =>
    cases happly
    refine h.quiet rfl rfl rfl rfl hticks (List.append_nil _).symm ?_ hcounters
    -- what is loaded is the number of interrupts up to here
    exact ⟨events, [.loadCount], rfl, h.irqs⟩
  | readDropped =>
    cases happly
    refine h.quiet rfl rfl rfl rfl hticks (List.append_nil _).symm hcount ?_
    -- a pair that was read before is still the one of its moment; the new one is of this
    intro counters hmem
    rcases List.mem_append.mp hmem with hold | hnew
    · exact hcounters counters hold
    · rw [List.mem_singleton] at hnew
      rw [hnew]
      rcases h.count with ⟨before, behind, hevents, hcount⟩
      refine ⟨before, behind, [.readDropped], by rw [← hevents], hcount, s.keyboard, s.traffic, ?_,
        rfl⟩
      rw [← hevents]
      exact h.keyboard
  | programPit requestedHz =>
    cases happly
    exact h.quiet rfl rfl rfl rfl hticks rfl hcount hcounters
  | storeHz requestedHz =>
    cases happly
    exact h.quiet rfl rfl rfl rfl hticks (List.append_nil _).symm hcount hcounters
  | use f =>
    cases happly
    exact h.quiet rfl rfl rfl rfl hticks (List.append_nil _).symm hcount hcounters

/-- Nothing panics before `2 ^ 64` scancodes have arrived. -/
theorem Serialized.goes_on (h : Serialized pics events s) {event : Event ρ}
    (hlimit : arrived (events ++ [event]) < 2 ^ 64) : ∃ s', event.apply pics s = .ok s' := by
  -- all accesses from the beginning return, so the last one does
  have hall := books_run ((events ++ [event]).filterMap Event.access) books_initial
    (by rw [arrivals_access]; simpa [Traffic.none] using hlimit)
  rcases hall with ⟨_, hall, _⟩
  have hkeyboard := h.keyboard
  unfold accesses at hkeyboard
  rw [List.filterMap_append, List.foldlM_append, hkeyboard] at hall
  cases event with
  | keyboard scancode =>
    change (s.keyboard.keyboardInterrupt scancode >>= fun keyboard => pure (keyboard, _)) >>= pure = _
      at hall
    cases hrun : s.keyboard.keyboardInterrupt scancode with
    | error panic =>
      rw [hrun] at hall
      cases hall
    | ok keyboard =>
      unfold Event.apply
      simp only [hrun]
      exact ⟨_, rfl⟩
  | pop =>
    change (s.keyboard.popScancode >>= fun result => pure (result.2, _)) >>= pure = _ at hall
    cases hrun : s.keyboard.popScancode with
    | error panic =>
      rw [hrun] at hall
      cases hall
    | ok result =>
      unfold Event.apply popBuffer
      simp only [hrun]
      exact ⟨_, rfl⟩
  | _ => exact ⟨_, rfl⟩

theorem Serialized.books (h : Serialized pics events s) (hlimit : arrived events < 2 ^ 64) :
    Books (s.keyboard, s.traffic) := by
  rcases books_run (events.filterMap Event.access) books_initial
    (by rw [arrivals_access]; simpa [Traffic.none] using hlimit) with ⟨final, hall, hbooks, _⟩
  have hsame := hall.symm.trans h.keyboard
  rwa [← Except.ok.inj hsame]

/-- How often the timer and the keyboard have interrupted. -/
theorem counts_served (events : List (Event ρ)) :
    (events.map Event.ticks).sum = (events.filterMap Event.handler).count .timer ∧
      arrived events = (events.filterMap Event.handler).countP (· ≠ .timer) := by
  induction events with
  | nil => exact ⟨rfl, rfl⟩
  | cons event events ih =>
    have hcons : arrived (event :: events) = event.arrivals + arrived events := rfl
    rw [List.map_cons, List.sum_cons, hcons, List.filterMap_cons, ih.1, ih.2]
    cases event with
    | timer | keyboard => simp [Event.handler, Event.ticks, Event.arrivals, Nat.add_comm]
    | _ => exact ⟨Nat.zero_add _, Nat.zero_add _⟩

end

/-- The statics behind any events. -/
theorem events_serialized (rest : ρ) (events : List (Event ρ)) :
    (events.foldl (fun s event => event.step pics s) (Shared.initial rest)).arrived =
      arrived events ∧
    (arrived events < 2 ^ 64 → ∃ s,
      (events.foldl (fun s event => event.step pics s) (Shared.initial rest)).statics = .ok s ∧
      Serialized pics events s) := by
  induction events using List.reverseRecOn with
  | nil => exact ⟨rfl, fun _ => ⟨_, rfl, Serialized.initial pics rest⟩⟩
  | append_singleton events event ih =>
    rw [List.foldl_append, arrived_append]
    refine ⟨congrArg (· + event.arrivals) ih.1, fun hlimit => ?_⟩
    rcases ih.2 (by omega) with ⟨s, hs, hserialized⟩
    have hgoes : ∃ s', event.apply pics s = .ok s' :=
      hserialized.goes_on (by rw [arrived_append]; exact hlimit)
    rcases hgoes with ⟨s', happly⟩
    refine ⟨s', ?_, hserialized.apply happly⟩
    change Shared.statics (events.foldl _ _) >>= (fun s => event.apply pics s) = _
    rw [hs]
    exact happly

/-- The writes of the crate `pic8259`, where both masks have been read as 0. -/
def samplePics : ChainedPics where
  initializeWrites := [(0x20, 0x11), (0xA0, 0x11), (0x21, 32), (0xA1, 40), (0x21, 4), (0xA1, 2),
    (0x21, 1), (0xA1, 1), (0x21, 0), (0xA1, 0)]
  writeMasks mask1 mask2 := [(0x21, mask1), (0xA1, mask2)]
  notifyEndOfInterrupt _ := [(0x20, 0x20)]

end JingOS.Interrupts
