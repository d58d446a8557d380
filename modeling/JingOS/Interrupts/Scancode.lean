import JingOS.Lib.Checked
import JingOS.Lib.Ring

/-!
# The scancode buffer (`kernel/src/interrupts.rs`)

The keyboard interrupt puts scancodes into a ring of 128 bytes, and the monitor takes them out.
Both operations begin with a repair of indices out of range, and drop what does not fit.

* `Inv` — indices in range, and the write index where the read index and the length put it;
* `Books` — what went in against what came out and what is still there;
* `ring_is_bounded_fifo` — both hold along every run, so nothing is ever repaired.
-/

namespace JingOS.Interrupts

open Checked

/-- `SCANCODE_BUFFER_SIZE`. -/
def scancodeBufferSize : ℕ := 128

/-- The ring between the interrupt handler and the monitor. -/
structure ScancodeBuffer where
  entries : List UInt8
  readIndex : ℕ
  writeIndex : ℕ
  len : ℕ
  dropped : ℕ
deriving DecidableEq, Repr

namespace ScancodeBuffer

def new : ScancodeBuffer :=
  { entries := List.replicate scancodeBufferSize 0, readIndex := 0, writeIndex := 0, len := 0,
    dropped := 0 }

/-- The condition of the repair with which `push` and `pop` begin. -/
def outOfRange (b : ScancodeBuffer) : Bool :=
  b.writeIndex ≥ scancodeBufferSize || b.readIndex ≥ scancodeBufferSize ||
    b.len > scancodeBufferSize

/-- The repair. -/
def repaired (b : ScancodeBuffer) : ScancodeBuffer :=
  if b.outOfRange then
    { b with
      writeIndex := b.writeIndex % scancodeBufferSize
      readIndex := b.readIndex % scancodeBufferSize
      len := min b.len scancodeBufferSize }
  else b

/-- A full ring keeps what it has and counts the loss. -/
def push (b : ScancodeBuffer) (scancode : UInt8) : Checked ScancodeBuffer :=
  let b := b.repaired
  if b.len = scancodeBufferSize then do
    let dropped ← add b.dropped 1
    pure { b with dropped }
  else do
    let entries ← store b.entries b.writeIndex scancode
    let writeIndex ← add b.writeIndex 1
    let len ← add b.len 1
    pure { b with entries, writeIndex := writeIndex % scancodeBufferSize, len }

/-- The oldest of the scancodes, if there is any. -/
def pop (b : ScancodeBuffer) : Checked (Option UInt8 × ScancodeBuffer) :=
  let b := b.repaired
  if b.len = 0 then pure (none, b)
  else do
    let scancode ← index b.entries b.readIndex
    let readIndex ← add b.readIndex 1
    let len ← sub b.len 1
    pure (some scancode, { b with readIndex := readIndex % scancodeBufferSize, len })

/-- The scancodes in the buffer, the oldest first. -/
def buffered (b : ScancodeBuffer) : List UInt8 :=
  Ring.window b.entries scancodeBufferSize b.readIndex b.len

end ScancodeBuffer

/-! ## Producer and consumer -/

/-- `KEYBOARD_IRQS` and `SCANCODE_BUFFER`. -/
structure KeyboardPort where
  irqs : UInt64
  buffer : ScancodeBuffer
deriving DecidableEq, Repr

namespace KeyboardPort

/-- Before the first key. -/
def initial : KeyboardPort := { irqs := 0, buffer := ScancodeBuffer.new }

/-- `keyboard_interrupt_handler`, with the byte that it reads from the port. -/
def keyboardInterrupt (port : KeyboardPort) (scancode : UInt8) : Checked KeyboardPort := do
  let buffer ← port.buffer.push scancode
  pure { irqs := port.irqs + 1, buffer }

/-- `pop_scancode`. -/
def popScancode (port : KeyboardPort) : Checked (Option UInt8 × KeyboardPort) := do
  let (scancode, buffer) ← port.buffer.pop
  pure (scancode, { port with buffer })

/-- `keyboard_counters`. -/
def keyboardCounters (port : KeyboardPort) : UInt64 × ℕ := (port.irqs, port.buffer.dropped)

end KeyboardPort

/-- An access to the buffer. -/
inductive Access where
  | interrupt (scancode : UInt8)
  | pop
deriving DecidableEq, Repr

/-- What an observer of the accesses writes down. -/
structure Traffic where
  /-- The number of scancodes that have arrived. -/
  pushes : ℕ
  /-- Those that arrived while there was room. -/
  accepted : List UInt8
  /-- The scancodes that `pop` has returned. -/
  popped : List UInt8
deriving DecidableEq, Repr

namespace Traffic

def none : Traffic := { pushes := 0, accepted := [], popped := [] }

/-- How many scancodes have been accepted and not yet been popped. -/
def pending (t : Traffic) : ℕ := t.accepted.length - t.popped.length

/-- A scancode was pushed; it counts as accepted if the ring had room. -/
def arrived (t : Traffic) (scancode : UInt8) : Traffic :=
  { t with
    pushes := t.pushes + 1
    accepted := if t.pending < scancodeBufferSize then t.accepted ++ [scancode] else t.accepted }

/-- A scancode was popped, or the ring was empty. -/
def returned (t : Traffic) (scancode : Option UInt8) : Traffic :=
  { t with popped := t.popped ++ scancode.toList }

end Traffic

/-- One access, with the observer's notes. -/
def access (s : KeyboardPort × Traffic) : Access → Checked (KeyboardPort × Traffic)
  | .interrupt scancode => do
    let port ← s.1.keyboardInterrupt scancode
    pure (port, s.2.arrived scancode)
  | .pop => do
    let (scancode, port) ← s.1.popScancode
    pure (port, s.2.returned scancode)

/-- Any interleaving of interrupts and pops, from boot. -/
def accesses (as : List Access) : Checked (KeyboardPort × Traffic) :=
  as.foldlM access (KeyboardPort.initial, Traffic.none)

/-- The number of interrupts among the accesses. -/
def arrivals (as : List Access) : ℕ :=
  as.countP fun
    | .interrupt _ => true
    | .pop => false

/-! ## The invariant -/

namespace ScancodeBuffer

structure Inv (b : ScancodeBuffer) : Prop where
  size : b.entries.length = scancodeBufferSize
  readLt : b.readIndex < scancodeBufferSize
  lenLe : b.len ≤ scancodeBufferSize
  writeEq : b.writeIndex = (b.readIndex + b.len) % scancodeBufferSize

theorem new_inv : Inv new where
  size := List.length_replicate
  readLt := by decide
  lenLe := Nat.zero_le _
  writeEq := rfl

theorem Inv.writeLt {b : ScancodeBuffer} (h : Inv b) : b.writeIndex < scancodeBufferSize := by
  rw [h.writeEq]
  exact Nat.mod_lt _ (by decide)

theorem Inv.inRange {b : ScancodeBuffer} (h : Inv b) : b.outOfRange = false := by
  have hwrite := h.writeLt
  have hread := h.readLt
  have hlen := h.lenLe
  simp only [outOfRange, Bool.or_eq_false_iff, decide_eq_false_iff_not]
  omega

theorem Inv.repaired_eq {b : ScancodeBuffer} (h : Inv b) : b.repaired = b := by
  rw [repaired, h.inRange]
  rfl

theorem Inv.length_buffered {b : ScancodeBuffer} (h : Inv b) : b.buffered.length = b.len :=
  Ring.length_window h.size (by decide) _ _

/-- A full buffer counts the scancode and keeps what it has. -/
theorem push_full {b : ScancodeBuffer} (h : Inv b) (hfull : b.len = scancodeBufferSize)
    (hdropped : b.dropped + 1 < 2 ^ 64) (scancode : UInt8) :
    b.push scancode = .ok { b with dropped := b.dropped + 1 } := by
  unfold push
  rw [h.repaired_eq]
  simp only
  rw [if_pos hfull, add_eq hdropped]
  rfl

/-- A buffer with room appends the scancode. -/
theorem push_room {b : ScancodeBuffer} (h : Inv b) (hroom : b.len < scancodeBufferSize)
    (scancode : UInt8) : Returns (b.push scancode) fun b' => Inv b' ∧
      b'.buffered = b.buffered ++ [scancode] ∧ b'.len = b.len + 1 ∧ b'.dropped = b.dropped := by
  have hwrite := h.writeLt
  unfold scancodeBufferSize at hroom hwrite
  unfold push
  rw [h.repaired_eq]
  simp only
  rw [if_neg (by unfold scancodeBufferSize; omega),
    store_eq (by rw [h.size]; exact h.writeLt), add_eq (by omega), add_eq (by omega)]
  refine Returns.ok ⟨⟨?_, h.readLt, hroom, ?_⟩, ?_, rfl, rfl⟩
  · rw [List.length_set]
    exact h.size
  · simp only
    rw [h.writeEq, Nat.mod_add_mod, Nat.add_assoc]
  · unfold buffered
    simp only
    rw [h.writeEq]
    exact Ring.window_enqueue h.size hroom scancode

/-- An empty ring gives nothing, and stays. -/
theorem pop_empty {b : ScancodeBuffer} (h : Inv b) (hempty : b.len = 0) :
    b.pop = .ok (none, b) := by
  unfold pop
  rw [h.repaired_eq]
  simp only
  rw [if_pos hempty]
  rfl

/-- A buffer that is not empty gives away its oldest scancode. -/
theorem pop_nonempty {b : ScancodeBuffer} (h : Inv b) (hsome : b.len ≠ 0) :
    Returns b.pop fun result => Inv result.2 ∧ ∃ scancode, result.1 = some scancode ∧
      b.buffered = scancode :: result.2.buffered ∧ b.len = result.2.len + 1 ∧
      result.2.dropped = b.dropped := by
  have hread := h.readLt
  have hlen := h.lenLe
  have hlt : b.readIndex < b.entries.length := by
    rw [h.size]
    exact hread
  have hmod : b.readIndex % scancodeBufferSize = b.readIndex := Nat.mod_eq_of_lt hread
  rcases Nat.exists_eq_succ_of_ne_zero hsome with ⟨left, hleft⟩
  unfold scancodeBufferSize at hread hlen
  unfold pop
  rw [h.repaired_eq]
  simp only
  rw [if_neg hsome]
  unfold index
  -- none of the checks fails: the index is inside, and the counters have room
  rw [List.getElem?_eq_getElem hlt, add_eq (by omega), sub_eq (by omega)]
  refine Returns.ok ⟨⟨h.size, Nat.mod_lt _ (by decide), ?_, ?_⟩, b.entries[b.readIndex], rfl, ?_, ?_,
    rfl⟩
  · simp only
    unfold scancodeBufferSize
    omega
  · simp only
    rw [h.writeEq, Nat.mod_add_mod]
    congr 1
    omega
  -- what is read is the oldest of the window
  · have hfront : b.entries[b.readIndex % scancodeBufferSize]? = some b.entries[b.readIndex] := by
      rw [hmod]
      exact List.getElem?_eq_getElem hlt
    unfold buffered
    simp only
    rw [hleft, Nat.succ_eq_add_one, Nat.add_sub_cancel]
    exact Ring.window_dequeue hfront
  · simp only
    omega

end ScancodeBuffer

/-! ## Whole runs -/

/-- The buffer against the observer's notes. -/
structure Books (s : KeyboardPort × Traffic) : Prop where
  inv : s.1.buffer.Inv
  fifo : s.2.popped ++ s.1.buffer.buffered = s.2.accepted
  balance : s.2.pushes = s.2.popped.length + s.1.buffer.len + s.1.buffer.dropped
  irqs : s.1.irqs = UInt64.ofNat s.2.pushes

theorem books_initial : Books (KeyboardPort.initial, Traffic.none) :=
  ⟨ScancodeBuffer.new_inv, rfl, rfl, rfl⟩

/-- The observer sees from outside how much the buffer holds. -/
theorem Books.pending_eq {s : KeyboardPort × Traffic} (h : Books s) :
    s.2.pending = s.1.buffer.len := by
  have hlength := congrArg List.length h.fifo
  rw [List.length_append, h.inv.length_buffered] at hlength
  unfold Traffic.pending
  omega

theorem irqs_succ (n : ℕ) : UInt64.ofNat n + 1 = UInt64.ofNat (n + 1) := by
  rw [UInt64.ofNat_add]
  rfl

/-- The step of the invariant for an arrival. -/
theorem books_interrupt {s : KeyboardPort × Traffic} (h : Books s)
    (hlimit : s.2.pushes + 1 < 2 ^ 64) (scancode : UInt8) :
    Returns (access s (.interrupt scancode)) fun s' =>
      Books s' ∧ s'.2.pushes = s.2.pushes + 1 := by
  have hpending := h.pending_eq
  have hbalance := h.balance
  have hlen := h.inv.lenLe
  simp only [access, KeyboardPort.keyboardInterrupt]
  by_cases hroom : s.1.buffer.len < scancodeBufferSize
  · rcases ScancodeBuffer.push_room h.inv hroom scancode with ⟨b, hpush, hinv, hbuf, hlen', hdrop⟩
    rw [hpush]
    refine Returns.ok ⟨⟨hinv, ?_, ?_, ?_⟩, rfl⟩
    · simp only [Traffic.arrived, hpending, if_pos hroom, hbuf]
      rw [← List.append_assoc, h.fifo]
    · simp only [Traffic.arrived, hlen', hdrop]
      omega
    · simp only [Traffic.arrived, h.irqs]
      exact irqs_succ _
  · -- the buffer is full, and the observer does not expect the scancode back
    rw [ScancodeBuffer.push_full h.inv (by omega) (by omega)]
    refine Returns.ok ⟨⟨⟨h.inv.size, h.inv.readLt, h.inv.lenLe, h.inv.writeEq⟩, ?_, ?_, ?_⟩, rfl⟩
    · simp only [Traffic.arrived, hpending, if_neg hroom]
      exact h.fifo
    · simp only [Traffic.arrived]
      omega
    · simp only [Traffic.arrived, h.irqs]
      exact irqs_succ _

/-- The step of the invariant for a pop. -/
theorem books_pop {s : KeyboardPort × Traffic} (h : Books s) :
    Returns (access s .pop) fun s' => Books s' ∧ s'.2.pushes = s.2.pushes := by
  have hbalance := h.balance
  simp only [access, KeyboardPort.popScancode]
  by_cases hempty : s.1.buffer.len = 0
  · rw [ScancodeBuffer.pop_empty h.inv hempty]
    refine Returns.ok ⟨⟨h.inv, ?_, ?_, h.irqs⟩, rfl⟩
    · simp only [Traffic.returned, Option.toList_none, List.append_nil]
      exact h.fifo
    · simp only [Traffic.returned, Option.toList_none, List.append_nil]
      exact h.balance
  · rcases ScancodeBuffer.pop_nonempty h.inv hempty with
      ⟨⟨_, b⟩, hpop, hinv, scancode, rfl, hbuf, hlen, hdrop⟩
    rw [hpop]
    refine Returns.ok ⟨⟨hinv, ?_, ?_, h.irqs⟩, rfl⟩
    · -- what was in front of the queue is now the last of the popped
      simp only [Traffic.returned, Option.toList_some]
      rw [List.append_assoc, List.singleton_append, ← hbuf]
      exact h.fifo
    · simp only at hlen hdrop
      simp only [Traffic.returned, Option.toList_some, List.length_append, List.length_singleton]
      omega

/-- The invariant, over a run. -/
theorem books_run (as : List Access) {s : KeyboardPort × Traffic} (h : Books s)
    (hlimit : s.2.pushes + arrivals as < 2 ^ 64) :
    Returns (as.foldlM access s) fun s' =>
      Books s' ∧ s'.2.pushes = s.2.pushes + arrivals as := by
  induction as generalizing s with
  | nil => exact Returns.pure ⟨h, rfl⟩
  | cons a as ih =>
    rw [List.foldlM_cons]
    cases a with
    | interrupt scancode =>
      -- the arrivals that are still to come fit, with this one
      have harrivals : arrivals (.interrupt scancode :: as) = arrivals as + 1 := by
        simp [arrivals]
      rw [harrivals] at hlimit ⊢
      refine (books_interrupt h (by omega) scancode).bind ?_
      intro s' hs'
      refine (ih hs'.1 (by omega)).mono ?_
      intro s'' hs''
      exact ⟨hs''.1, by omega⟩
    | pop =>
      have harrivals : arrivals (.pop :: as) = arrivals as := by simp [arrivals]
      rw [harrivals] at hlimit ⊢
      refine (books_pop h).bind ?_
      intro s' hs'
      refine (ih hs'.1 (by omega)).mono ?_
      intro s'' hs''
      exact ⟨hs''.1, by omega⟩

/-- The front of the queue is what `pop_scancode` returns, and the rest is what it leaves. -/
theorem popScancode_front {port : KeyboardPort} (h : port.buffer.Inv) {scancode : UInt8}
    {rest : List UInt8} (hbuffered : port.buffer.buffered = scancode :: rest) :
    ∃ port', port.popScancode = .ok (some scancode, port') ∧ port'.buffer.buffered = rest ∧
      port'.irqs = port.irqs ∧ port'.buffer.dropped = port.buffer.dropped := by
  have hsome : port.buffer.len ≠ 0 := by
    rw [← h.length_buffered, hbuffered]
    exact Nat.succ_ne_zero _
  rcases ScancodeBuffer.pop_nonempty h hsome with ⟨⟨_, b⟩, hpop, -, oldest, rfl, hbuf, -, hdrop⟩
  rw [hbuffered, List.cons.injEq] at hbuf
  rcases hbuf with ⟨rfl, rfl⟩
  refine ⟨{ port with buffer := b }, ?_, rfl, rfl, hdrop⟩
  unfold KeyboardPort.popScancode
  rw [hpop]
  rfl

theorem popScancode_empty {port : KeyboardPort} (h : port.buffer.Inv)
    (hbuffered : port.buffer.buffered = []) : port.popScancode = .ok (none, port) := by
  have hempty : port.buffer.len = 0 := by
    rw [← h.length_buffered, hbuffered]
    rfl
  unfold KeyboardPort.popScancode
  rw [ScancodeBuffer.pop_empty h hempty]
  rfl

/-- **Scancodes.** Every interleaving of fewer than `2 ^ 64` interrupts with pops returns; the
indices are in order and nothing needs repair; what was popped followed by what is buffered is
what arrived while there was room; the next pop returns the oldest scancode that is buffered, and
none only from an empty buffer; and every scancode is accounted for. -/
theorem ring_is_bounded_fifo (as : List Access) (hlimit : arrivals as < 2 ^ 64) :
    ∃ port traffic, accesses as = .ok (port, traffic) ∧
      port.buffer.readIndex < scancodeBufferSize ∧
      port.buffer.writeIndex < scancodeBufferSize ∧
      port.buffer.len ≤ scancodeBufferSize ∧
      port.buffer.writeIndex = (port.buffer.readIndex + port.buffer.len) % scancodeBufferSize ∧
      port.buffer.outOfRange = false ∧
      traffic.popped ++ port.buffer.buffered = traffic.accepted ∧
      port.buffer.buffered.length = port.buffer.len ∧
      (∀ scancode rest, port.buffer.buffered = scancode :: rest →
        ∃ port', port.popScancode = .ok (some scancode, port') ∧ port'.buffer.buffered = rest ∧
          port'.irqs = port.irqs ∧ port'.buffer.dropped = port.buffer.dropped) ∧
      (port.buffer.buffered = [] → port.popScancode = .ok (none, port)) ∧
      traffic.pushes = arrivals as ∧
      traffic.pushes = traffic.popped.length + port.buffer.len + port.buffer.dropped := by
  have hrun := books_run as books_initial (by simpa [Traffic.none] using hlimit)
  rcases hrun with ⟨⟨port, traffic⟩, hrun, hbooks, hpushes⟩
  refine ⟨port, traffic, hrun, hbooks.inv.readLt, hbooks.inv.writeLt, hbooks.inv.lenLe,
    hbooks.inv.writeEq, hbooks.inv.inRange, hbooks.fifo, hbooks.inv.length_buffered,
    fun scancode rest => popScancode_front hbooks.inv, popScancode_empty hbooks.inv, ?_,
    hbooks.balance⟩
  simpa [Traffic.none] using hpushes

/-- A pop of an empty buffer, three arrivals, and a pop: the first scancode has been popped, and the
second is the next. -/
theorem ring_is_bounded_fifo_three_arrivals :
    ∃ port traffic, accesses [.pop, .interrupt 0x1E, .interrupt 0x9E, .pop, .interrupt 0x30] =
        .ok (port, traffic) ∧
      traffic.popped = [0x1E] ∧ port.buffer.buffered = [0x9E, 0x30] ∧
      (∃ port', port.popScancode = .ok (some 0x9E, port') ∧ port'.buffer.buffered = [0x30]) ∧
      traffic.pushes = 3 := by
  rcases ring_is_bounded_fifo [.pop, .interrupt 0x1E, .interrupt 0x9E, .pop, .interrupt 0x30]
      (by decide) with
    ⟨port, traffic, hrun, _, _, _, _, _, hfifo, _, hfront, _, hpushes, _⟩
  have hnotes : (accesses [.pop, .interrupt 0x1E, .interrupt 0x9E, .pop, .interrupt 0x30]).map
      (fun s => (s.2.popped, s.2.accepted)) = .ok ([0x1E], [0x1E, 0x9E, 0x30]) := by decide +kernel
  rw [hrun] at hnotes
  have hpair : (traffic.popped, traffic.accepted) = ([0x1E], [0x1E, 0x9E, 0x30]) :=
    Except.ok.inj hnotes
  rcases Prod.mk.inj hpair with ⟨hpopped, haccepted⟩
  rw [hpopped, haccepted] at hfifo
  have hbuffered : port.buffer.buffered = [0x9E, 0x30] :=
    @List.append_cancel_left _ [0x1E] _ _ hfifo
  rcases hfront _ _ hbuffered with ⟨port', hpop, hrest, _⟩
  exact ⟨port, traffic, hrun, hpopped, hbuffered, ⟨port', hpop, hrest⟩, hpushes⟩

end JingOS.Interrupts
