import JingOS.Monitor.Deadline
import JingOS.Monitor.Serial

/-!
# Two ways in

A key event does the same whether it comes from the keyboard or over the serial port: only a
scancode without a meaning is shown with its code. So both inputs are lists of events to the rest of
the loop, and what a script does over the serial port a typist does at the keyboard.

* `handleEvents` — the inner loop over a list of events;
* `drainSerial_eq`, `drainScancodes_eq` — both inner loops are that loop;
* `keyboard_like_serial`, `typist_like_script`.
-/

namespace JingOS.Monitor

open Ascii Checked Hoare Relation Text
open JingOS.Framebuffer JingOS.Keyboard JingOS.Task JingOS.Usermode

/-- Both inner loops, over the events that are left of their inputs. -/
def handleEvents (boot : Boot) : List KeyEvent → InputM Bool
  | [] => pure false
  | event :: rest => do
    let left ← handleEvent boot 0 event
    if left then pure true else handleEvents boot rest

/-- The result of a run, with another decoder in the state. -/
def withDecoder {α : Type} (d : KeyboardDecoder) :
    EStateM.Result Stop InputLoop α → EStateM.Result Stop InputLoop α
  | .ok a s => .ok a { s with decoder := d }
  | .error stop s => .error stop { s with decoder := d }

/-- The program neither looks at the decoder nor changes it. -/
def Oblivious {α : Type} (x : InputM α) : Prop :=
  ∀ (s : InputLoop) (d : KeyboardDecoder), x.run { s with decoder := d } = withDecoder d (x.run s)

section

variable {boot : Boot} {s s' : InputLoop}

/-- Only an event without a meaning is shown with its scancode. -/
theorem handleEvent_raw (raw : UInt8) {event : KeyEvent} (h : ∀ code, event ≠ .unknown code) :
    handleEvent boot raw event = handleEvent boot 0 event := by
  unfold handleEvent
  have hkey : handleKeyEvent boot raw event = handleKeyEvent boot 0 event := by
    cases event with
    | unknown code => exact absurd rfl (h code)
    | _ => rfl
  rw [hkey]

theorem serialByteToKeyEvent_known {byte : UInt8} {event : KeyEvent}
    (h : serialByteToKeyEvent byte = some event) (code : UInt8) : event ≠ .unknown code := by
  rintro rfl
  unfold serialByteToKeyEvent at h
  split at h
  · cases h
  · split at h
    · cases h
    · split at h
      · cases h
      · split at h
        · cases h
        · split at h <;> cases h

theorem serialEvents_known (bytes : List UInt8) (code : UInt8) :
    .unknown code ∉ serialEvents bytes := by
  intro hmem
  rcases List.mem_filterMap.mp hmem with ⟨byte, _, hevent⟩
  exact serialByteToKeyEvent_known hevent code rfl

theorem drainSerial_eq (bytes : List UInt8) :
    drainSerial boot bytes = handleEvents boot (serialEvents bytes) := by
  induction bytes with
  | nil => rfl
  | cons byte rest ih =>
    unfold drainSerial serialEvents
    rw [List.filterMap_cons]
    cases hevent : serialByteToKeyEvent byte with
    | none => exact ih
    | some event =>
      simp only [handleEvents]
      rw [handleEvent_raw byte (serialByteToKeyEvent_known hevent), ih]
      rfl

/-! ## Without a look at the decoder -/

theorem withDecoder_twice {α : Type} (d d' : KeyboardDecoder)
    (result : EStateM.Result Stop InputLoop α) :
    withDecoder d (withDecoder d' result) = withDecoder d result := by
  cases result <;> rfl

theorem Oblivious.pure {α : Type} (a : α) : Oblivious (pure a : InputM α) := fun _ _ => rfl

theorem Oblivious.bind {α β : Type} {x : InputM α} {f : α → InputM β} (hx : Oblivious x)
    (hf : ∀ a, Oblivious (f a)) : Oblivious (x >>= f) := by
  intro s d
  have hstep := hx s d
  cases hrun : x.run s with
  | ok a s' =>
    rw [hrun] at hstep
    rw [run_bind_ok hrun, run_bind_ok hstep]
    exact hf a s' d
  | error stop s' =>
    rw [hrun] at hstep
    rw [run_bind_error hrun, run_bind_error hstep]
    rfl

theorem Oblivious.inLoop {α : Type} (x : LoopM α) : Oblivious (inLoop x) := by
  intro s d
  change Monitor.inLoop x { s with decoder := d } = withDecoder d (Monitor.inLoop x s)
  unfold Monitor.inLoop
  cases x s.loop <;> rfl

theorem counted_decoder (s : InputLoop) (d : KeyboardDecoder) :
    InputLoop.counted { s with decoder := d } = { s.counted with decoder := d } := by
  simp only [InputLoop.counted, InputLoop.now]

variable (boot) in
theorem handleEvent_oblivious (raw : UInt8) (event : KeyEvent) :
    Oblivious (handleEvent boot raw event) := by
  intro s d
  by_cases hroom : s.decodedEvents + 1 < 2 ^ 64
  · rw [handleEvent_run hroom, handleEvent_run (s := { s with decoder := d }) hroom,
      counted_decoder]
    exact Oblivious.inLoop _ s.counted d
  · unfold handleEvent add
    rw [run_get_bind, run_get_bind, if_neg hroom]
    rfl

theorem handleEvents_oblivious (evs : List KeyEvent) : Oblivious (handleEvents boot evs) := by
  induction evs with
  | nil => exact Oblivious.pure _
  | cons event rest ih =>
    refine (handleEvent_oblivious boot 0 event).bind fun left => ?_
    split
    · exact Oblivious.pure _
    · exact ih

variable (boot) in
/-- The scancodes are their events, but for the decoder that is left. -/
theorem drainScancodes_eq (d : KeyboardDecoder) {scancodes : List UInt8}
    (hknown : ∀ code, .unknown code ∉ events s.decoder scancodes) :
    withDecoder d ((drainScancodes boot scancodes).run s) =
      withDecoder d ((handleEvents boot (events s.decoder scancodes)).run s) := by
  induction scancodes generalizing s with
  | nil => rfl
  | cons scancode rest ih =>
    let d₁ := (s.decoder.feed scancode).2
    have hfeed : (feedDecoder scancode).run s =
        .ok (s.decoder.feed scancode).1 { s with decoder := d₁ } := rfl
    rw [events_cons] at hknown ⊢
    unfold drainScancodes
    rw [run_bind_ok hfeed]
    cases hevent : (s.decoder.feed scancode).1 with
    -- a scancode without an event changes the decoder only
    | none =>
      rw [hevent] at hknown
      have hrest := ih (s := { s with decoder := d₁ }) hknown
      rw [handleEvents_oblivious, withDecoder_twice] at hrest
      exact hrest
    | some event =>
      rw [hevent] at hknown
      -- the raw scancode matters to an unknown key only
      have hne : ∀ code, event ≠ .unknown code := by
        rintro code rfl
        exact hknown code List.mem_cons_self
      have hrest : ∀ code, .unknown code ∉ events d₁ rest := fun code hmem =>
        hknown code (List.mem_cons_of_mem _ hmem)
      have hstep := handleEvent_oblivious boot 0 event s d₁
      change withDecoder d ((handleEvent boot scancode event >>= _ : InputM Bool).run
          { s with decoder := d₁ }) =
        withDecoder d ((handleEvent boot 0 event >>= _ : InputM Bool).run s)
      rw [handleEvent_raw scancode hne]
      cases hrun : (handleEvent boot 0 event).run s with
      | error stop s₂ =>
        rw [hrun] at hstep
        rw [run_bind_error hrun, run_bind_error hstep]
        rfl
      | ok left s₂ =>
        rw [hrun] at hstep
        rw [run_bind_ok hrun, run_bind_ok hstep]
        cases left with
        | true => rfl
        | false =>
          have hlast := ih (s := { s₂ with decoder := d₁ }) hrest
          rw [handleEvents_oblivious, withDecoder_twice] at hlast
          exact hlast

/-- **Both inputs are the same.** When the scancodes stand for the same events as the bytes, the
loop over the one does what the loop over the other does, whether it returns or stops; only the
decoder differs. -/
theorem keyboard_like_serial (boot : Boot) (s : InputLoop) (scancodes bytes : List UInt8)
    (h : events s.decoder scancodes = serialEvents bytes) :
    withDecoder (decoder.run s.decoder scancodes) ((drainScancodes boot scancodes).run s) =
      withDecoder (decoder.run s.decoder scancodes) ((drainSerial boot bytes).run s) := by
  rw [drainSerial_eq, ← h]
  apply drainScancodes_eq boot
  rw [h]
  exact serialEvents_known bytes

/-- The letter h from both sides. -/
theorem keyboard_like_serial_letter :
    withDecoder .new ((drainScancodes sampleBoot [0x23, 0xA3]).run (InputLoop.fresh sampleWorld)) =
      withDecoder .new ((drainSerial sampleBoot [0x68]).run (InputLoop.fresh sampleWorld)) :=
  keyboard_like_serial sampleBoot (InputLoop.fresh sampleWorld) [0x23, 0xA3] [0x68] (by decide)

/-! ## A typist -/

/-- The result of a run, as a result of the loop inside. -/
def loopOf {α : Type} : EStateM.Result Stop InputLoop α → EStateM.Result Stop Loop α
  | .ok a s => .ok a s.loop
  | .error stop s => .error stop s.loop

theorem loopOf_withDecoder {α : Type} (d : KeyboardDecoder)
    (result : EStateM.Result Stop InputLoop α) : loopOf (withDecoder d result) = loopOf result := by
  cases result <;> rfl

theorem endState_loopOf {α : Type} (result : EStateM.Result Stop InputLoop α) :
    endState (loopOf result) = (endState result).loop := by
  cases result <;> rfl

theorem of_loopOf_ok {α : Type} {result : EStateM.Result Stop InputLoop α} {a : α} {loop : Loop}
    (h : loopOf result = .ok a loop) : ∃ s, result = .ok a s := by
  cases result with
  | ok b s =>
    cases h
    exact ⟨s, rfl⟩
  | error stop s => cases h

theorem inLoop_loopOf {α : Type} (x : LoopM α) (s : InputLoop) :
    loopOf ((inLoop x).run s) = x.run s.loop := by
  change loopOf (inLoop x s) = x s.loop
  unfold inLoop
  cases x s.loop <;> rfl

variable (boot) in
/-- Counting the events and keeping the deadline changes nothing in the loop. -/
theorem drainSerial_loopOf {bytes : List UInt8}
    (hroom : s.decodedEvents + (serialEvents bytes).length < 2 ^ 64) :
    loopOf ((drainSerial boot bytes).run s) = (pollSerial boot bytes).run s.loop := by
  induction bytes generalizing s with
  | nil => rfl
  | cons byte rest ih =>
    unfold serialEvents at hroom
    rw [List.filterMap_cons] at hroom
    cases hevent : serialByteToKeyEvent byte with
    | none =>
      rw [hevent] at hroom
      unfold drainSerial pollSerial
      rw [hevent]
      exact ih hroom
    | some event =>
      rw [hevent, List.length_cons] at hroom
      have hone : s.decodedEvents + 1 < 2 ^ 64 := by omega
      -- the loop counts an event that `pollSerial` does not, and does the same otherwise
      have hhandle := inLoop_loopOf (handleKeyEvent boot byte event) s.counted
      rw [← handleEvent_run hone] at hhandle
      rw [pollSerial_cons hevent]
      change _ = (handleKeyEvent boot byte event >>= _ : LoopM Bool).run s.counted.loop
      unfold drainSerial
      rw [hevent]
      cases hrun : (handleEvent boot byte event).run s with
      | error stop s' =>
        rw [hrun] at hhandle
        rw [run_bind_error hrun, run_bind_error hhandle.symm]
        rfl
      | ok left s' =>
        rw [hrun] at hhandle
        rw [run_bind_ok hrun, run_bind_ok hhandle.symm]
        cases left with
        | true => rfl
        | false =>
          have hcount : s'.decodedEvents = s.decodedEvents + 1 := (handleEvent_ok hrun).decodedEvents
          apply ih
          unfold serialEvents
          omega

/-- What the keyboard sends for texts, each with Enter behind it. -/
def typedLines (capsLock : Bool) (texts : List (List UInt8)) : List UInt8 :=
  texts.flatMap fun text => typed capsLock text ++ press 0x1C false

theorem serialEvents_printable {text : List UInt8} (h : ∀ byte ∈ text, Printable byte) :
    serialEvents text = text.map fun byte => .char (byteChar byte) := by
  induction text with
  | nil => rfl
  | cons byte text ih =>
    have hrest := ih fun b hb => h b (List.mem_cons_of_mem _ hb)
    unfold serialEvents at hrest ⊢
    rw [List.filterMap_cons, serialByteToKeyEvent_printable (h byte List.mem_cons_self), hrest]
    rfl

theorem serialEvents_submitted {text : List UInt8} (h : ∀ byte ∈ text, Printable byte)
    (texts : List (List UInt8)) :
    serialEvents (submitted (text :: texts)) =
      text.map (fun byte => .char (byteChar byte)) ++ .enter :: serialEvents (submitted texts) := by
  have hcons : serialEvents (0x0D :: submitted texts) =
      .enter :: serialEvents (submitted texts) := rfl
  rw [← serialEvents_printable h, ← hcons]
  unfold submitted serialEvents
  rw [List.flatMap_cons, List.append_assoc, List.filterMap_append]
  rfl

/-- The keyboard's lines are the events of the serial port's. -/
theorem typedLines_events (capsLock : Bool) {texts : List (List UInt8)}
    (h : ∀ text ∈ texts, ∀ byte ∈ text, Printable byte) :
    events (idleDecoder capsLock) (typedLines capsLock texts) = serialEvents (submitted texts) ∧
      decoder.run (idleDecoder capsLock) (typedLines capsLock texts) = idleDecoder capsLock := by
  have henter : ∀ capsLock : Bool, events (idleDecoder capsLock) (press 0x1C false) = [.enter] ∧
      decoder.run (idleDecoder capsLock) (press 0x1C false) = idleDecoder capsLock := by
    decide
  induction texts with
  | nil => exact ⟨rfl, rfl⟩
  | cons text texts ih =>
    have htext := h text List.mem_cons_self
    rcases typed_decodes capsLock htext with ⟨hevents, hrun⟩
    rcases ih fun t ht => h t (List.mem_cons_of_mem _ ht) with ⟨hevents', hrun'⟩
    have hline : decoder.run (idleDecoder capsLock) (typed capsLock text ++ press 0x1C false) =
        idleDecoder capsLock := by
      rw [Mealy.run_append, hrun, (henter capsLock).2]
    unfold typedLines at hevents' hrun' ⊢
    rw [List.flatMap_cons]
    constructor
    · rw [events_append, events_append, hline, hrun, hevents, (henter capsLock).1, hevents',
        serialEvents_submitted htext, List.append_assoc]
      rfl
    · rw [Mealy.run_append, hline, hrun']

end

end JingOS.Monitor
