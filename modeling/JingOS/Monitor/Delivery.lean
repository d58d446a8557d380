import JingOS.Monitor.Endings
import JingOS.Monitor.Proceeding

/-!
# A script over many rounds

The bytes of a script come over the serial port as the host and the chip let them: a round of
`input_loop` takes some of them, in the middle of a line or not, and the automatic scheduler has its
turn between two rounds.

* `typedBy` — the lines in some bytes, and the beginning of the next one;
* `Delivered`, `Stopped` — the loop behind some bytes, and where it has stopped among them;
* `script_delivered` — however the bytes are divided, the lines are executed one after the other.
-/

namespace JingOS.Monitor

open Ascii Checked Hoare Relation Text
open JingOS.Keyboard

/-! ## Lines in bytes -/

/-- The finished lines, and the one that is typed. -/
abbrev Typed := List (List UInt8) × List UInt8

/-- A carriage return ends a line, every other byte belongs to it. -/
def typeByte (typed : Typed) (byte : UInt8) : Typed :=
  if byte = 0x0D then (typed.1 ++ [typed.2], []) else (typed.1, typed.2 ++ [byte])

/-- The lines that some bytes have ended, and what is left of the next. -/
def typedBy (bytes : List UInt8) : Typed := bytes.foldl typeByte ([], [])

theorem typedBy_concat (bytes : List UInt8) (byte : UInt8) :
    typedBy (bytes ++ [byte]) = typeByte (typedBy bytes) byte := by
  unfold typedBy
  rw [List.foldl_append]
  rfl

/-- Finished lines stay finished. -/
theorem typedBy_prefix {front bytes : List UInt8} (h : front <+: bytes) :
    (typedBy front).1 <+: (typedBy bytes).1 := by
  rcases h with ⟨rest, rfl⟩
  induction rest using List.reverseRecOn with
  | nil => rw [List.append_nil]
  | append_singleton rest byte ih =>
    rw [← List.append_assoc, typedBy_concat]
    refine ih.trans ?_
    unfold typeByte
    split
    · exact List.prefix_append _ _
    · exact List.prefix_refl _

/-- A text without a carriage return becomes a part of the line. -/
theorem foldl_typeByte_text {text : List UInt8} (h : (0x0D : UInt8) ∉ text) (typed : Typed) :
    text.foldl typeByte typed = (typed.1, typed.2 ++ text) := by
  induction text generalizing typed with
  | nil => rw [List.append_nil]; rfl
  | cons byte text ih =>
    have hbyte : byte ≠ 0x0D := by
      rintro rfl
      exact h List.mem_cons_self
    rw [List.foldl_cons, ih (fun hmem => h (List.mem_cons_of_mem _ hmem)), typeByte, if_neg hbyte,
      List.append_assoc]
    rfl

/-- The lines of texts that are submitted are these texts. -/
theorem typedBy_submitted {texts : List (List UInt8)} (h : ∀ text ∈ texts, (0x0D : UInt8) ∉ text) :
    typedBy (submitted texts) = (texts, []) := by
  have hfold : ∀ done : List (List UInt8),
      (submitted texts).foldl typeByte (done, []) = (done ++ texts, []) := by
    induction texts with
    | nil => intro done; rw [List.append_nil]; rfl
    | cons text texts ih =>
      intro done
      have hsplit : submitted (text :: texts) = text ++ 0x0D :: submitted texts := by
        simp [submitted]
      rw [hsplit, List.foldl_append, foldl_typeByte_text (h text List.mem_cons_self),
        List.foldl_cons, typeByte, if_pos rfl, List.nil_append,
        ih fun text' hmem => h text' (List.mem_cons_of_mem _ hmem), List.append_assoc]
      rfl
  exact hfold []

/-! ## The loop behind some bytes -/

/-- A byte that a script sends. -/
def ScriptByte (byte : UInt8) : Prop := (0x20 ≤ byte ∧ byte ≤ 0x7E) ∨ byte = 0x0D

/-- What the loop has executed: the calls of before, and one for each of the lines. -/
def Executed (before : List String) (texts : List (List UInt8)) (s : Loop) : Prop :=
  s.calls.map Call.text = before ++ texts.map fun text => asciiText (text.take inputLineMax)

/-- The bytes have been taken. -/
structure Delivered (before : List String) (bytes : List UInt8) (s : Loop) : Prop where
  wellFormed : s.WellFormed
  executed : Executed before (typedBy bytes).1 s
  line : s.desk.editor = .typed ((typedBy bytes).2.take inputLineMax)

/-- A beginning of the bytes has been taken. -/
def Stopped (before : List String) (bytes : List UInt8) (s : Loop) : Prop :=
  ∃ front, front <+: bytes ∧ Executed before (typedBy front).1 s

section

variable {boot : Boot} {before : List String} {front bytes : List UInt8}

theorem Stopped.mono {more : List UInt8} {s : Loop} (h : Stopped before bytes s)
    (hpre : bytes <+: more) : Stopped before more s := by
  rcases h with ⟨front, hfront, hexecuted⟩
  exact ⟨front, hfront.trans hpre, hexecuted⟩

theorem Delivered.stopped {s : Loop} (h : Delivered before front s) (hpre : front <+: bytes) :
    Stopped before bytes s := ⟨front, hpre, h.executed⟩

/-- **One byte.** It is a character of the line, or it submits the line. -/
theorem handleEvent_delivers (hboot : boot.Successful) {byte : UInt8} (hbyte : ScriptByte byte)
    {event : KeyEvent} (hevent : serialByteToKeyEvent byte = some event)
    (hbytes : front ++ [byte] <+: bytes) :
    Triple (fun s => Delivered before front s.loop) (handleEvent boot byte event)
      (fun left s => (left = false → Delivered before (front ++ [byte]) s.loop) ∧
        s.loop.WellFormed ∧ Stopped before bytes s.loop)
      (fun _ s => Stopped before bytes s.loop) := by
  intro s hs
  by_cases hroom : s.decodedEvents + 1 < 2 ^ 64
  swap
  · -- the counter is full: nothing has been done with the byte
    have hstops : ∃ stop, (handleEvent boot byte event).run s = .error stop s := by
      unfold handleEvent add
      rw [run_get_bind, if_neg hroom]
      exact ⟨_, rfl⟩
    rcases hstops with ⟨stop, hrun⟩
    rw [hrun]
    exact hs.stopped ((List.prefix_append _ _).trans hbytes)
  rw [handleEvent_run hroom]
  have hwf : s.counted.loop.WellFormed := interrupted_wellFormed hs.wellFormed
  rcases hbyte with hprintable | rfl
  · -- a character
    rw [serialByteToKeyEvent_printable hprintable] at hevent
    cases hevent
    have hne : KeyEvent.char (byteChar byte) ≠ .enter := by simp
    have hreturn : byte ≠ 0x0D := by
      rintro rfl
      exact absurd hprintable.1 (by decide)
    rcases key_replies boot hwf byte hne with ⟨s', hrun, hanswers⟩
    rw [inLoop_run hrun]
    have hdelivered : Delivered before (front ++ [byte]) s' := by
      refine ⟨hanswers.wellFormed, ?_, ?_⟩
      · unfold Executed
        rw [hanswers.calls, typedBy_concat, typeByte, if_neg hreturn]
        exact hs.executed
      · rw [hanswers.desk, typedBy_concat, typeByte, if_neg hreturn]
        exact key_typed hs.line (Host.lt_of_printable hprintable) byte
    exact ⟨fun _ => hdelivered, hanswers.wellFormed, hdelivered.stopped hbytes⟩
  · -- the end of the line
    cases hevent
    rcases enterKey_run hboot hwf with ⟨history, _, _, henter⟩
    have htext : (s.counted.loop.call boot history).text =
        asciiText ((typedBy front).2.take inputLineMax) :=
      congrArg (fun editor : Editor => asciiText editor.text) hs.line
    have hexecuted : ∀ s' : Loop, s'.calls = s.loop.calls ++ [s.counted.loop.call boot history] →
        Executed before (typedBy (front ++ [0x0D])).1 s' := by
      intro s' hcalls
      have hold : s.loop.calls.map Call.text = before ++ _ := hs.executed
      unfold Executed
      rw [hcalls, List.map_append, hold, typedBy_concat, typeByte, if_pos rfl, List.map_append,
        List.append_assoc]
      exact congrArg (fun text => before ++ (_ ++ [text])) htext
    rw [show handleKeyEvent boot 0x0D .enter = enterKey boot from rfl]
    cases hrun : (s.counted.loop.call boot history).result with
    | error stop w =>
      rw [hrun] at henter
      rw [inLoop_stops henter.1]
      exact ⟨_, hbytes, hexecuted _ rfl⟩
    | ok left w =>
      rw [hrun] at henter
      rcases henter with ⟨s', henter, hwf', hdesk, hcalls, _⟩
      rw [inLoop_run henter]
      refine ⟨fun hleft => ⟨hwf', hexecuted s' hcalls, ?_⟩, hwf', _, hbytes, hexecuted s' hcalls⟩
      change s'.desk.editor = _
      rw [hdesk, hleft, typedBy_concat, typeByte, if_pos rfl]
      rfl

theorem serialByteToKeyEvent_scriptByte {byte : UInt8} (h : ScriptByte byte) :
    ∃ event, serialByteToKeyEvent byte = some event := by
  rcases h with hprintable | rfl
  · exact ⟨_, serialByteToKeyEvent_printable hprintable⟩
  · exact ⟨.enter, rfl⟩

/-- **The bytes of a round**, up to the one that leaves the monitor. -/
theorem drainSerial_delivers (hboot : boot.Successful) (hbytes : ∀ byte ∈ bytes, ScriptByte byte) :
    Triple (fun s => Delivered before front s.loop) (drainSerial boot bytes)
      (fun left s => (left = false → Delivered before (front ++ bytes) s.loop) ∧
        s.loop.WellFormed ∧ Stopped before (front ++ bytes) s.loop)
      (fun _ s => Stopped before (front ++ bytes) s.loop) := by
  induction bytes generalizing front with
  | nil =>
    refine Triple.pure fun s hs => ?_
    rw [List.append_nil]
    exact ⟨fun _ => hs, hs.wellFormed, hs.stopped (List.prefix_refl _)⟩
  | cons byte rest ih =>
    have hbyte := hbytes byte List.mem_cons_self
    have hsplit : front ++ byte :: rest = (front ++ [byte]) ++ rest := by simp
    have hpre : front ++ [byte] <+: front ++ byte :: rest := by
      rw [hsplit]
      exact List.prefix_append _ _
    rcases serialByteToKeyEvent_scriptByte hbyte with ⟨event, hevent⟩
    unfold drainSerial
    rw [hevent]
    refine (handleEvent_delivers hboot hbyte hevent hpre).bind fun left => ?_
    -- the line was `exit`: the rest is not looked at
    cases left with
    | true =>
      rw [if_pos rfl]
      exact Triple.pure fun s hs => ⟨fun hleft => absurd hleft.symm Bool.false_ne_true, hs.2⟩
    | false =>
      rw [if_neg (by decide), hsplit]
      have hrest : Triple (fun s => Delivered before (front ++ [byte]) s.loop)
          (drainSerial boot rest) _ _ := ih fun b hb => hbytes b (List.mem_cons_of_mem _ hb)
      exact hrest.mono (fun s hs => hs.1 rfl) fun _ _ => id

/-! ## Rounds -/

/-- A program that runs between two lines keeps what is said of line and calls alone. -/
theorem inWorld_delivers {α : Type} {x : MonitorM α} {stops : Stop → Prop}
    (hx : ∀ history, Safe (Framed World.history history) stops x) :
    Triple (fun s => Delivered before bytes s.loop) (inLoop (inWorld x))
      (fun _ s => Delivered before bytes s.loop) (fun _ s => Stopped before bytes s.loop) :=
  inWorld_keeps (fun _ hs => hs.wellFormed) hx
    (fun _ _ hs hinv hsame => ⟨hs.wellFormed.withWorld hinv hsame, hs.executed, hs.line⟩)
    fun _ _ _ hs _ _ _ => hs.stopped (List.prefix_refl _)

theorem inWorld_stopped {α : Type} {x : MonitorM α}
    (hx : ∀ history, Safe (Framed World.history history) Never x) :
    Triple (fun s => s.loop.WellFormed ∧ Stopped before bytes s.loop) (inLoop (inWorld x))
      (fun _ s => s.loop.WellFormed ∧ Stopped before bytes s.loop)
      (fun _ s => Stopped before bytes s.loop) :=
  inWorld_keeps (fun _ hs => hs.1) hx
    (fun _ _ hs hinv hsame => ⟨hs.1.withWorld hinv hsame, hs.2⟩)
    fun _ _ _ hs _ _ _ => hs.2

variable (boot) in
theorem exitMonitor_stopped (reason : String) :
    Triple (fun s => s.loop.WellFormed ∧ Stopped before bytes s.loop) (exitMonitor boot reason)
      (fun code s => code ≠ none ∧ Stopped before bytes s.loop)
      (fun _ s => Stopped before bytes s.loop) := by
  refine (inWorld_stopped fun _ => keyboardCounters_safe).bind fun _ => Triple.get fun s hs => ?_
  refine Triple.mono (P := fun s => s.loop.WellFormed ∧ Stopped before bytes s.loop) ?_
    (fun s' hs' => by rw [hs']; exact hs) fun _ _ => id
  exact (inWorld_stopped fun _ => println_safe _).bind fun _ =>
    Triple.pure fun _ hs => ⟨Option.some_ne_none _, hs.2⟩

/-- Of a round that goes on all bytes have been taken; of any other a beginning. -/
def RoundDelivers (before : List String) (bytes : List UInt8) (code : Option QemuExitCode)
    (s : InputLoop) : Prop :=
  (code = none → Delivered before bytes s.loop) ∧ Stopped before bytes s.loop

/-- What is done behind the input executes no line. -/
theorem afterInput_delivers :
    Triple (fun s => Delivered before bytes s.loop) (afterInput boot) (RoundDelivers before bytes)
      (fun _ s => Stopped before bytes s.loop) := by
  have hticks : ∀ history, Safe (Framed World.history history) Never ticks := fun _ => ticks_safe
  refine (inWorld_delivers hticks).bind fun now => ?_
  refine (inWorld_delivers fun history => maybeRun_keeps now history).bind fun _ =>
    Triple.get fun s hs => ?_
  refine Triple.mono (P := fun s => Delivered before bytes s.loop) ?_
    (fun s' hs' => by rw [hs']; exact hs) fun _ _ => id
  split
  · refine Triple.mono (exitMonitor_stopped boot _)
      (fun s hs => ⟨hs.wellFormed, hs.stopped (List.prefix_refl _)⟩) fun code s hs => ?_
    exact ⟨fun hcode => absurd hcode hs.1, hs.2⟩
  · exact Triple.pure fun s hs => ⟨fun _ => hs, hs.stopped (List.prefix_refl _)⟩

theorem exitMonitor_delivers (reason : String) :
    Triple (fun s => s.loop.WellFormed ∧ Stopped before bytes s.loop) (exitMonitor boot reason)
      (RoundDelivers before bytes) (fun _ s => Stopped before bytes s.loop) :=
  (exitMonitor_stopped boot reason).mono (fun _ hs => hs) fun _ _ hs =>
    ⟨fun hcode => absurd hcode hs.1, hs.2⟩

/-- **A round.** -/
theorem round_delivers (hboot : boot.Successful) (hbytes : ∀ byte ∈ bytes, ScriptByte byte) :
    Triple (fun s => Delivered before front s.loop) (round boot [] bytes)
      (RoundDelivers before (front ++ bytes)) (fun _ s => Stopped before (front ++ bytes) s.loop) := by
  change Triple _ (drainSerial boot bytes >>= _ : InputM (Option QemuExitCode)) _ _
  refine (drainSerial_delivers hboot hbytes).bind fun left => ?_
  cases left with
  | true =>
    rw [if_pos rfl]
    exact (exitMonitor_delivers _).mono (fun _ hs => hs.2) fun _ _ => id
  | false =>
    rw [if_neg (by decide)]
    exact afterInput_delivers.mono (fun _ hs => hs.1 rfl) fun _ _ => id

/-- **Rounds.** -/
theorem rounds_deliver (hboot : boot.Successful) {chunks : List (List UInt8)}
    (hchunks : ∀ bytes ∈ chunks, ∀ byte ∈ bytes, ScriptByte byte) :
    Triple (fun s => Delivered before front s.loop) (rounds boot (chunks.map fun bytes => ([], bytes)))
      (RoundDelivers before (front ++ chunks.flatten))
      (fun _ s => Stopped before (front ++ chunks.flatten) s.loop) := by
  induction chunks generalizing front with
  | nil =>
    rw [List.flatten_nil, List.append_nil]
    exact Triple.pure fun s hs => ⟨fun _ => hs, hs.stopped (List.prefix_refl _)⟩
  | cons bytes chunks ih =>
    have hsplit : front ++ (bytes :: chunks).flatten = (front ++ bytes) ++ chunks.flatten := by
      rw [List.flatten_cons, List.append_assoc]
    have hround : Triple (fun s => Delivered before front s.loop) (round boot [] bytes)
        (RoundDelivers before (front ++ bytes))
        -- a round that stops has executed what its bytes say, which is the beginning of all
        (fun _ s => Stopped before (front ++ (bytes :: chunks).flatten) s.loop) :=
      (round_delivers hboot (hchunks bytes List.mem_cons_self)).mono_error fun _ s hstop => by
        rw [hsplit]
        exact hstop.mono (List.prefix_append _ _)
    refine hround.bind fun code => ?_
    cases code with
    | some code =>
      refine Triple.pure fun s hs => ⟨fun hcode => absurd hcode (Option.some_ne_none _), ?_⟩
      rw [hsplit]
      exact hs.2.mono (List.prefix_append _ _)
    | none =>
      have hrest : Triple (fun s => Delivered before (front ++ bytes) s.loop)
          (rounds boot (chunks.map fun bytes => ([], bytes))) _ _ :=
        ih fun bytes' hmem => hchunks bytes' (List.mem_cons_of_mem _ hmem)
      rw [hsplit]
      exact hrest.mono (fun _ hs => hs.1 rfl) fun _ _ => id

/-- Rounds are a run of calls, with the changes of the loop and of the automatic scheduler around
them. -/
theorem rounds_advances (hboot : boot.Successful) {access : Access}
    (hloop : loopAccess.Within access) (inputs : List Input) :
    Advances boot access (rounds boot inputs) := by
  induction inputs with
  | nil => exact Advances.pure _
  | cons input rest ih =>
    refine (round_advances hboot hloop input.1 input.2).bind fun code => ?_
    cases code with
    | some code => exact Advances.pure _
    | none => exact ih

/-- The calls that have been noted since are those of the run. -/
theorem Advances.executes {access : Access} {α : Type} {x : InputM α}
    (hx : Advances boot access x) {s : InputLoop} (hs : s.loop.WellFormed) :
    ∃ calls, (endState (x.run s)).loop.calls = s.loop.calls ++ calls ∧
      Executes boot access s.loop.world calls (endState (x.run s)).loop.world := by
  have hrun := hx s hs
  revert hrun
  cases x.run s with
  | ok a s' => exact fun hrun => hrun.2
  | error stop s' => exact fun hrun => hrun.2

/-! ## The events of a script -/

/-- The character of a text goes behind it. -/
theorem Desk.plays_text {d : Desk} {front text : List UInt8}
    (h : ∀ byte ∈ text, 0x20 ≤ byte ∧ byte ≤ 0x7E)
    (hd : d.editor = .typed (front.take inputLineMax)) :
    (d.plays (text.map fun byte => .char (byteChar byte))).editor =
        .typed ((front ++ text).take inputLineMax) ∧
      d.submits (text.map fun byte => .char (byteChar byte)) = [] := by
  induction text generalizing d front with
  | nil => exact ⟨by rw [List.append_nil]; exact hd, rfl⟩
  | cons byte text ih =>
    have hkey : (d.after false (.key 0 (.char (byteChar byte)))).editor =
        .typed ((front ++ [byte]).take inputLineMax) := by
      rw [Desk.after_key _ _ _ (by simp)]
      exact key_typed hd (Host.lt_of_printable (h byte List.mem_cons_self)) 0
    rcases ih (fun b hb => h b (List.mem_cons_of_mem _ hb)) hkey with ⟨heditor, hsubmits⟩
    rw [List.append_assoc] at heditor
    rw [List.map_cons, Desk.submits, if_neg (by simp), List.nil_append]
    exact ⟨heditor, hsubmits⟩

/-- The lines that a script submits at an empty line. -/
theorem Desk.submits_script {d : Desk} {texts : List (List UInt8)}
    (htexts : ∀ text ∈ texts, ∀ byte ∈ text, 0x20 ≤ byte ∧ byte ≤ 0x7E)
    (hd : d.editor = .typed []) :
    d.submits (serialEvents (submitted texts)) = texts.map clipped := by
  induction texts generalizing d with
  | nil => rfl
  | cons text texts ih =>
    have htext := htexts text List.mem_cons_self
    have hempty : d.editor = .typed (List.take inputLineMax []) := by
      rw [hd, List.take_nil]
    rcases Desk.plays_text htext hempty with ⟨heditor, hsubmits⟩
    have hrest := ih (d := (d.plays (text.map fun byte => .char (byteChar byte))).after false
      (.key 0 .enter)) (fun t ht => htexts t (List.mem_cons_of_mem _ ht)) rfl
    rw [serialEvents_submitted htext, Desk.submits_append, hsubmits, Desk.submits, if_pos rfl,
      hrest, heditor]
    rfl

/-- A script has no byte that leaves the monitor. -/
theorem script_tame {texts : List (List UInt8)}
    (htexts : ∀ text ∈ texts, ∀ byte ∈ text, 0x20 ≤ byte ∧ byte ≤ 0x7E) {event : KeyEvent}
    (hevent : event ∈ serialEvents (submitted texts)) : tame event = true := by
  induction texts with
  | nil => cases hevent
  | cons text texts ih =>
    rw [serialEvents_submitted (htexts text List.mem_cons_self)] at hevent
    rcases List.mem_append.mp hevent with hchar | hrest
    · rcases List.mem_map.mp hchar with ⟨byte, _, rfl⟩
      rfl
    · rcases List.mem_cons.mp hrest with rfl | hrest
      · rfl
      · exact ih (fun t ht => htexts t (List.mem_cons_of_mem _ ht)) hrest

/-- Rounds without scancodes. -/
theorem inputEvents_serial (d : KeyboardDecoder) (chunks : List (List UInt8)) :
    inputEvents d (chunks.map fun bytes => ([], bytes)) = serialEvents chunks.flatten := by
  induction chunks generalizing d with
  | nil => rfl
  | cons bytes chunks ih =>
    unfold serialEvents at ih ⊢
    rw [List.map_cons, inputEvents, List.flatten_cons, List.filterMap_append, ← ih (d := d)]
    rfl

/-- A script's bytes come from its lines. -/
theorem scriptByte_of_submitted {texts : List (List UInt8)}
    (htexts : ∀ text ∈ texts, ∀ byte ∈ text, 0x20 ≤ byte ∧ byte ≤ 0x7E) {byte : UInt8}
    (hbyte : byte ∈ submitted texts) : ScriptByte byte := by
  rcases List.mem_flatMap.mp hbyte with ⟨text, htext, hbyte⟩
  rcases List.mem_append.mp hbyte with hprintable | hfinal
  · exact Or.inl (htexts text htext byte hprintable)
  · exact Or.inr (List.mem_singleton.mp hfinal)

/-- Behind all lines the line is empty. -/
theorem Delivered.empty {s : Loop} (h : Delivered before bytes s) (hline : (typedBy bytes).2 = []) :
    s.line.len = 0 := by
  have heditor := h.line
  rw [hline] at heditor
  have htext : s.line.editor.text.length = 0 := by
    change s.desk.editor.text.length = 0
    rw [heditor]
    rfl
  have hsize := h.wellFormed.line.size
  have hle := h.wellFormed.line.lenLe
  unfold InputLine.editor at htext
  simp only [List.length_take] at htext
  omega

/-- **Delivery.** A script comes over the serial port, its bytes divided into rounds in any way, with
the automatic scheduler between them. Where the rounds end, they were a run of calls of
`execute_command`, a number of the script's lines in their order; and if the monitor goes on it was
all of them, and the line is empty. It does go on when every line returns and leaves the automatic
scheduler off, and the clock never comes as far as the end of the input window. -/
theorem script_delivered (hboot : boot.Successful) {s : InputLoop} (hs : s.loop.WellFormed)
    (hline : s.loop.line.len = 0) {texts : List (List UInt8)}
    (htexts : ∀ text ∈ texts, ∀ byte ∈ text, 0x20 ≤ byte ∧ byte ≤ 0x7E)
    {chunks : List (List UInt8)} (hchunks : chunks.flatten = submitted texts) :
    (∃ calls,
      Executes boot loopAccess s.loop.world calls
        (endState ((rounds boot (chunks.map fun bytes => ([], bytes))).run s)).loop.world ∧
      (endState ((rounds boot (chunks.map fun bytes => ([], bytes))).run s)).loop.calls =
        s.loop.calls ++ calls ∧
      (∃ count, calls.map Call.text =
        (texts.take count).map fun text => asciiText (text.take inputLineMax)) ∧
      ∀ s', (rounds boot (chunks.map fun bytes => ([], bytes))).run s = .ok none s' →
        calls.map Call.text = (texts.map fun text => asciiText (text.take inputLineMax)) ∧
          s'.loop.line.len = 0) ∧
    ((∀ text ∈ texts, Undisturbing (asciiText (text.take inputLineMax))) →
      s.decodedEvents + (submitted texts).length < 2 ^ 64 →
      Steady s.loop.world.kernel.timer.ticks.toNat s.loop.world →
      s.loop.world.kernel.timer.ticks.toNat + 800 ≤ s.deadline.toNat →
      ∃ s', (rounds boot (chunks.map fun bytes => ([], bytes))).run s = .ok none s') := by
  have hreturn : ∀ text ∈ texts, (0x0D : UInt8) ∉ text := by
    intro text htext hmem
    exact absurd (htexts text htext _ hmem).1 (by decide)
  have hbytes : ∀ bytes ∈ chunks, ∀ byte ∈ bytes, ScriptByte byte := by
    intro bytes hmem byte hbyte
    apply scriptByte_of_submitted htexts
    rw [← hchunks]
    exact List.mem_flatten_of_mem hmem hbyte
  have hstart : Delivered (s.loop.calls.map Call.text) [] s.loop :=
    ⟨hs, (List.append_nil _).symm, editor_of_empty hs hline⟩
  have hrule : Triple (fun s' => Delivered (s.loop.calls.map Call.text) [] s'.loop) _
      (RoundDelivers _ _) _ := rounds_deliver hboot hbytes
  rw [List.nil_append, hchunks] at hrule
  constructor
  · rcases (rounds_advances hboot (within_self loopAccess) _).executes hs with
      ⟨calls, hcalls, hexecutes⟩
    -- the texts that the log has got are those of the run
    have hnew : ∀ (loop : Loop) (lines : List (List UInt8)), loop.calls = s.loop.calls ++ calls →
        Executed (s.loop.calls.map Call.text) lines loop →
        calls.map Call.text = lines.map fun text => asciiText (text.take inputLineMax) := by
      intro loop lines hlog hexecuted
      unfold Executed at hexecuted
      rw [hlog, List.map_append] at hexecuted
      exact List.append_cancel_left hexecuted
    have hcount : ∀ loop : Loop, loop.calls = s.loop.calls ++ calls →
        Stopped (s.loop.calls.map Call.text) (submitted texts) loop →
        ∃ count, calls.map Call.text =
          (texts.take count).map fun text => asciiText (text.take inputLineMax) := by
      rintro loop hlog ⟨front, hfront, hexecuted⟩
      have hlines := typedBy_prefix hfront
      rw [typedBy_submitted hreturn, List.prefix_iff_eq_take] at hlines
      exact ⟨_, by rw [← hlines]; exact hnew loop _ hlog hexecuted⟩
    refine ⟨calls, hexecutes, hcalls, ?_, ?_⟩
    · cases hrun : (rounds boot (chunks.map fun bytes => ([], bytes))).run s with
      | ok code s' =>
        rw [hrun] at hcalls
        exact hcount _ hcalls (hrule.of_ok hstart hrun).2
      | error stop s' =>
        rw [hrun] at hcalls
        exact hcount _ hcalls (hrule.of_error hstart hrun)
    · intro s' hrun
      rw [hrun] at hcalls
      have hdelivered := (hrule.of_ok hstart hrun).1 rfl
      have hexecuted := hdelivered.executed
      rw [typedBy_submitted hreturn] at hexecuted
      exact ⟨hnew _ _ hcalls hexecuted, hdelivered.empty (by rw [typedBy_submitted hreturn])⟩
  · intro hlines hroom hsteady hdeadline
    have hevents := inputEvents_serial s.decoder chunks
    rw [hchunks] at hevents
    have hsubmits := Desk.submits_script htexts (editor_of_empty hs hline)
    rcases rounds_proceed hboot (by rw [hevents]; exact fun event => script_tame htexts)
        (by
          rw [hevents, hsubmits]
          intro line hmem
          rcases List.mem_map.mp hmem with ⟨text, htext, rfl⟩
          exact hlines text htext)
        ⟨hs, hsteady, hdeadline⟩
        (by
          rw [hevents]
          exact (Nat.add_le_add_left (List.length_filterMap_le _ _) _).trans_lt hroom) with
      ⟨s', hrun, _⟩
    exact ⟨s', hrun⟩

end

/-- The bytes of `help` and `tasks`, divided in the middle of the words. -/
def dividedLines : List (List UInt8) :=
  [[0x68, 0x65], [0x6c, 0x70, 0x0D, 0x74, 0x61], [], [0x73, 0x6b, 0x73, 0x0D]]

/-- Both lines have been executed, and the monitor goes on with an empty line. -/
theorem script_delivered_two : ∃ help tasks s',
    (rounds sampleBoot (dividedLines.map fun bytes => ([], bytes))).run
      (InputLoop.fresh (silentWorld.entered sampleBoot)) = .ok none s' ∧
    s'.loop.calls = [help, tasks] ∧ help.text = "help" ∧ tasks.text = "tasks" ∧
    Executes sampleBoot loopAccess (silentWorld.entered sampleBoot) [help, tasks] s'.loop.world ∧
    s'.loop.line.len = 0 := by
  have hwf : (InputLoop.fresh (silentWorld.entered sampleBoot)).loop.WellFormed :=
    entered_wellFormed silentWorld_booted.inv
  have hprintable : ∀ text ∈ [textBytes "help", textBytes "tasks"], ∀ byte ∈ text,
      (0x20 : UInt8) ≤ byte ∧ byte ≤ 0x7E := by decide +kernel
  have hchunks : dividedLines.flatten = submitted [textBytes "help", textBytes "tasks"] := by
    decide +kernel
  have hclipped : [textBytes "help", textBytes "tasks"].map
      (fun text => asciiText (text.take inputLineMax)) = ["help", "tasks"] := by decide
  rcases script_delivered sampleBoot_successful hwf rfl hprintable hchunks with
    ⟨⟨calls, hexecutes, hcalls, _, hall⟩, hproceeds⟩
  -- neither line ends the monitor, or switches the scheduler on
  have hlines : ∀ text ∈ [textBytes "help", textBytes "tasks"],
      Undisturbing (asciiText (text.take inputLineMax)) := by
    have hwords : splitWhitespace "help" = ["help"] ∧ splitWhitespace "tasks" = ["tasks"] := by decide
    have hboth : ∀ line ∈ ["help", "tasks"], Undisturbing line := by
      intro line hline
      rw [List.mem_cons, List.mem_singleton] at hline
      rcases hline with rfl | rfl
      · refine ⟨?_, by decide⟩
        rw [hwords.1]
        exact peaceful_words [] (by decide)
      · refine ⟨?_, by decide⟩
        rw [hwords.2]
        exact peaceful_words [] (by decide)
    intro text htext
    apply hboth
    rw [← hclipped]
    exact List.mem_map_of_mem htext
  rcases hproceeds hlines (by decide +kernel) silentWorld_steady (by decide) with ⟨s', hrun⟩
  rcases hall s' hrun with ⟨htexts, hempty⟩
  rw [hclipped] at htexts
  rcases List.map_eq_cons_iff.mp htexts with ⟨help, rest, rfl, hfirst, hrest⟩
  rcases List.map_eq_singleton_iff.mp hrest with ⟨tasks, rfl, hsecond⟩
  rw [hrun] at hexecutes hcalls
  exact ⟨help, tasks, s', hrun, hcalls, hfirst, hsecond, hexecutes, hempty⟩

end JingOS.Monitor
