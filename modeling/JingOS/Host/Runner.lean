import JingOS.Host.Forwarder
import JingOS.Host.Script
import JingOS.Monitor.InputLoop

/-!
# The runner and the guest (`src/main.rs`)

With a script, three threads of the runner and the guest work side by side: one thread copies what
the guest writes and tells when the marker is there, one waits for that or for its deadline and then
sends the script, and the main thread waits for the guest to end. The pipes and the clock join them.

* `Runner`, `Runner.Step` — the threads, the pipes and the guest, in any order of steps;
* `Copying`, `Sending` — what the two threads keep;
* `sending_finishes` — what is left of a script can be sent to a guest that reads;
* `runner_protocol` — what holds between the threads in all runs;
* `script_deliverable` — with such a guest the script can be finished, and when.
-/

namespace JingOS.Host

open Ascii Relation

/-! ## The state -/

/-- What the sender thread is at. -/
inductive Sender where
  /-- In `recv_timeout`. -/
  | waiting
  | sending (rest : List SerialScriptAction)
  /-- In `thread::sleep`. -/
  | sleeping (wake : ℕ) (rest : List SerialScriptAction)
  /-- Back from an error. -/
  | failed
deriving DecidableEq

structure Runner where
  /-- Milliseconds since the threads have been started. -/
  now : ℕ
  /-- The exit status of the guest, once it has ended; a signal leaves none. -/
  status : Option (Option UInt32)
  /-- What the guest has written. -/
  written : List UInt8
  /-- What of it has not been read. -/
  pipe : List UInt8
  forwarder : Forwarder
  /-- Has the forwarder left its loop, and closed its end of the channel? -/
  closed : Bool
  sender : Sender
  /-- What the sender has told on `stderr`. -/
  warnings : List String
  /-- What the sender has done, and when it began. -/
  done : List SerialScriptAction
  released : ℕ
  /-- What `write_all` has written so far of the bytes that it is at. -/
  begun : List UInt8
  /-- All that has been written to the input of the guest. -/
  stdin : List UInt8
  /-- How much of it the guest has read; the rest is in the pipe. -/
  taken : ℕ
  /-- What the process has ended with. -/
  exitCode : Option ℕ

/-- The guest was started and has written nothing yet. -/
def Runner.start : Runner :=
  { now := 0, status := none, written := [], pipe := [], forwarder := .start, closed := false,
    sender := .waiting, warnings := [], done := [], released := 0, begun := [], stdin := [],
    taken := 0, exitCode := none }

/-- `config.delay_ms.saturating_mul(5)`. -/
def markerWaitMs (delayMs : UInt64) : ℕ := (U64.saturatingMul delayMs 5).toNat

/-- `process_code`. -/
def processCode (status : Option UInt32) : ℕ :=
  match status.getD 1 with
  | 0x10 => 0
  | 0x21 => 0
  | 0x11 => 1
  | 0x23 => 1
  | _ => 2

/-! ## The steps -/

/-- What a read may give: an end of file only when the guest has ended and all is read, and never
more than is there or than the buffer holds. -/
def Reads (s : Runner) : Except String (List UInt8) → Prop
  | .ok [] => s.pipe = [] ∧ s.status ≠ none
  | .ok (byte :: bytes) => byte :: bytes <+: s.pipe ∧ (byte :: bytes).length ≤ 1024
  | .error _ => True

/-- The state behind a round of the forwarder. -/
def Runner.forwarded (s : Runner) (r : Round) : Runner :=
  { s with
    pipe := s.pipe.drop (match r.read with
      | .ok bytes => bytes.length
      | .error _ => 0)
    forwarder := (s.forwarder.round r).2
    closed := !(s.forwarder.round r).1 }

/-- The sender begins. -/
def Runner.release (s : Runner) (actions : List SerialScriptAction) (warnings : List String) :
    Runner :=
  { s with sender := .sending actions, released := s.now, warnings := s.warnings ++ warnings }

/-- The sender gives up; what it has written stays in the pipe. -/
def Runner.fail (s : Runner) (warning : String) : Runner :=
  { s with sender := .failed, warnings := s.warnings ++ [warning] }

/-- A step of one of the threads, of the guest, or of the clock; the pipe to the guest holds
`capacity` bytes. -/
inductive Runner.Step (capacity : ℕ) (delayMs : UInt64) (actions : List SerialScriptAction)
    (s : Runner) : Runner → Prop where
  | tick : Step capacity delayMs actions s { s with now := s.now + 1 }
  | guestWrites (bytes : List UInt8) (hruns : s.status = none) :
      Step capacity delayMs actions s { s with written := s.written ++ bytes, pipe := s.pipe ++ bytes }
  | guestReads (count : ℕ) (hruns : s.status = none) (hthere : s.taken + count ≤ s.stdin.length) :
      Step capacity delayMs actions s { s with taken := s.taken + count }
  | guestEnds (status : Option UInt32) (hruns : s.status = none) :
      Step capacity delayMs actions s { s with status := some status }
  | forward (r : Round) (hopen : s.closed = false) (hread : Reads s r.read) :
      Step capacity delayMs actions s (s.forwarded r)
  | ready (hwaits : s.sender = .waiting) (hsent : 0 < s.forwarder.sent) :
      Step capacity delayMs actions s (s.release actions [])
  /-- `RecvTimeoutError::Timeout`. -/
  | timeout (hwaits : s.sender = .waiting) (hlate : markerWaitMs delayMs ≤ s.now) :
      Step capacity delayMs actions s (s.release actions
        [s!"monitor-ready marker not observed within {markerWaitMs delayMs} ms; sending script anyway"])
  /-- `RecvTimeoutError::Disconnected`. -/
  | disconnected (hwaits : s.sender = .waiting) (hsent : s.forwarder.sent = 0)
      (hclosed : s.closed = true) :
      Step capacity delayMs actions s (s.release actions
        ["serial output stream closed before ready marker; sending script anyway"])
  /-- `write_all` goes on: there is room in the pipe, and somebody at its other end. -/
  | write {bytes : List UInt8} {rest : List SerialScriptAction} (more : List UInt8)
      (hsends : s.sender = .sending (.send bytes :: rest)) (hmore : s.begun ++ more <+: bytes)
      (hruns : s.status = none) (hroom : s.stdin.length + more.length ≤ s.taken + capacity) :
      Step capacity delayMs actions s { s with begun := s.begun ++ more, stdin := s.stdin ++ more }
  /-- `write_all` and `flush` come back. -/
  | send {bytes : List UInt8} {rest : List SerialScriptAction}
      (hsends : s.sender = .sending (.send bytes :: rest)) (hwritten : s.begun = bytes) :
      Step capacity delayMs actions s { s with
        sender := .sending rest, done := s.done ++ [.send bytes], begun := [] }
  /-- `write_all` fails, as it does with nobody at the other end. -/
  | writeFails {bytes : List UInt8} {rest : List SerialScriptAction} (error : String)
      (hsends : s.sender = .sending (.send bytes :: rest)) (hmore : s.begun ≠ bytes) :
      Step capacity delayMs actions s
        (s.fail s!"failed to write serial script action: {error}")
  | flushFails {bytes : List UInt8} {rest : List SerialScriptAction} (error : String)
      (hsends : s.sender = .sending (.send bytes :: rest)) (hwritten : s.begun = bytes) :
      Step capacity delayMs actions s (s.fail s!"failed to flush serial script action: {error}")
  | sleep {milliseconds : UInt64} {rest : List SerialScriptAction}
      (hsends : s.sender = .sending (.sleepMs milliseconds :: rest)) :
      Step capacity delayMs actions s { s with
        sender := .sleeping (s.now + milliseconds.toNat) rest
        done := s.done ++ [.sleepMs milliseconds] }
  | wake {wake : ℕ} {rest : List SerialScriptAction} (hsleeps : s.sender = .sleeping wake rest)
      (hlate : wake ≤ s.now) : Step capacity delayMs actions s { s with sender := .sending rest }
  /-- `child.wait` comes back, and the process ends. -/
  | exit {status : Option UInt32} (hended : s.status = some status) :
      Step capacity delayMs actions s { s with exitCode := some (processCode status) }

/-- A step of a process that has not ended. -/
def Runner.Next (capacity : ℕ) (delayMs : UInt64) (actions : List SerialScriptAction)
    (s s' : Runner) : Prop :=
  s.exitCode = none ∧ Runner.Step capacity delayMs actions s s'

/-- All that the threads can come to. -/
def Runner.Reachable (capacity : ℕ) (delayMs : UInt64) (actions : List SerialScriptAction)
    (s : Runner) : Prop :=
  ReflTransGen (Runner.Next capacity delayMs actions) .start s

/-! ## The forwarder -/

/-- What holds of the output: the host has the beginning of what the guest has written. -/
structure Copying (s : Runner) : Prop where
  copied : s.forwarder.stdout <+: s.written
  told : s.forwarder.sent ≤ 1 ∧
    (0 < s.forwarder.sent → serialMonitorReadyMarker <:+: s.forwarder.stdout)
  reading : s.closed = false → Forwards s.forwarder s.forwarder.stdout ∧
    s.forwarder.stdout ++ s.pipe = s.written ∧ s.forwarder.stderr = []
  whole : s.closed = true → s.forwarder.stderr = [] →
    s.forwarder.stdout = s.written ∧ s.status ≠ none

/-- Before the first chunk. -/
theorem start_copying : Copying .start := by
  constructor
  · exact List.nil_prefix
  · exact ⟨Nat.zero_le _, fun h => absurd h (Nat.lt_irrefl 0)⟩
  · intro _
    exact ⟨start_forwards, rfl, rfl⟩
  · intro h
    cases h

theorem Forwards.told {s : Forwarder} {stream : List UInt8} (h : Forwards s stream) :
    s.sent ≤ 1 ∧ (0 < s.sent → serialMonitorReadyMarker <:+: stream) := by
  rw [h.sent]
  by_cases hinfix : serialMonitorReadyMarker <:+: stream
  · rw [if_pos hinfix]
    exact ⟨Nat.le_refl _, fun _ => hinfix⟩
  · rw [if_neg hinfix]
    exact ⟨Nat.zero_le _, fun hlt => absurd hlt (Nat.lt_irrefl 0)⟩

theorem scanChunk_stderr (s : Forwarder) (chunk : List UInt8) :
    (s.scanChunk chunk).stderr = s.stderr := by
  unfold Forwarder.scanChunk
  simp only
  split_ifs <;> rfl

/-- A round without an error has no message. -/
theorem round_stderr (s : Forwarder) (byte : UInt8) (bytes : List UInt8) :
    (s.round { read := .ok (byte :: bytes), write := .ok () }).2.stderr = s.stderr := by
  change (if s.readySent = true then _ else Forwarder.scanChunk _ _ : Forwarder).stderr = _
  split_ifs
  · rfl
  · rw [scanChunk_stderr]

section

variable {s s' : Runner} {capacity : ℕ} {delayMs : UInt64} {actions : List SerialScriptAction}

/-- **The forwarder.** A round copies the next bytes, or is the last one. -/
theorem forwarded_copying (h : Copying s) (hopen : s.closed = false) {r : Round}
    (hread : Reads s r.read) : Copying (s.forwarded r) := by
  rcases h.reading hopen with ⟨hforwards, hstream, hstderr⟩
  rcases r with ⟨(error | (_ | ⟨byte, bytes⟩)), write⟩
  · -- the read has failed: a message, and the end
    exact ⟨h.copied, h.told, nofun, fun _ hnil => absurd hnil (by simp [Runner.forwarded,
      Forwarder.round])⟩
  -- the guest has closed the pipe, so that it has written all that was read
  · refine ⟨h.copied, h.told, nofun, fun _ _ => ⟨?_, hread.2⟩⟩
    rw [hread.1, List.append_nil] at hstream
    exact hstream
  · rcases hread.1 with ⟨rest, hrest⟩
    have hwritten : s.forwarder.stdout ++ byte :: bytes ++ rest = s.written := by
      rw [List.append_assoc, hrest, hstream]
    rcases write with ⟨written, error⟩ | _
    · -- the write has failed: a part of the chunk is out
      have htake : (byte :: bytes).take written <+: byte :: bytes ++ rest :=
        (List.take_prefix _ _).trans (List.prefix_append _ _)
      refine ⟨?_, ⟨h.told.1, fun hlt => ?_⟩, nofun, fun _ hnil => absurd hnil (by
        simp [Runner.forwarded, Forwarder.round])⟩
      · change s.forwarder.stdout ++ _ <+: s.written
        rw [← hwritten, List.append_assoc, List.prefix_append_right_inj]
        exact htake
      · exact List.infix_append_of_infix_left (h.told.2 hlt)
    -- the chunk has gone on as a whole, and the marker is looked for in it
    · rcases round_forwards hforwards (List.cons_ne_nil byte bytes) with ⟨forwarder, hround, hnext⟩
      have hstate : s.forwarded { read := .ok (byte :: bytes), write := .ok () } =
          { s with pipe := rest, forwarder := forwarder, closed := false } := by
        unfold Runner.forwarded
        rw [hround, ← hrest]
        simp
      have hstdout : forwarder.stdout = s.forwarder.stdout ++ byte :: bytes := hnext.stdout
      have hmessages : forwarder.stderr = s.forwarder.stderr := by
        rw [← round_stderr s.forwarder byte bytes, hround]
      rw [hstate]
      rw [← hstdout] at hnext hwritten
      exact ⟨⟨rest, hwritten⟩, hnext.told, fun _ => ⟨hnext, hwritten, hmessages.trans hstderr⟩,
        nofun⟩

/-- **Step.** Nothing else touches what the forwarder has done. -/
theorem step_copying (h : Copying s) (hstep : Runner.Step capacity delayMs actions s s') :
    Copying s' := by
  cases hstep with
  | guestWrites bytes hruns =>
    refine ⟨h.copied.trans (List.prefix_append _ _), h.told, fun hopen => ?_,
      fun hclosed hstderr => absurd hruns (h.whole hclosed hstderr).2⟩
    rcases h.reading hopen with ⟨hforwards, hstream, hstderr⟩
    refine ⟨hforwards, ?_, hstderr⟩
    change _ ++ (s.pipe ++ bytes) = s.written ++ bytes
    rw [← hstream, List.append_assoc]
  | guestEnds status hruns =>
    exact ⟨h.copied, h.told, h.reading,
      fun hclosed hstderr => absurd hruns (h.whole hclosed hstderr).2⟩
  | forward r hopen hread => exact forwarded_copying h hopen hread
  | _ => exact ⟨h.copied, h.told, h.reading, h.whole⟩

end

/-! ## The sender -/

/-- The milliseconds that the actions sleep. -/
def slept : List SerialScriptAction → ℕ
  | [] => 0
  | .send _ :: rest => slept rest
  | .sleepMs milliseconds :: rest => milliseconds.toNat + slept rest

/-- The bytes of the next action. -/
def nextBytes : List SerialScriptAction → List UInt8
  | .send bytes :: _ => bytes
  | _ => []

/-- What is left of the actions; the next one may have begun. -/
def Sender.Leaves (actions done : List SerialScriptAction) (begun : List UInt8) : Sender → Prop
  | .waiting => done = [] ∧ begun = []
  | .sending rest => done ++ rest = actions ∧ begun <+: nextBytes rest
  | .sleeping _ rest => done ++ rest = actions ∧ begun = []
  | .failed => ∃ bytes rest, done ++ .send bytes :: rest = actions ∧ begun <+: bytes

/-- The time until which the sender has slept. -/
def Sender.until (now : ℕ) : Sender → ℕ
  | .sleeping wake _ => wake
  | _ => now

/-- What holds of the input: the pipe has got the beginning of the script, in order and no earlier
than the script says, and the guest has read the beginning of that; nothing comes before the marker
without a cause and a message. -/
structure Sending (delayMs : UInt64) (actions : List SerialScriptAction) (s : Runner) : Prop where
  inOrder : s.sender.Leaves actions s.done s.begun
  stdin : s.stdin = sentBytes s.done ++ s.begun
  beginning : s.stdin <+: sentBytes actions
  taken : s.taken ≤ s.stdin.length
  cause : s.sender ≠ .waiting → serialMonitorReadyMarker <:+: s.written ∨ s.closed = true ∨
    markerWaitMs delayMs ≤ s.released
  silent : s.sender ≠ .waiting → s.warnings = [] → serialMonitorReadyMarker <:+: s.written
  paced : s.sender ≠ .waiting → s.released + slept s.done ≤ s.sender.until s.now

theorem sentBytes_append (actions later : List SerialScriptAction) :
    sentBytes (actions ++ later) = sentBytes actions ++ sentBytes later := List.flatMap_append

theorem slept_append (actions later : List SerialScriptAction) :
    slept (actions ++ later) = slept actions + slept later := by
  induction actions with
  | nil => exact (Nat.zero_add _).symm
  | cons action actions ih =>
    cases action with
    | send bytes => exact ih
    | sleepMs milliseconds =>
      change _ + slept (actions ++ later) = _ + slept actions + _
      rw [ih, Nat.add_assoc]

theorem start_sending (delayMs : UInt64) (actions : List SerialScriptAction) :
    Sending delayMs actions .start :=
  ⟨⟨rfl, rfl⟩, rfl, List.nil_prefix, Nat.le_refl _, fun h => absurd rfl h, fun h => absurd rfl h,
    fun h => absurd rfl h⟩

/-- What has been written of some actions and of the next one is the beginning of their bytes. -/
theorem written_prefix {actions done rest : List SerialScriptAction} (hall : done ++ rest = actions)
    {begun : List UInt8} (hbegun : begun <+: nextBytes rest) :
    sentBytes done ++ begun <+: sentBytes actions := by
  rw [← hall, sentBytes_append, List.prefix_append_right_inj]
  refine hbegun.trans ?_
  cases rest with
  | nil => exact List.nil_prefix
  | cons action rest =>
    cases action with
    | send bytes => exact List.prefix_append _ _
    | sleepMs milliseconds => exact List.nil_prefix

section

variable {s s' : Runner} {capacity : ℕ} {delayMs : UInt64}
  {actions rest : List SerialScriptAction} {bytes : List UInt8}

/-- What has been sent when the next bytes are on their way. -/
theorem Sending.sent (h : Sending delayMs actions s) (hsends : s.sender = .sending rest) :
    s.done ++ rest = actions ∧ s.begun <+: nextBytes rest ∧ s.released + slept s.done ≤ s.now := by
  have hdone := h.inOrder
  have hpaced := h.paced
  rw [hsends] at hdone hpaced
  exact ⟨hdone.1, hdone.2, hpaced nofun⟩

/-- The sender begins, for one reason or another. -/
theorem release_sending (h : Sending delayMs actions s) (hwaits : s.sender = .waiting)
    {warnings : List String} (hcause : serialMonitorReadyMarker <:+: s.written ∨ s.closed = true ∨
      markerWaitMs delayMs ≤ s.now)
    (hsilent : warnings = [] → serialMonitorReadyMarker <:+: s.written) :
    Sending delayMs actions (s.release actions warnings) := by
  have hnothing : s.done = [] ∧ s.begun = [] := by
    have hleft := h.inOrder
    rwa [hwaits] at hleft
  refine ⟨⟨?_, ?_⟩, h.stdin, h.beginning, h.taken, fun _ => hcause, fun _ hnil => ?_, fun _ => ?_⟩
  · change s.done ++ actions = actions
    rw [hnothing.1, List.nil_append]
  · change s.begun <+: nextBytes actions
    rw [hnothing.2]
    exact List.nil_prefix
  · exact hsilent (List.append_eq_nil_iff.mp hnil).2
  · change s.now + slept s.done ≤ s.now
    rw [hnothing.1]
    exact Nat.le_refl _

/-- The sender gives up in the middle of an action, or behind its bytes. -/
theorem fail_sending (h : Sending delayMs actions s)
    (hsends : s.sender = .sending (.send bytes :: rest)) (warning : String) :
    Sending delayMs actions (s.fail warning) := by
  rcases h.sent hsends with ⟨hdone, hbegun, hpaced⟩
  have hnot : s.sender ≠ .waiting := by
    rw [hsends]
    nofun
  exact ⟨⟨bytes, rest, hdone, hbegun⟩, h.stdin, h.beginning, h.taken, fun _ => h.cause hnot,
    fun _ hnil => absurd hnil (by simp [Runner.fail]), fun _ => hpaced⟩

/-- **Step.** The sender goes on where it is, and the others only add to what it has waited for. -/
theorem step_sending (hcopying : Copying s) (h : Sending delayMs actions s)
    (hstep : Runner.Step capacity delayMs actions s s') : Sending delayMs actions s' := by
  cases hstep with
  | tick =>
    refine ⟨h.inOrder, h.stdin, h.beginning, h.taken, h.cause, h.silent, fun hnot => ?_⟩
    refine (h.paced hnot).trans ?_
    change s.sender.until s.now ≤ s.sender.until (s.now + 1)
    cases s.sender <;> simp [Sender.until]
  | guestWrites bytes hruns =>
    -- what was waited for stays in the longer output
    have hmore : s.written <+: s.written ++ bytes := List.prefix_append _ _
    exact ⟨h.inOrder, h.stdin, h.beginning, h.taken,
      fun hnot => (h.cause hnot).imp_left fun hinfix => hinfix.trans hmore.isInfix,
      fun hnot hnil => (h.silent hnot hnil).trans hmore.isInfix, h.paced⟩
  | guestReads count hruns hthere =>
    exact ⟨h.inOrder, h.stdin, h.beginning, hthere, h.cause, h.silent, h.paced⟩
  | forward r hopen hread =>
    refine ⟨h.inOrder, h.stdin, h.beginning, h.taken, fun hnot => ?_, h.silent, h.paced⟩
    -- the forwarder was running, so its end was no cause
    rcases h.cause hnot with hinfix | hclosed | hlate
    · exact .inl hinfix
    · rw [hopen] at hclosed
      cases hclosed
    · exact .inr (.inr hlate)
  | ready hwaits hsent =>
    have hinfix := (hcopying.told.2 hsent).trans hcopying.copied.isInfix
    exact release_sending h hwaits (.inl hinfix) fun _ => hinfix
  | timeout hwaits hlate => exact release_sending h hwaits (.inr (.inr hlate)) nofun
  | disconnected hwaits hsent hclosed =>
    exact release_sending h hwaits (.inr (.inl hclosed)) nofun
  | @write bytes rest more hsends hmore hruns hroom =>
    rcases h.sent hsends with ⟨hdone, _, hpaced⟩
    have hwritten : s.stdin ++ more = sentBytes s.done ++ (s.begun ++ more) := by
      rw [h.stdin, List.append_assoc]
    refine ⟨?_, hwritten, ?_, ?_, h.cause, h.silent, h.paced⟩
    · change Sender.Leaves actions s.done (s.begun ++ more) s.sender
      rw [hsends]
      exact ⟨hdone, hmore⟩
    · change s.stdin ++ more <+: _
      rw [hwritten]
      exact written_prefix hdone hmore
    · exact h.taken.trans (by simp)
  | @send bytes rest hsends hwritten =>
    rcases h.sent hsends with ⟨hdone, _, hpaced⟩
    have hnot : s.sender ≠ .waiting := by
      rw [hsends]
      nofun
    -- the bytes of the action have been written: it is one of those that are done
    have hsent : s.stdin = sentBytes (s.done ++ [.send bytes]) ++ [] := by
      rw [h.stdin, hwritten, sentBytes_append, List.append_nil]
      exact congrArg _ (List.append_nil bytes).symm
    refine ⟨⟨(List.append_assoc ..).trans hdone, List.nil_prefix⟩, hsent, h.beginning, h.taken,
      fun _ => h.cause hnot, fun _ => h.silent hnot, fun _ => ?_⟩
    change s.released + slept (s.done ++ [.send bytes]) ≤ s.now
    rw [slept_append]
    exact hpaced
  | writeFails error hsends => exact fail_sending h hsends _
  | flushFails error hsends => exact fail_sending h hsends _
  | @sleep milliseconds rest hsends =>
    rcases h.sent hsends with ⟨hdone, hbegun, hpaced⟩
    have hnot : s.sender ≠ .waiting := by
      rw [hsends]
      nofun
    have hnone : s.begun = [] := List.prefix_nil.mp hbegun
    have hsent : s.stdin = sentBytes (s.done ++ [.sleepMs milliseconds]) ++ s.begun := by
      rw [h.stdin, sentBytes_append]
      exact congrArg (· ++ s.begun) (List.append_nil _).symm
    refine ⟨⟨(List.append_assoc ..).trans hdone, hnone⟩, hsent, h.beginning, h.taken,
      fun _ => h.cause hnot, fun _ => h.silent hnot, fun _ => ?_⟩
    -- the sleep counts from now on
    change s.released + slept (s.done ++ [.sleepMs milliseconds]) ≤ s.now + milliseconds.toNat
    rw [slept_append, ← Nat.add_assoc]
    exact Nat.add_le_add_right hpaced milliseconds.toNat
  | @wake wake rest hsleeps hlate =>
    have hnot : s.sender ≠ .waiting := by
      rw [hsleeps]
      nofun
    have hdone := h.inOrder
    have hpaced := h.paced hnot
    rw [hsleeps] at hdone hpaced
    have hbegun : s.begun <+: nextBytes rest := by
      rw [hdone.2]
      exact List.nil_prefix
    exact ⟨⟨hdone.1, hbegun⟩, h.stdin, h.beginning, h.taken, fun _ => h.cause hnot,
      fun _ => h.silent hnot, fun _ => hpaced.trans hlate⟩
  | _ => exact ⟨h.inOrder, h.stdin, h.beginning, h.taken, h.cause, h.silent, h.paced⟩

end

/-! ## Runs -/

/-- The process ends when the guest has ended, with what its status stands for. -/
def Exited (s : Runner) : Prop :=
  ∀ code, s.exitCode = some code → ∃ status, s.status = some status ∧ code = processCode status

/-- The kernel's own exits; the device of the emulator reports a code as twice the code and one. -/
theorem processCode_code (code : Monitor.QemuExitCode) :
    processCode (some (code.code * 2 + 1)) = if code = .success then 0 else 1 := by
  cases code <;> rfl

section

variable {s s' : Runner} {capacity : ℕ} {delayMs : UInt64} {actions : List SerialScriptAction}

/-- **Run.** Both threads keep what they keep in every order of steps. -/
theorem reachable_keeps (h : Runner.Reachable capacity delayMs actions s) :
    Copying s ∧ Sending delayMs actions s ∧ Exited s := by
  induction h with
  | refl => exact ⟨start_copying, start_sending delayMs actions, nofun⟩
  | tail _ hnext ih =>
    rcases ih with ⟨hcopying, hsending, hexited⟩
    refine ⟨step_copying hcopying hnext.2, step_sending hcopying hsending hnext.2, ?_⟩
    intro code hcode
    rcases hnext with ⟨hlive, hstep⟩
    cases hstep with
    | exit hended => exact ⟨_, hended, (Option.some.inj hcode).symm⟩
    | _ => exact absurd (hlive.symm.trans hcode) nofun

/-! ## Progress -/

/-- When the sender can be done. -/
def Runner.due (delayMs : UInt64) (actions : List SerialScriptAction) (s : Runner) : ℕ :=
  match s.sender with
  | .waiting => max s.now (markerWaitMs delayMs) + slept actions
  | .sending rest => s.now + slept rest
  | .sleeping wake rest => max s.now wake + slept rest
  | .failed => s.now

/-- The steps from one state to another in which the forwarder takes no part, and the guest only
reads. -/
def Runner.Alone (capacity : ℕ) (delayMs : UInt64) (actions : List SerialScriptAction)
    (s s' : Runner) : Prop :=
  ReflTransGen (Runner.Next capacity delayMs actions) s s' ∧ s'.exitCode = none ∧
    s'.written = s.written ∧ s'.pipe = s.pipe ∧ s'.forwarder = s.forwarder ∧ s'.status = s.status

theorem Runner.Alone.refl (hlive : s.exitCode = none) : s.Alone capacity delayMs actions s :=
  ⟨.refl, hlive, rfl, rfl, rfl, rfl⟩

theorem Runner.Alone.trans {s'' : Runner} (h : s.Alone capacity delayMs actions s')
    (h' : s'.Alone capacity delayMs actions s'') : s.Alone capacity delayMs actions s'' := by
  rcases h with ⟨hsteps, _, hwritten, hpipe, hforwarder, hstatus⟩
  rcases h' with ⟨hsteps', hlive, hwritten', hpipe', hforwarder', hstatus'⟩
  exact ⟨hsteps.trans hsteps', hlive, hwritten'.trans hwritten, hpipe'.trans hpipe,
    hforwarder'.trans hforwarder, hstatus'.trans hstatus⟩

theorem Runner.Step.alone (hlive : s.exitCode = none)
    (hstep : Runner.Step capacity delayMs actions s s')
    (hsame : s'.exitCode = s.exitCode ∧ s'.written = s.written ∧ s'.pipe = s.pipe ∧
      s'.forwarder = s.forwarder ∧ s'.status = s.status) : s.Alone capacity delayMs actions s' :=
  ⟨.single ⟨hlive, hstep⟩, hsame.1.trans hlive, hsame.2⟩

variable (capacity delayMs actions) in
/-- Time passes. -/
theorem runner_later (hlive : s.exitCode = none) (count : ℕ) :
    ReflTransGen (Runner.Next capacity delayMs actions) s { s with now := s.now + count } := by
  induction count with
  | zero => exact .refl
  | succ count ih => exact ih.tail ⟨hlive, .tick⟩

variable (capacity delayMs actions) in
theorem alone_until (hlive : s.exitCode = none) (time : ℕ) :
    s.Alone capacity delayMs actions { s with now := max s.now time } := by
  have hlater := runner_later capacity delayMs actions hlive (time - s.now)
  rw [Nat.add_comm, Nat.sub_add_eq_max, Nat.max_comm] at hlater
  exact ⟨hlater, hlive, rfl, rfl, rfl, rfl⟩

/-- `write_all`, one byte at a time, each into a pipe that the guest has emptied. -/
theorem bytes_written (hcapacity : 0 < capacity) {bytes more : List UInt8}
    {rest : List SerialScriptAction} (hlive : s.exitCode = none) (hruns : s.status = none)
    (hsends : s.sender = .sending (.send bytes :: rest)) (hmore : s.begun ++ more = bytes)
    (htaken : s.taken ≤ s.stdin.length) :
    ∃ s', s.Alone capacity delayMs actions s' ∧ s'.sender = s.sender ∧ s'.begun = bytes ∧
      s'.now = s.now ∧ s'.taken ≤ s'.stdin.length := by
  induction more generalizing s with
  | nil =>
    rw [List.append_nil] at hmore
    exact ⟨s, .refl hlive, rfl, hmore, rfl, htaken⟩
  | cons byte more ih =>
    -- the guest empties the pipe, and then there is room for the next byte
    have hthere : s.taken + (s.stdin.length - s.taken) = s.stdin.length := by omega
    have hreads : Runner.Step capacity delayMs actions s _ :=
      .guestReads (s.stdin.length - s.taken) hruns hthere.le
    let emptied : Runner := { s with taken := s.taken + (s.stdin.length - s.taken) }
    have hprefix : emptied.begun ++ [byte] <+: bytes :=
      ⟨more, by rw [← hmore, List.append_assoc]; rfl⟩
    have hroom : emptied.stdin.length + 1 ≤ emptied.taken + capacity := by
      change s.stdin.length + 1 ≤ s.taken + (s.stdin.length - s.taken) + capacity
      omega
    have hwrites : Runner.Step capacity delayMs actions emptied _ :=
      .write [byte] hsends hprefix hruns hroom
    have hfirst := (hreads.alone hlive ⟨rfl, rfl, rfl, rfl, rfl⟩).trans
      (hwrites.alone hlive ⟨rfl, rfl, rfl, rfl, rfl⟩)
    have hleft : (s.begun ++ [byte]) ++ more = bytes := by
      rw [← hmore, List.append_assoc]
      rfl
    have hread : s.taken + (s.stdin.length - s.taken) ≤ (s.stdin ++ [byte]).length := by
      rw [hthere, List.length_append]
      exact Nat.le_add_right _ _
    rcases ih hfirst.2.1 hruns hsends hleft hread with ⟨s', halone, hsender, hbegun, hnow, hle⟩
    exact ⟨s', hfirst.trans halone, hsender, hbegun, hnow, hle⟩

/-- The rest of the script, by its actions. -/
theorem sending_finishes (hcapacity : 0 < capacity) {rest : List SerialScriptAction}
    (hlive : s.exitCode = none) (hruns : s.status = none) (hsends : s.sender = .sending rest)
    (hbegun : s.begun <+: nextBytes rest) (htaken : s.taken ≤ s.stdin.length) :
    ∃ s', s.Alone capacity delayMs actions s' ∧ s'.sender = .sending [] ∧
      s'.now = s.now + slept rest := by
  induction rest generalizing s with
  | nil => exact ⟨s, .refl hlive, hsends, rfl⟩
  | cons action rest ih =>
    cases action with
    | send bytes =>
      -- what is left of the bytes is written, and then the call returns
      rcases hbegun with ⟨more, hmore⟩
      rcases bytes_written hcapacity hlive hruns hsends hmore htaken with
        ⟨s₁, hwritten, hsender, hall, hnow, hle⟩
      have hstep : Runner.Step capacity delayMs actions s₁ _ := .send (hsender.trans hsends) hall
      have hfirst := hwritten.trans (hstep.alone hwritten.2.1 ⟨rfl, rfl, rfl, rfl, rfl⟩)
      have hruns₁ : s₁.status = none := hwritten.2.2.2.2.2.trans hruns
      rcases ih hfirst.2.1 hruns₁ rfl List.nil_prefix hle with ⟨s', halone, hlast, hnow'⟩
      exact ⟨s', hfirst.trans halone, hlast, by rw [hnow', ← hnow]; rfl⟩
    | sleepMs milliseconds =>
      -- between two actions nothing of the next one has been written
      have hnone : s.begun = [] := List.prefix_nil.mp hbegun
      have hstep : Runner.Step capacity delayMs actions s _ := .sleep hsends
      have hfirst := hstep.alone hlive ⟨rfl, rfl, rfl, rfl, rfl⟩
      have hlater := hfirst.trans
        (alone_until capacity delayMs actions hfirst.2.1 (s.now + milliseconds.toNat))
      have hawake := hlater.trans ((Runner.Step.wake rfl (Nat.le_max_right _ _)).alone hlater.2.1
        ⟨rfl, rfl, rfl, rfl, rfl⟩)
      have hbegun' : s.begun <+: nextBytes rest := by
        rw [hnone]
        exact List.nil_prefix
      rcases ih hawake.2.1 hruns rfl hbegun' htaken with ⟨s', halone, hlast, hnow⟩
      refine ⟨s', hawake.trans halone, hlast, hnow.trans ?_⟩
      change max s.now (s.now + milliseconds.toNat) + slept rest = s.now + (_ + slept rest)
      omega

/-- A script of two commands, with a pause. -/
def sampleActions : List SerialScriptAction :=
  [.send (textBytes "ticks\r"), .sleepMs 10, .send (textBytes "halt\r")]

/-- The guest has written the marker. -/
def writtenRunner : Runner :=
  { Runner.start with written := serialMonitorReadyMarker, pipe := serialMonitorReadyMarker }

/-- The marker has been read, and the sender has begun. -/
def sampleRunner : Runner :=
  (writtenRunner.forwarded { read := .ok serialMonitorReadyMarker, write := .ok () }).release
    sampleActions []

theorem sampleRunner_reachable : Runner.Reachable 8 6000 sampleActions sampleRunner := by
  have hwrites : Runner.Next 8 6000 sampleActions .start writtenRunner :=
    ⟨rfl, .guestWrites serialMonitorReadyMarker rfl⟩
  have hread : Reads writtenRunner (.ok serialMonitorReadyMarker) := by
    refine ⟨List.prefix_refl writtenRunner.pipe, ?_⟩
    decide
  have hforwards : Runner.Next 8 6000 sampleActions writtenRunner _ :=
    ⟨rfl, .forward { read := .ok serialMonitorReadyMarker, write := .ok () } rfl hread⟩
  have hready : Runner.Next 8 6000 sampleActions _ sampleRunner := ⟨rfl, .ready rfl (by decide)⟩
  exact ((ReflTransGen.single hwrites).tail hforwards).tail hready

/-- **Progress.** Wherever the threads are, with a guest that runs and reads its input the sender
can still finish the script, with nothing but time besides, at a time that is known. -/
theorem script_deliverable (hcapacity : 0 < capacity)
    (h : Runner.Reachable capacity delayMs actions s) (hlive : s.exitCode = none)
    (hfailed : s.sender ≠ .failed) (hruns : s.status = none) :
    ∃ s', s.Alone capacity delayMs actions s' ∧ s'.sender = .sending [] ∧ s'.done = actions ∧
      s'.stdin = sentBytes actions ∧ s'.now = s.due delayMs actions := by
  have hsending := (reachable_keeps h).2.1
  have hleft := hsending.inOrder
  have hfinishes : ∃ s', s.Alone capacity delayMs actions s' ∧ s'.sender = .sending [] ∧
      s'.now = s.due delayMs actions := by
    unfold Runner.due
    cases hsender : s.sender with
    | waiting =>
      -- the marker may never come: the wait ends at its limit
      have hlater := alone_until capacity delayMs actions hlive (markerWaitMs delayMs)
      have hstep : Runner.Step capacity delayMs actions
          { s with now := max s.now (markerWaitMs delayMs) } _ :=
        .timeout hsender (Nat.le_max_right _ _)
      have hreleased := hlater.trans (hstep.alone hlater.2.1 ⟨rfl, rfl, rfl, rfl, rfl⟩)
      rw [hsender] at hleft
      have hbegun : s.begun <+: nextBytes actions := by
        rw [hleft.2]
        exact List.nil_prefix
      rcases sending_finishes hcapacity hreleased.2.1 hruns rfl hbegun hsending.taken with
        ⟨s', halone, hlast, hnow⟩
      exact ⟨s', hreleased.trans halone, hlast, hnow⟩
    | sending rest =>
      rw [hsender] at hleft
      exact sending_finishes hcapacity hlive hruns hsender hleft.2 hsending.taken
    | sleeping wake rest =>
      -- the sleep is over at its time
      have hlater := alone_until capacity delayMs actions hlive wake
      have hstep : Runner.Step capacity delayMs actions { s with now := max s.now wake } _ :=
        .wake hsender (Nat.le_max_right _ _)
      have hawake := hlater.trans (hstep.alone hlater.2.1 ⟨rfl, rfl, rfl, rfl, rfl⟩)
      rw [hsender] at hleft
      have hbegun : s.begun <+: nextBytes rest := by
        rw [hleft.2]
        exact List.nil_prefix
      rcases sending_finishes hcapacity hawake.2.1 hruns rfl hbegun hsending.taken with
        ⟨s', halone, hlast, hnow⟩
      exact ⟨s', hawake.trans halone, hlast, hnow⟩
    | failed => exact absurd hsender hfailed
  rcases hfinishes with ⟨s', halone, hlast, hnow⟩
  -- what has been sent by then is read off the invariant
  have hend := (reachable_keeps (h.trans halone.1)).2.1
  rcases hend.sent hlast with ⟨hdone, hbegun, _⟩
  rw [List.append_nil] at hdone
  refine ⟨s', halone, hlast, hdone, ?_, hnow⟩
  rw [hend.stdin, hdone, List.prefix_nil.mp hbegun, List.append_nil]

theorem script_deliverable_sample : ∃ s', sampleRunner.Alone 8 6000 sampleActions s' ∧
    s'.sender = .sending [] ∧ s'.done = sampleActions ∧ s'.stdin = sentBytes sampleActions ∧
    s'.now = sampleRunner.due 6000 sampleActions :=
  script_deliverable (by decide) sampleRunner_reachable rfl nofun rfl

end

end JingOS.Host
