import JingOS.Lib.Mealy
import JingOS.Lib.U64
import Mathlib.Tactic.IntervalCases

/-!
# The timer (`kernel/src/interrupts.rs`)

Two globals, the tick counter and the rate the PIT was last programmed to, are written by
the timer interrupt and by `set_pit_hz`; the uptime is recomputed from both of them at every
request (`dispatch` in `syscall.rs`, the `uptime` command in `main.rs`).

* `programPit` and the bytes it sends to the PIT;
* `timer` — the machine made of timer interrupts, rate changes and uptime requests;
* `hundredths_le_run` — what is shown grows along a run in which no rate change takes back
  a hundredth of a second that has been completed.
-/

namespace JingOS.Interrupts

/-! ## Programming the PIT -/

/-- `PIT_INPUT_HZ`. -/
def pitInputHz : UInt32 := 1193182

/-- `PIT_MIN_HZ`. -/
def pitMinHz : UInt32 := 19

/-- `PIT_MAX_HZ`. -/
def pitMaxHz : UInt32 := pitInputHz

/-- `PIT_COMMAND_PORT`. -/
def pitCommandPort : UInt16 := 0x43

/-- `PIT_CHANNEL0_PORT`. -/
def pitChannel0Port : UInt16 := 0x40

/-- `Ord::clamp` on `u32`. -/
def clamp (x lo hi : UInt32) : UInt32 := if x < lo then lo else if hi < x then hi else x

/-- The divisor `program_pit` computes, as the `u16` it is cast to. -/
def pitDivisor (requestedHz : UInt32) : UInt16 :=
  (clamp (pitInputHz / clamp requestedHz pitMinHz pitMaxHz) 1 65535).toUInt16

/-- The port writes of `program_pit`, in order. -/
def pitWrites (requestedHz : UInt32) : List (UInt16 × UInt8) :=
  [(pitCommandPort, 0x36),
   (pitChannel0Port, (pitDivisor requestedHz &&& 0x00ff).toUInt8),
   (pitChannel0Port, (pitDivisor requestedHz >>> 8).toUInt8)]

/-- The rate `program_pit` returns. -/
def programPit (requestedHz : UInt32) : UInt32 :=
  clamp (pitInputHz / (pitDivisor requestedHz).toUInt32) pitMinHz pitMaxHz

theorem clamp_mem {x lo hi : UInt32} (h : lo ≤ hi) : lo ≤ clamp x lo hi ∧ clamp x lo hi ≤ hi := by
  unfold clamp
  split
  · exact ⟨UInt32.le_refl _, h⟩
  · split
    · exact ⟨h, UInt32.le_refl _⟩
    · next hlo hhi => exact ⟨UInt32.not_lt.mp hlo, UInt32.not_lt.mp hhi⟩

/-! ## The timer's state -/

/-- The values `CURRENT_PIT_HZ` can have: what `program_pit` returns. -/
structure PitRate where
  hz : UInt32
  min_le : pitMinHz ≤ hz
  le_max : hz ≤ pitMaxHz
deriving DecidableEq

/-- `CURRENT_PIT_HZ` after `program_pit`. -/
def PitRate.program (requestedHz : UInt32) : PitRate where
  hz := programPit requestedHz
  min_le := (clamp_mem (by decide)).1
  le_max := (clamp_mem (by decide)).2

/-- `TICKS` and `CURRENT_PIT_HZ`. -/
structure Timer where
  ticks : UInt64
  pitHz : PitRate
deriving DecidableEq

namespace Timer

/-- The statics as they are declared; `init` programs the same rate again. -/
def initial : Timer where
  ticks := 0
  pitHz := ⟨100, by decide, by decide⟩

/-- `timer_interrupt_handler`: `fetch_add` wraps. -/
def interrupt (s : Timer) : Timer := { s with ticks := s.ticks + 1 }

/-- `set_pit_hz`. -/
def setPitHz (s : Timer) (requestedHz : UInt32) : UInt32 × Timer :=
  (programPit requestedHz, { s with pitHz := PitRate.program requestedHz })

/-- The value of the `GET_UPTIME_SECONDS` system call, and the seconds of `uptime`. -/
def uptimeSeconds (s : Timer) : UInt64 := s.ticks / s.pitHz.hz.toUInt64

/-- The hundredths that the `uptime` command shows behind the seconds. -/
def uptimeCentiseconds (s : Timer) : UInt64 :=
  ((s.ticks % s.pitHz.hz.toUInt64) * 100) / s.pitHz.hz.toUInt64

end Timer

/-- `init` leaves the rate as it is declared. -/
example : (Timer.initial.setPitHz 100).2 = Timer.initial := by decide

/-- An uptime as reported: the system call gives seconds, the command also hundredths. -/
structure Uptime where
  seconds : UInt64
  centiseconds : Option UInt64
deriving DecidableEq, Repr

/-- Not later: by the seconds, then by the hundredths where both reports have them. -/
def Uptime.NotAfter (a b : Uptime) : Prop :=
  a.seconds ≤ b.seconds ∧
    (a.seconds = b.seconds → ∀ x ∈ a.centiseconds, ∀ y ∈ b.centiseconds, x ≤ y)

/-- What happens to the timer: an interrupt, a rate, and the three ways to look at it. -/
inductive TimerOp where
  | interrupt
  | setPitHz (requestedHz : UInt32)
  | uptimeSyscall
  | uptimeCommand
deriving DecidableEq, Repr

/-- One event: the uptime it reports, if any, and the state after it. -/
def Timer.exec (s : Timer) : TimerOp → Option Uptime × Timer
  | .interrupt => (none, s.interrupt)
  | .setPitHz requestedHz => (none, (s.setPitHz requestedHz).2)
  | .uptimeSyscall => (some ⟨s.uptimeSeconds, none⟩, s)
  | .uptimeCommand => (some ⟨s.uptimeSeconds, some s.uptimeCentiseconds⟩, s)

/-- The timer: runs are arbitrary interleavings of its events. -/
def timer : Mealy Timer TimerOp (Option Uptime) := ⟨Timer.exec⟩

@[simp] theorem timer_next (s : Timer) (op : TimerOp) : timer.next s op = s.exec op := rfl

/-- The uptimes reported along a run. -/
def reports (s : Timer) (ops : List TimerOp) : List Uptime :=
  (timer.trace s ops).filterMap (·.2)

/-- How many timer interrupts a run contains. -/
def interrupts (ops : List TimerOp) : ℕ := ops.count .interrupt

/-! ## What is shown -/

/-- The hundredths of a second that the counter makes up at the current rate. -/
def Timer.hundredths (s : Timer) : ℕ := 100 * s.ticks.toNat / s.pitHz.hz.toNat

theorem PitRate.pos (rate : PitRate) : 0 < rate.hz.toNat := by
  have h := rate.min_le
  rw [UInt32.le_iff_toNat_le] at h
  exact Nat.lt_of_lt_of_le (by decide) h

/-- Both parts of an uptime are read off the hundredths. -/
theorem uptime_eq (s : Timer) :
    s.uptimeSeconds.toNat = s.hundredths / 100 ∧
    s.uptimeCentiseconds.toNat = s.hundredths % 100 := by
  have hpos := s.pitHz.pos
  have hlt : s.ticks.toNat % s.pitHz.hz.toNat < s.pitHz.hz.toNat := Nat.mod_lt _ hpos
  have hbound := s.pitHz.hz.toNat_lt
  -- both divisions in natural numbers, where the product does not wrap around
  have hsec : s.uptimeSeconds.toNat = s.ticks.toNat / s.pitHz.hz.toNat := by
    simp [Timer.uptimeSeconds]
  have hcent : s.uptimeCentiseconds.toNat =
      s.ticks.toNat % s.pitHz.hz.toNat * 100 / s.pitHz.hz.toNat := by
    simp only [Timer.uptimeCentiseconds, UInt64.toNat_div, UInt64.toNat_mul, UInt64.toNat_mod,
      UInt32.toNat_toUInt64, UInt64.toNat_ofNat]
    rw [Nat.mod_eq_of_lt (by omega)]
  have hrest : s.ticks.toNat % s.pitHz.hz.toNat * 100 / s.pitHz.hz.toNat < 100 := by
    rw [Nat.div_lt_iff_lt_mul hpos]
    omega
  -- the two numbers are the quotient and the rest of one and the same number
  have hsum : s.hundredths = s.ticks.toNat / s.pitHz.hz.toNat * 100 +
      s.ticks.toNat % s.pitHz.hz.toNat * 100 / s.pitHz.hz.toNat := by
    have hdiv := Nat.div_add_mod s.ticks.toNat s.pitHz.hz.toNat
    calc s.hundredths
        = (s.ticks.toNat % s.pitHz.hz.toNat * 100 +
            s.pitHz.hz.toNat * (s.ticks.toNat / s.pitHz.hz.toNat * 100)) / s.pitHz.hz.toNat := by
          rw [Timer.hundredths]
          congr 1
          rw [← Nat.mul_assoc, ← Nat.add_mul]
          omega
      _ = _ := by rw [Nat.add_mul_div_left _ _ hpos, Nat.add_comm]
  rw [hsec, hcent, hsum]
  omega

/-- The uptime was asked for in this state. -/
def ReadAt (s : Timer) (uptime : Uptime) : Prop :=
  uptime.seconds = s.uptimeSeconds ∧ ∀ x ∈ uptime.centiseconds, x = s.uptimeCentiseconds

theorem readAt_exec {s : Timer} {op : TimerOp} {uptime : Uptime}
    (h : (s.exec op).1 = some uptime) : ReadAt s uptime := by
  cases op with
  | interrupt | setPitHz _ => simp [Timer.exec] at h
  | uptimeSyscall | uptimeCommand =>
    obtain rfl := Option.some.inj h
    exact ⟨rfl, by simp⟩

/-- More hundredths are never an earlier uptime, whichever way it is asked for. -/
theorem notAfter_of_hundredths_le {s s' : Timer} (h : s.hundredths ≤ s'.hundredths) {a b : Uptime}
    (ha : ReadAt s a) (hb : ReadAt s' b) : a.NotAfter b := by
  obtain ⟨hsec, hcent⟩ := uptime_eq s
  obtain ⟨hsec', hcent'⟩ := uptime_eq s'
  refine ⟨?_, ?_⟩
  · rw [ha.1, hb.1, UInt64.le_iff_toNat_le, hsec, hsec']
    omega
  · intro hsame x hx y hy
    rw [ha.1, hb.1, ← UInt64.toNat_inj, hsec, hsec'] at hsame
    rw [ha.2 x hx, hb.2 y hy, UInt64.le_iff_toNat_le, hcent, hcent']
    omega

/-! ## Rate changes -/

/-- No hundredth of a second that is complete at the old rate is incomplete at the new one. -/
def KeepsHundredths (s : Timer) (requestedHz : UInt32) : Prop :=
  ∀ k : ℕ, k * s.pitHz.hz.toNat ≤ 100 * s.ticks.toNat →
    k * (programPit requestedHz).toNat ≤ 100 * s.ticks.toNat

/-- A new rate keeps the hundredths exactly if it does not show fewer. -/
theorem keepsHundredths_iff {s : Timer} {requestedHz : UInt32} :
    KeepsHundredths s requestedHz ↔ s.hundredths ≤ (s.setPitHz requestedHz).2.hundredths := by
  have hnew : 0 < (programPit requestedHz).toNat := (PitRate.program requestedHz).pos
  constructor
  · intro h
    exact (Nat.le_div_iff_mul_le hnew).mpr (h s.hundredths (Nat.div_mul_le_self _ _))
  · intro h k hk
    have hk' : k ≤ s.hundredths := (Nat.le_div_iff_mul_le s.pitHz.pos).mpr hk
    exact (Nat.le_div_iff_mul_le hnew).mp (hk'.trans h)

/-- A rate that is not raised takes nothing back. -/
theorem keepsHundredths_of_le {s : Timer} {requestedHz : UInt32}
    (h : programPit requestedHz ≤ s.pitHz.hz) : KeepsHundredths s requestedHz := by
  intro k hk
  rw [UInt32.le_iff_toNat_le] at h
  exact (Nat.mul_le_mul_left k h).trans hk

/-- One event: what is shown does not go back, as long as the counter does not wrap and a
rate change keeps the hundredths. -/
theorem hundredths_le_step {s : Timer} {op : TimerOp}
    (hwrap : op = .interrupt → s.ticks.toNat + 1 < 2 ^ 64)
    (hkeeps : ∀ hz, op = .setPitHz hz → KeepsHundredths s hz) :
    s.hundredths ≤ (s.exec op).2.hundredths := by
  cases op with
  | interrupt =>
    have hticks : s.interrupt.ticks.toNat = s.ticks.toNat + 1 := by
      rw [Timer.interrupt, UInt64.toNat_add, UInt64.toNat_one, Nat.mod_eq_of_lt (hwrap rfl)]
    simp only [Timer.exec, Timer.hundredths, hticks]
    exact Nat.div_le_div_right (by omega)
  | setPitHz hz => exact keepsHundredths_iff.mp (hkeeps hz rfl)
  | uptimeSyscall => exact le_rfl
  | uptimeCommand => exact le_rfl

/-! ## Whole runs -/

/-- The counter and the rest of the run, one event later. -/
theorem ticks_add_interrupts_cons {s : Timer} {op : TimerOp} {ops : List TimerOp}
    (h : s.ticks.toNat + interrupts (op :: ops) < 2 ^ 64) :
    (op = .interrupt → s.ticks.toNat + 1 < 2 ^ 64) ∧
      (s.exec op).2.ticks.toNat + interrupts ops < 2 ^ 64 := by
  cases op with
  | interrupt =>
    simp only [interrupts, List.count_cons_self] at h ⊢
    refine ⟨fun _ => by omega, ?_⟩
    rw [Timer.exec, Timer.interrupt, UInt64.toNat_add, UInt64.toNat_one]
    omega
  | _ => simpa [interrupts, Timer.exec, Timer.setPitHz] using h

/-- **Run.** Every report of the run is at least what was shown at its start, and the
reports do not go back. -/
theorem hundredths_le_run (ops : List TimerOp) :
    ∀ s : Timer, s.ticks.toNat + interrupts ops < 2 ^ 64 →
      (∀ k hz, ops[k]? = some (.setPitHz hz) → KeepsHundredths (timer.stateAt s ops k) hz) →
      (∀ r ∈ reports s ops, ∃ s', s.hundredths ≤ s'.hundredths ∧ ReadAt s' r) ∧
      (reports s ops).Pairwise Uptime.NotAfter := by
  induction ops with
  | nil => intro s _ _; simp [reports]
  | cons op ops ih =>
    intro s hwrap hkeeps
    obtain ⟨hstep, hrest⟩ := ticks_add_interrupts_cons hwrap
    -- this operation keeps the order, and the later ones by induction
    have hle : s.hundredths ≤ (s.exec op).2.hundredths :=
      hundredths_le_step hstep fun hz hop => by
        simpa using hkeeps 0 hz (by simp [hop])
    obtain ⟨hlater, hpair⟩ := ih (s.exec op).2 hrest fun k hz hk => by
      simpa using hkeeps (k + 1) hz (by simpa using hk)
    have hlater' : ∀ r ∈ reports (s.exec op).2 ops,
        ∃ s', s.hundredths ≤ s'.hundredths ∧ ReadAt s' r := by
      intro r hr
      obtain ⟨s', hs', hread⟩ := hlater r hr
      exact ⟨s', hle.trans hs', hread⟩
    cases hout : (s.exec op).1 with
    | none =>
      have heq : reports s (op :: ops) = reports (s.exec op).2 ops := by
        simp [reports, hout]
      rw [heq]
      exact ⟨hlater', hpair⟩
    | some uptime =>
      have heq : reports s (op :: ops) = uptime :: reports (s.exec op).2 ops := by
        simp [reports, hout]
      have hread := readAt_exec hout
      rw [heq]
      constructor
      · intro r hr
        rcases List.mem_cons.mp hr with rfl | hr
        · exact ⟨s, le_rfl, hread⟩
        · exact hlater' r hr
      -- the report of this operation stands before all later ones
      · refine List.pairwise_cons.mpr ⟨?_, hpair⟩
        intro r hr
        obtain ⟨s', hs', hread'⟩ := hlater' r hr
        exact notAfter_of_hundredths_le hs' hread hread'

/-- A rate change that takes hundredths back shows in the next uptime. -/
theorem reports_of_not_keeps {s : Timer} {hz : UInt32} (h : ¬ KeepsHundredths s hz) :
    ¬ (reports s [.uptimeCommand, .setPitHz hz, .uptimeCommand]).Pairwise Uptime.NotAfter := by
  intro hpair
  simp only [reports, Mealy.trace_cons, Mealy.trace_nil, timer_next, Timer.exec,
    List.filterMap_cons, List.filterMap_nil, List.pairwise_cons, List.mem_singleton,
    forall_eq] at hpair
  obtain ⟨hseconds, hcents⟩ := hpair.1
  obtain ⟨hsec, hcent⟩ := uptime_eq s
  obtain ⟨hsec', hcent'⟩ := uptime_eq (s.setPitHz hz).2
  rw [keepsHundredths_iff, Nat.not_le] at h
  have hcents' := fun hsame => hcents hsame _ rfl _ rfl
  simp only [UInt64.le_iff_toNat_le, ← UInt64.toNat_inj, hsec, hsec', hcent, hcent'] at hseconds hcents'
  omega

theorem reports_append (s : Timer) (ops ops' : List TimerOp) :
    reports s (ops ++ ops') = reports s ops ++ reports (timer.run s ops) ops' := by
  rw [reports, Mealy.trace_append, List.filterMap_append]
  rfl

/-- **Uptime.** In a run from boot, without a wrap of the counter, whose rate changes keep the
hundredths completed so far, the uptimes reported do not go back; and wherever in the run a
rate change would not keep them, it makes the next uptime an earlier one. -/
theorem uptime_monotone (ops : List TimerOp) (hwrap : interrupts ops < 2 ^ 64) :
    ((∀ k hz, ops[k]? = some (.setPitHz hz) →
        KeepsHundredths (timer.stateAt Timer.initial ops k) hz) →
      (reports Timer.initial ops).Pairwise Uptime.NotAfter) ∧
    (∀ k hz, ¬ KeepsHundredths (timer.stateAt Timer.initial ops k) hz →
      ¬ (reports Timer.initial (ops.take k ++
        [.uptimeCommand, .setPitHz hz, .uptimeCommand])).Pairwise Uptime.NotAfter) := by
  constructor
  · intro hkeeps
    have hzero : Timer.initial.ticks.toNat = 0 := rfl
    exact (hundredths_le_run ops Timer.initial (by omega) hkeeps).2
  · intro k hz h hpair
    rw [reports_append, List.pairwise_append] at hpair
    exact reports_of_not_keeps h hpair.2.1

/-- The rate is raised before the first interrupt and lowered later. -/
theorem uptime_monotone_early_raise :
    (reports Timer.initial [.setPitHz 1000, .interrupt, .interrupt, .uptimeCommand, .setPitHz 50,
      .interrupt, .uptimeSyscall, .uptimeCommand]).Pairwise Uptime.NotAfter := by
  refine (uptime_monotone _ (by decide)).1 ?_
  intro k hz hk
  refine keepsHundredths_iff.mpr ?_
  have hlt : k < 8 := (List.getElem?_eq_some_iff.mp hk).1
  interval_cases k <;>
    simp only [List.getElem?_cons_succ, List.getElem?_cons_zero, Option.some.injEq, reduceCtorEq,
      TimerOp.setPitHz.injEq] at hk <;>
    subst hk <;> decide

/-- The law without a condition on the rate changes. -/
def UptimeNeverGoesBack : Prop :=
  ∀ ops : List TimerOp, interrupts ops < 2 ^ 64 →
    (reports Timer.initial ops).Pairwise Uptime.NotAfter

/-- Two seconds after boot at 100 Hz, `timerhz 1000` turns an uptime of 2 s into 0 s. -/
theorem uptime_goes_back : ¬ UptimeNeverGoesBack := by
  intro hlaw
  have hpair := hlaw (List.replicate 200 .interrupt ++ [.uptimeSyscall, .setPitHz 1000,
    .uptimeSyscall]) (by decide +kernel)
  have hreports : reports Timer.initial (List.replicate 200 .interrupt ++
      [.uptimeSyscall, .setPitHz 1000, .uptimeSyscall]) = [⟨2, none⟩, ⟨0, none⟩] := by
    decide +kernel
  rw [hreports] at hpair
  simp [Uptime.NotAfter] at hpair

end JingOS.Interrupts
