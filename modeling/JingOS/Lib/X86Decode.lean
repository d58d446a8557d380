import JingOS.Lib.X86

/-!
# Fetching and decoding x86-64 code

A decoder for the few opcodes that generated code uses, and the execution of code in memory.
`userRun_straight` is the rule for such code: a piece of straight-line code that lies at the
instruction pointer is executed instruction by instruction, provided that what `syscall` does
comes back behind it and leaves the code alone.
-/

namespace X86

open ByteMem

/-- A decoded instruction. -/
inductive Op where
  | plain (i : Instr)
  | syscall
  | int (vector : UInt8)
  | jmp (offset : UInt64)
deriving DecidableEq, Repr

/-- The register with the given number. -/
def regOf (n : ℕ) : Reg :=
  match n with
  | 0 => .rax | 1 => .rcx | 2 => .rdx | 3 => .rbx | 4 => .rsp | 5 => .rbp | 6 => .rsi | 7 => .rdi
  | 8 => .r8 | 9 => .r9 | 10 => .r10 | 11 => .r11 | 12 => .r12 | 13 => .r13 | 14 => .r14 | _ => .r15

/-- A sign-extended byte. -/
def signExtend (b : UInt8) : UInt64 :=
  if b < 0x80 then b.toUInt64 else b.toUInt64 - 0x100

/-- `mov r, imm` with an immediate of `n` bytes behind `opcodeLength` bytes. -/
def decodeImm (n opcodeLength register : ℕ) (bytes : List UInt8) : Option (Op × ℕ) :=
  if n ≤ bytes.length then
    some (.plain (.movImm (regOf register) (UInt64.ofNat (leNat (bytes.take n)))), opcodeLength + n)
  else none

/-- The instructions behind a REX prefix with W set; `r` and `b` are its R and B bits. -/
def decodeRexW (r b : ℕ) : List UInt8 → Option (Op × ℕ)
  | [] => none
  | opcode :: rest =>
    if 0xb8 ≤ opcode.toNat ∧ opcode.toNat ≤ 0xbf then
      decodeImm 8 2 (opcode.toNat - 0xb8 + 8 * b) rest
    else if opcode.toNat = 0x89 then
      match rest with
      | [] => none
      | modrm :: _ =>
        if modrm.toNat / 64 = 3 then
          some (.plain (.mov (regOf (modrm.toNat % 8 + 8 * b))
            (regOf (modrm.toNat / 8 % 8 + 8 * r))), 3)
        else none
    else none

/-- The first instruction of a list of bytes, with its length. -/
def decode : List UInt8 → Option (Op × ℕ)
  | [] => none
  | opcode :: rest =>
    if opcode.toNat = 0x90 then some (.plain .nop, 1)
    else if 0xb8 ≤ opcode.toNat ∧ opcode.toNat ≤ 0xbf then
      decodeImm 4 1 (opcode.toNat - 0xb8) rest
    else if 0x48 ≤ opcode.toNat ∧ opcode.toNat ≤ 0x4f then
      decodeRexW (opcode.toNat / 4 % 2) (opcode.toNat % 2) rest
    else
      match rest with
      | [] => none
      | next :: _ =>
        if opcode.toNat = 0x0f ∧ next.toNat = 0x05 then some (.syscall, 2)
        else if opcode.toNat = 0xcd then some (.int next, 2)
        else if opcode.toNat = 0xeb then some (.jmp (signExtend next), 2)
        else none

/-- The bytes decode to the instruction, whatever comes behind them. -/
def Decodes (bytes : List UInt8) (op : Op) : Prop :=
  bytes.length ≤ 15 ∧ ∀ rest, decode (bytes ++ rest) = some (op, bytes.length)

/-! ## Encodings -/

theorem decodes_movImm32 {opcode : UInt8} (h : 0xb8 ≤ opcode.toNat ∧ opcode.toNat ≤ 0xbf)
    {register : Reg} (hreg : regOf (opcode.toNat - 0xb8) = register) {v : ℕ} (hv : v < 256 ^ 4) :
    Decodes (opcode :: leBytes 4 v) (.plain (.movImm register (UInt64.ofNat v))) := by
  subst hreg
  refine ⟨by simp, fun rest => ?_⟩
  have htake : (leBytes 4 v ++ rest).take 4 = leBytes 4 v := by
    rw [List.take_append_of_le_length (by simp), List.take_of_length_le (by simp)]
  have hnop : opcode.toNat ≠ 0x90 := by omega
  simp [decode, decodeImm, hnop, h, htake, leNat_leBytes_of_lt hv]

theorem decodes_movImm64 {rex opcode : UInt8} (hrex : 0x48 ≤ rex.toNat ∧ rex.toNat ≤ 0x4f)
    (h : 0xb8 ≤ opcode.toNat ∧ opcode.toNat ≤ 0xbf) {register : Reg}
    (hreg : regOf (opcode.toNat - 0xb8 + 8 * (rex.toNat % 2)) = register) {v : ℕ}
    (hv : v < 256 ^ 8) :
    Decodes (rex :: opcode :: leBytes 8 v) (.plain (.movImm register (UInt64.ofNat v))) := by
  subst hreg
  refine ⟨by simp, fun rest => ?_⟩
  have htake : (leBytes 8 v ++ rest).take 8 = leBytes 8 v := by
    rw [List.take_append_of_le_length (by simp), List.take_of_length_le (by simp)]
  have hnop : rex.toNat ≠ 0x90 := by omega
  have hmov : ¬ (0xb8 ≤ rex.toNat ∧ rex.toNat ≤ 0xbf) := by omega
  simp only [List.cons_append, decode, if_neg hnop, if_neg hmov, if_pos hrex, decodeRexW,
    if_pos h, decodeImm, htake, leNat_leBytes_of_lt hv]
  simp

/-! ## Code in memory -/

/-- The code lies at the address. -/
def CodeAt (m : Mem) (a : UInt64) (code : List UInt8) : Prop := readBytes m a code.length = code

/-- Code in two parts. -/
theorem codeAt_append {m : Mem} {a : UInt64} {xs ys : List UInt8} :
    CodeAt m a (xs ++ ys) ↔ CodeAt m a xs ∧ CodeAt m (a + UInt64.ofNat xs.length) ys := by
  unfold CodeAt
  rw [List.length_append, readBytes_append]
  constructor
  · intro h
    exact List.append_inj h (by simp)
  · rintro ⟨hx, hy⟩
    rw [hx, hy]

theorem CodeAt.congr {m m' : Mem} {a : UInt64} {code : List UInt8} (h : CodeAt m a code)
    (hlen : code.length ≤ 2 ^ 64) (hsame : ∀ x, within a code.length x = true → m' x = m x) :
    CodeAt m' a code :=
  (readBytes_congr hlen hsame).trans h

/-! ## Execution -/

/-- How an instruction ends. -/
inductive Outcome where
  | next (s : Cpu)
  /-- An `int` is about to be taken; `rip` is behind it. -/
  | interrupt (vector : UInt8) (s : Cpu)
  | undefined (s : Cpu)

/-- The effect of an instruction that goes on behind itself. -/
def Op.apply (syscall : Cpu → Cpu) (s : Cpu) : Op → Cpu
  | plain i => i.exec s
  | .syscall => syscall s
  | int _ => s
  | jmp offset => { s with rip := s.rip + offset }

/-- An `int` ends a run of user code, every other instruction leads to the next one. -/
def Op.outcome (syscall : Cpu → Cpu) (s : Cpu) (op : Op) : Outcome :=
  match op with
  | int vector => .interrupt vector s
  | op => .next (op.apply syscall s)

/-- Fetch, decode and execute; `syscall` is what the kernel makes of one. -/
def userStep (syscall : Cpu → Cpu) (s : Cpu) : Outcome :=
  match decode (readBytes s.mem s.rip 15) with
  | none => .undefined s
  | some (op, length) => op.outcome syscall { s with rip := s.rip + UInt64.ofNat length }

/-- Steps until an interrupt; the kernel may answer differently at every step. -/
def userRun (syscall : ℕ → Cpu → Cpu) (n : ℕ) : ℕ → Cpu → Outcome
  | 0, s => .next s
  | fuel + 1, s =>
    match userStep (syscall n) s with
    | .next s' => userRun syscall (n + 1) fuel s'
    | outcome => outcome

/-- A step where the bytes of an instruction lie. -/
theorem userStep_of_codeAt {syscall : Cpu → Cpu} {s : Cpu} {bytes : List UInt8} {op : Op}
    (hcode : CodeAt s.mem s.rip bytes) (hdec : Decodes bytes op) :
    userStep syscall s =
      op.outcome syscall { s with rip := s.rip + UInt64.ofNat bytes.length } := by
  obtain ⟨hlen, hdec⟩ := hdec
  have hfetch : readBytes s.mem s.rip 15 =
      bytes ++ readBytes s.mem (s.rip + UInt64.ofNat bytes.length) (15 - bytes.length) := by
    rw [← Nat.add_sub_cancel' hlen, readBytes_append, hcode, Nat.add_sub_cancel_left]
  rw [userStep, hfetch, hdec]

/-- An instruction that touches registers only, or a `syscall`. -/
def Op.isStraight : Op → Bool
  | plain .nop | plain (.mov _ _) | plain (.movImm _ _) | .syscall => true
  | _ => false

/-- What a `syscall` handler has to be for the code around it: it returns behind the
`syscall`, leaves `region` alone, and keeps what it relies on itself. -/
structure Transparent (syscall : ℕ → Cpu → Cpu) (region : UInt64 → Bool) (Ready : Cpu → Prop) :
    Prop where
  rip : ∀ n s, Ready s → (syscall n s).rip = s.rip
  mem : ∀ n s, Ready s → ∀ x, region x = true → (syscall n s).mem x = s.mem x
  keeps : ∀ n s, Ready s → Ready (syscall n s)
  regs : ∀ s s', Ready s → s'.mem = s.mem → s'.kernelGsBase = s.kernelGsBase → Ready s'

/-- Instructions executed one after the other, each with its encoding. -/
def follow (syscall : ℕ → Cpu → Cpu) (n : ℕ) (s : Cpu) : List (Op × List UInt8) → Cpu
  | [] => s
  | (op, bytes) :: code =>
    follow syscall (n + 1)
      (op.apply (syscall n) { s with rip := s.rip + UInt64.ofNat bytes.length }) code

/-- Instructions in two parts. -/
theorem follow_append (syscall : ℕ → Cpu → Cpu) (xs ys : List (Op × List UInt8)) (n : ℕ)
    (s : Cpu) :
    follow syscall n s (xs ++ ys) =
      follow syscall (n + xs.length) (follow syscall n s xs) ys := by
  induction xs generalizing n s with
  | nil => rfl
  | cons p xs ih =>
    obtain ⟨op, bytes⟩ := p
    rw [List.cons_append, follow, ih, follow, List.length_cons, Nat.add_assoc, Nat.add_comm 1]

/-- One instruction of straight-line code. -/
theorem apply_straight {syscall : ℕ → Cpu → Cpu} {region : UInt64 → Bool} {Ready : Cpu → Prop}
    (hsys : Transparent syscall region Ready) (n : ℕ) {s : Cpu} {op : Op}
    (hop : op.isStraight = true) (hready : Ready s) :
    (op.apply (syscall n) s).rip = s.rip ∧ Ready (op.apply (syscall n) s) ∧
      ∀ x, region x = true → (op.apply (syscall n) s).mem x = s.mem x := by
  cases op with
  | syscall => exact ⟨hsys.rip n s hready, hsys.keeps n s hready, hsys.mem n s hready⟩
  | int _ => simp [Op.isStraight] at hop
  | jmp _ => simp [Op.isStraight] at hop
  | plain i =>
    cases i with
    | nop | mov | movImm => exact ⟨rfl, hsys.regs s _ hready rfl rfl, fun _ _ => rfl⟩
    | _ => simp [Op.isStraight] at hop

/-- **Straight-line code.** Code at the instruction pointer is executed as it is written. -/
theorem userRun_straight {syscall : ℕ → Cpu → Cpu} {region : UInt64 → Bool} {Ready : Cpu → Prop}
    (hsys : Transparent syscall region Ready) (code : List (Op × List UInt8)) :
    ∀ (n fuel : ℕ) (s : Cpu) (tail : List UInt8),
      (∀ p ∈ code, p.1.isStraight = true ∧ Decodes p.2 p.1) →
      ((code.flatMap Prod.snd) ++ tail).length ≤ 2 ^ 64 →
      CodeAt s.mem s.rip ((code.flatMap Prod.snd) ++ tail) →
      (∀ x, within s.rip ((code.flatMap Prod.snd) ++ tail).length x = true → region x = true) →
      Ready s →
      userRun syscall n (code.length + fuel) s =
          userRun syscall (n + code.length) fuel (follow syscall n s code) ∧
        CodeAt (follow syscall n s code).mem (follow syscall n s code).rip tail ∧
        Ready (follow syscall n s code) := by
  induction code with
  | nil =>
    intro n fuel s tail _ _ hcode _ hready
    exact ⟨by simp [follow], hcode, hready⟩
  | cons p code ih =>
    intro n fuel s tail hops hlen hcode hregion hready
    obtain ⟨op, bytes⟩ := p
    obtain ⟨hop, hdec⟩ := hops (op, bytes) (by simp)
    simp only [List.flatMap_cons, List.append_assoc] at hcode hlen hregion
    obtain ⟨hfirst, hrest⟩ := codeAt_append.mp hcode
    let moved : Cpu := { s with rip := s.rip + UInt64.ofNat bytes.length }
    have hmoved : Ready moved := hsys.regs s moved hready rfl rfl
    obtain ⟨hrip, hready', hmem⟩ := apply_straight hsys n hop hmoved
    -- the rest of the code lies in the region, so this instruction has not changed it
    have hwithin : ∀ x, within moved.rip ((code.flatMap Prod.snd) ++ tail).length x = true →
        region x = true := by
      intro x hx
      refine hregion x ?_
      have := s.rip.toNat_lt
      have := x.toNat_lt
      rw [List.length_append] at hlen ⊢
      rw [within_iff] at hx ⊢
      simp only [moved, UInt64.toNat_add, UInt64.toNat_ofNat'] at hx
      omega
    have hcode' : CodeAt (op.apply (syscall n) moved).mem (op.apply (syscall n) moved).rip
        ((code.flatMap Prod.snd) ++ tail) := by
      rw [hrip]
      refine CodeAt.congr hrest ?_ fun x hx => hmem x (hwithin x hx)
      rw [List.length_append] at hlen
      omega
    obtain ⟨hrun, hcodeEnd, hreadyEnd⟩ := ih (n + 1) fuel _ tail
      (fun p hp => hops p (by simp [hp])) (by rw [List.length_append] at hlen; omega) hcode'
      (by rw [hrip]; exact hwithin) hready'
    refine ⟨?_, hcodeEnd, hreadyEnd⟩
    have hstep : userStep (syscall n) s = .next (op.apply (syscall n) moved) := by
      rw [userStep_of_codeAt hfirst hdec]
      cases op with
      | int _ => simp [Op.isStraight] at hop
      | _ => rfl
    rw [List.length_cons, Nat.add_right_comm, userRun, hstep]
    simp only
    rw [hrun, Nat.add_assoc, Nat.add_comm 1]
    rfl

end X86
