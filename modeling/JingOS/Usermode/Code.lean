import JingOS.Lib.X86Decode
import JingOS.Syscall.Fast
import JingOS.Usermode.Session

/-!
# Generated ring-3 code (`kernel/src/usermode.rs`)

`UserCodeBuilder` emits machine code byte by byte. Every `emit` is followed here by what it
emits (`Emits`) and by what the bytes decode to (`Decodes`); the straight-line rule of
`JingOS.Lib.X86Decode` then says what the emitted code does, with two system calls in it.
-/

namespace JingOS.Usermode

open X86 ByteMem JingOS.Syscall

/-! ## The builder -/

/-- `USER_CODE_MAX_BYTES`. -/
def userCodeMaxBytes : ℕ := 256

/-- The part of the buffer in use: `bytes[..len]`. -/
structure UserCodeBuilder where
  code : List UInt8
  le_max : code.length ≤ userCodeMaxBytes

namespace UserCodeBuilder

def new : UserCodeBuilder := ⟨[], by decide⟩

/-- One byte more, if the page has room. -/
def emitByte (builder : UserCodeBuilder) (byte : UInt8) : Except String UserCodeBuilder :=
  if h : builder.code.length ≥ userCodeMaxBytes then
    .error "user mode demo code exceeded max length"
  else .ok ⟨builder.code ++ [byte], by simp only [List.length_append, List.length_singleton]; omega⟩

/-- All of the bytes, or none. -/
def emitBytes (builder : UserCodeBuilder) (bytes : List UInt8) : Except String UserCodeBuilder :=
  if h : builder.code.length + bytes.length > userCodeMaxBytes then
    .error "user mode demo code exceeded max length"
  else .ok ⟨builder.code ++ bytes, by simp only [List.length_append]; omega⟩

/-- The number of a call. -/
def emitMovEaxImm32 (builder : UserCodeBuilder) (value : UInt32) :
    Except String UserCodeBuilder := do
  let builder ← builder.emitByte 0xB8
  builder.emitBytes (leBytes 4 value.toNat)

/-- The first argument of a call. -/
def emitMovRdiImm64 (builder : UserCodeBuilder) (value : UInt64) :
    Except String UserCodeBuilder := do
  let builder ← builder.emitBytes [0x48, 0xBF]
  builder.emitBytes (leBytes 8 value.toNat)

/-- The second argument. -/
def emitMovRsiImm64 (builder : UserCodeBuilder) (value : UInt64) :
    Except String UserCodeBuilder := do
  let builder ← builder.emitBytes [0x48, 0xBE]
  builder.emitBytes (leBytes 8 value.toNat)

/-- The third argument. -/
def emitMovRdxImm64 (builder : UserCodeBuilder) (value : UInt64) :
    Except String UserCodeBuilder := do
  let builder ← builder.emitBytes [0x48, 0xBA]
  builder.emitBytes (leBytes 8 value.toNat)

def emitSyscall (builder : UserCodeBuilder) : Except String UserCodeBuilder :=
  builder.emitBytes [0x0F, 0x05]

def emitMovR8Rax (builder : UserCodeBuilder) : Except String UserCodeBuilder :=
  builder.emitBytes [0x49, 0x89, 0xC0]

def emitMovR9R10 (builder : UserCodeBuilder) : Except String UserCodeBuilder :=
  builder.emitBytes [0x4D, 0x89, 0xD1]

def emitMovR12R10 (builder : UserCodeBuilder) : Except String UserCodeBuilder :=
  builder.emitBytes [0x4D, 0x89, 0xD4]

def emitMovR10Rax (builder : UserCodeBuilder) : Except String UserCodeBuilder :=
  builder.emitBytes [0x49, 0x89, 0xC2]

def emitInterrupt (builder : UserCodeBuilder) (vector : UInt8) : Except String UserCodeBuilder :=
  builder.emitBytes [0xCD, vector]

/-- A jump to itself, should the code ever get so far. -/
def emitHangLoop (builder : UserCodeBuilder) : Except String UserCodeBuilder :=
  builder.emitBytes [0xEB, 0xFE]

end UserCodeBuilder

open UserCodeBuilder

/-- The first call; its value and its status go to `r8` and `r9`. -/
def emitFastSyscallCaptureSlot0 (builder : UserCodeBuilder) (number : UInt32)
    (arg0 arg1 arg2 : UInt64) : Except String UserCodeBuilder := do
  let builder ← builder.emitMovEaxImm32 number
  let builder ← builder.emitMovRdiImm64 arg0
  let builder ← builder.emitMovRsiImm64 arg1
  let builder ← builder.emitMovRdxImm64 arg2
  let builder ← builder.emitSyscall
  let builder ← builder.emitMovR8Rax
  builder.emitMovR9R10

def emitFastSyscallCaptureSlot1 (builder : UserCodeBuilder) (number : UInt32)
    (arg0 arg1 arg2 : UInt64) : Except String UserCodeBuilder := do
  let builder ← builder.emitMovEaxImm32 number
  let builder ← builder.emitMovRdiImm64 arg0
  let builder ← builder.emitMovRsiImm64 arg1
  let builder ← builder.emitMovRdxImm64 arg2
  let builder ← builder.emitSyscall
  let builder ← builder.emitMovR12R10
  builder.emitMovR10Rax

/-- A system call with its arguments. -/
structure Request where
  number : UInt32
  arg0 : UInt64
  arg1 : UInt64
  arg2 : UInt64

/-- The body that `build_fast_syscall_success_code` and `build_fast_syscall_error_code`
share: two captured system calls, the exit interrupt and the loop behind it. -/
def buildFastSyscallCode (first second : Request) : Except String UserCodeBuilder := do
  let builder ← emitFastSyscallCaptureSlot0 new first.number first.arg0 first.arg1 first.arg2
  let builder ← emitFastSyscallCaptureSlot1 builder second.number second.arg0 second.arg1 second.arg2
  let builder ← builder.emitInterrupt usermodeExitInterruptVector
  builder.emitHangLoop

/-- `USER_FAST_SYSCALL_UNKNOWN_NUMBER`. -/
def userFastSyscallUnknownNumber : UInt32 := 0xFFFFFF00

/-- The ticks, and a sum. -/
def buildFastSyscallSuccessCode : Except String UserCodeBuilder :=
  buildFastSyscallCode ⟨syscallGetTicks.toUInt32, 0, 0, 0⟩ ⟨syscallAdd.toUInt32, 40, 2, 0⟩

/-- An unknown number, and a sum that overflows. -/
def buildFastSyscallErrorCode : Except String UserCodeBuilder :=
  buildFastSyscallCode ⟨userFastSyscallUnknownNumber, 0, 0, 0⟩
    ⟨syscallAdd.toUInt32, U64.maxVal, 1, 0⟩

/-- `USER_CODE_START`. -/
def userCodeStart : UInt64 := 0x666600000000

/-- The page that holds the code. -/
def inUserPage : UInt64 → Bool := within userCodeStart 4096

/-- `write_demo_code`: the page is filled with `nop`, then the code is written. -/
def writeDemoCode (m : Mem) (code : List UInt8) : Mem :=
  writeBytes (writeBytes m userCodeStart (List.replicate 4096 0x90)) userCodeStart code

/-! ## What is emitted -/

/-- The function appends the bytes whenever there is room for them. -/
def Emits (emit : UserCodeBuilder → Except String UserCodeBuilder) (bytes : List UInt8) : Prop :=
  ∀ builder : UserCodeBuilder, builder.code.length + bytes.length ≤ userCodeMaxBytes →
    ∃ after, emit builder = .ok after ∧ after.code = builder.code ++ bytes

theorem emits_emitByte (byte : UInt8) : Emits (·.emitByte byte) [byte] := by
  intro builder hroom
  have hfits : ¬ builder.code.length ≥ userCodeMaxBytes := by
    rw [List.length_singleton] at hroom
    omega
  exact ⟨_, dif_neg hfits, rfl⟩

theorem emits_emitBytes (bytes : List UInt8) : Emits (·.emitBytes bytes) bytes := by
  intro builder hroom
  exact ⟨_, dif_neg (by omega), rfl⟩

/-- One piece of code after the other. -/
theorem Emits.bind {f g : UserCodeBuilder → Except String UserCodeBuilder} {xs ys : List UInt8}
    (hf : Emits f xs) (hg : Emits g ys) : Emits (fun builder => f builder >>= g) (xs ++ ys) := by
  intro builder hroom
  rw [List.length_append] at hroom
  obtain ⟨middle, hmiddle, hcode⟩ := hf builder (by omega)
  obtain ⟨after, hafter, hcode'⟩ := hg middle (by rw [hcode, List.length_append]; omega)
  refine ⟨after, ?_, ?_⟩
  · simp only [hmiddle]
    exact hafter
  · rw [hcode', hcode, List.append_assoc]

/-- The instructions that load a request and make the call, with their encodings. -/
def requestCode (request : Request) : List (Op × List UInt8) :=
  [(.plain (.movImm .rax (UInt64.ofNat request.number.toNat)),
      0xB8 :: leBytes 4 request.number.toNat),
   (.plain (.movImm .rdi (UInt64.ofNat request.arg0.toNat)),
      0x48 :: 0xBF :: leBytes 8 request.arg0.toNat),
   (.plain (.movImm .rsi (UInt64.ofNat request.arg1.toNat)),
      0x48 :: 0xBE :: leBytes 8 request.arg1.toNat),
   (.plain (.movImm .rdx (UInt64.ofNat request.arg2.toNat)),
      0x48 :: 0xBA :: leBytes 8 request.arg2.toNat),
   (.syscall, [0x0F, 0x05])]

/-- The moves behind the first call. -/
def slot0Moves : List (Op × List UInt8) :=
  [(.plain (.mov .r8 .rax), [0x49, 0x89, 0xC0]), (.plain (.mov .r9 .r10), [0x4D, 0x89, 0xD1])]

/-- The moves behind the second call. -/
def slot1Moves : List (Op × List UInt8) :=
  [(.plain (.mov .r12 .r10), [0x4D, 0x89, 0xD4]), (.plain (.mov .r10 .rax), [0x49, 0x89, 0xC2])]

/-- The straight part of the code. -/
def captureCode (first second : Request) : List (Op × List UInt8) :=
  requestCode first ++ slot0Moves ++ (requestCode second ++ slot1Moves)

/-- The exit interrupt and the loop behind it. -/
def exitBytes : List UInt8 := [0xCD, usermodeExitInterruptVector, 0xEB, 0xFE]

theorem emits_movEaxImm32 (value : UInt32) :
    Emits (·.emitMovEaxImm32 value) (0xB8 :: leBytes 4 value.toNat) :=
  (emits_emitByte 0xB8).bind (emits_emitBytes _)

theorem emits_movRdiImm64 (value : UInt64) :
    Emits (·.emitMovRdiImm64 value) (0x48 :: 0xBF :: leBytes 8 value.toNat) :=
  (emits_emitBytes [0x48, 0xBF]).bind (emits_emitBytes _)

theorem emits_movRsiImm64 (value : UInt64) :
    Emits (·.emitMovRsiImm64 value) (0x48 :: 0xBE :: leBytes 8 value.toNat) :=
  (emits_emitBytes [0x48, 0xBE]).bind (emits_emitBytes _)

theorem emits_movRdxImm64 (value : UInt64) :
    Emits (·.emitMovRdxImm64 value) (0x48 :: 0xBA :: leBytes 8 value.toNat) :=
  (emits_emitBytes [0x48, 0xBA]).bind (emits_emitBytes _)

/-- The loads and the call that both slots begin with, in front of two moves. -/
theorem emits_slot (request : Request) {f g : UserCodeBuilder → Except String UserCodeBuilder}
    {xs ys : List UInt8} (hf : Emits f xs) (hg : Emits g ys) :
    Emits (fun builder => do
      let builder ← builder.emitMovEaxImm32 request.number
      let builder ← builder.emitMovRdiImm64 request.arg0
      let builder ← builder.emitMovRsiImm64 request.arg1
      let builder ← builder.emitMovRdxImm64 request.arg2
      let builder ← builder.emitSyscall
      let builder ← f builder
      g builder) ((requestCode request).flatMap Prod.snd ++ (xs ++ ys)) := by
  have h := (emits_movEaxImm32 request.number).bind ((emits_movRdiImm64 request.arg0).bind
    ((emits_movRsiImm64 request.arg1).bind ((emits_movRdxImm64 request.arg2).bind
      ((emits_emitBytes [0x0F, 0x05]).bind (hf.bind hg)))))
  have hbytes : (requestCode request).flatMap Prod.snd ++ (xs ++ ys) =
      (0xB8 :: leBytes 4 request.number.toNat) ++ ((0x48 :: 0xBF :: leBytes 8 request.arg0.toNat) ++
        ((0x48 :: 0xBE :: leBytes 8 request.arg1.toNat) ++
          ((0x48 :: 0xBA :: leBytes 8 request.arg2.toNat) ++ ([0x0F, 0x05] ++ (xs ++ ys))))) := by
    simp [requestCode]
  rw [hbytes]
  exact h

/-- **Emission.** The code fits into the buffer and is the encoding of the two captured
calls, the exit interrupt and the loop. -/
theorem buildFastSyscallCode_ok (first second : Request) :
    ∃ builder, buildFastSyscallCode first second = .ok builder ∧
      builder.code = (captureCode first second).flatMap Prod.snd ++ exitBytes := by
  have h0 : Emits (emitFastSyscallCaptureSlot0 · first.number first.arg0 first.arg1 first.arg2) _ :=
    emits_slot first (emits_emitBytes [0x49, 0x89, 0xC0]) (emits_emitBytes [0x4D, 0x89, 0xD1])
  have h1 : Emits (emitFastSyscallCaptureSlot1 · second.number second.arg0 second.arg1 second.arg2)
      _ :=
    emits_slot second (emits_emitBytes [0x4D, 0x89, 0xD4]) (emits_emitBytes [0x49, 0x89, 0xC2])
  have hall := h0.bind (h1.bind ((emits_emitBytes [0xCD, usermodeExitInterruptVector]).bind
    (emits_emitBytes [0xEB, 0xFE])))
  obtain ⟨builder, hbuild, hcode⟩ := hall new (by simp [new, requestCode, userCodeMaxBytes])
  refine ⟨builder, hbuild, ?_⟩
  rw [hcode]
  simp [new, captureCode, slot0Moves, slot1Moves, exitBytes, List.flatMap_append]

/-! ## What the bytes decode to -/

theorem requestCode_decodes (request : Request) :
    ∀ p ∈ requestCode request, p.1.isStraight = true ∧ Decodes p.2 p.1 := by
  intro p hp
  simp only [requestCode, List.mem_cons, List.not_mem_nil, or_false] at hp
  have hnumber : request.number.toNat < 256 ^ 4 := by simpa using request.number.toNat_lt
  have harg : ∀ value : UInt64, value.toNat < 256 ^ 8 := fun value => by
    simpa using value.toNat_lt
  rcases hp with rfl | rfl | rfl | rfl | rfl
  · exact ⟨rfl, decodes_movImm32 (by decide) (by decide) hnumber⟩
  · exact ⟨rfl, decodes_movImm64 (by decide) (by decide) (by decide) (harg _)⟩
  · exact ⟨rfl, decodes_movImm64 (by decide) (by decide) (by decide) (harg _)⟩
  · exact ⟨rfl, decodes_movImm64 (by decide) (by decide) (by decide) (harg _)⟩
  · exact ⟨rfl, by decide, fun rest => rfl⟩

theorem moves_decode :
    ∀ p ∈ slot0Moves ++ slot1Moves, p.1.isStraight = true ∧ Decodes p.2 p.1 := by
  intro p hp
  simp only [slot0Moves, slot1Moves, List.cons_append, List.nil_append, List.mem_cons,
    List.not_mem_nil, or_false] at hp
  rcases hp with rfl | rfl | rfl | rfl <;> exact ⟨rfl, by decide, fun rest => rfl⟩

theorem captureCode_decodes (first second : Request) :
    ∀ p ∈ captureCode first second, p.1.isStraight = true ∧ Decodes p.2 p.1 := by
  intro p hp
  simp only [captureCode, List.mem_append] at hp
  rcases hp with (hp | hp) | hp | hp
  · exact requestCode_decodes first p hp
  · exact moves_decode p (List.mem_append_left _ hp)
  · exact requestCode_decodes second p hp
  · exact moves_decode p (List.mem_append_right _ hp)

/-! ## What the code does -/

/-- The page of the user's code is no part of the two statics of the fast path. -/
structure UserPageApart (layout : FastSyscallLayout) : Prop where
  stack : ∀ x, inUserPage x = true → within layout.stackStart 16384 x = false
  cpuLocal : ∀ x, inUserPage x = true → within layout.cpuLocal 16 x = false

/-- The part of the stack in use lies in the static. -/
theorem within_stackStart {layout : FastSyscallLayout} {x : UInt64}
    (h : within (layout.kernelRsp - 144) 144 x = true) :
    within layout.stackStart 16384 x = true := by
  obtain ⟨hlow, hhigh, -⟩ := layout.toNat_kernelRsp
  have hstack := layout.stack_fits
  have := x.toNat_lt
  rw [within_iff, UInt64.toNat_sub, show (144 : UInt64).toNat = 144 from rfl] at h
  rw [within_iff]
  omega

section Run

variable {layout : FastSyscallLayout} (msrs : SyscallMsrs) (kernels : ℕ → Kernel)
  (unknowns : ℕ → Unknown)

/-- `syscall` at the `n`-th step of the user's code: the kernel's globals and what compiled
code leaves behind may differ from step to step. -/
def userSyscall (layout : FastSyscallLayout) (msrs : SyscallMsrs) (kernels : ℕ → Kernel)
    (unknowns : ℕ → Unknown) (n : ℕ) (s : Cpu) : Cpu :=
  fastSyscall layout inUserPage msrs (kernels n) (unknowns n) s

/-- The call of user code keeps what the page and the stub rely on. -/
theorem userSyscall_transparent (hpage : UserPageApart layout) :
    Transparent (userSyscall layout msrs kernels unknowns) inUserPage (FastReady layout) where
  rip := fun n s h => (fastSyscall_spec h inUserPage msrs (kernels n) (unknowns n)).2.1
  keeps := fun n s h => (fastSyscall_spec h inUserPage msrs (kernels n) (unknowns n)).2.2.2.2.1
  mem := by
    intro n s h x hx
    obtain ⟨-, -, -, -, -, hmem⟩ := fastSyscall_spec h inUserPage msrs (kernels n) (unknowns n)
    refine hmem x hx ?_ (hpage.cpuLocal x hx)
    rw [← Bool.not_eq_true]
    intro hin
    exact Bool.noConfusion ((within_stackStart hin).symm.trans (hpage.stack x hx))
  regs := fun _ _ h hmem hgs => h.congr hmem hgs

/-- The registers when a request reaches its `syscall`. -/
def Request.load (request : Request) (regs : Reg → UInt64) : Reg → UInt64
  | .rax => request.number.toUInt64
  | .rdi => request.arg0
  | .rsi => request.arg1
  | .rdx => request.arg2
  | r => regs r

/-- A request loads four registers and calls the kernel. -/
theorem follow_requestCode (layout : FastSyscallLayout) (msrs : SyscallMsrs)
    (kernels : ℕ → Kernel) (unknowns : ℕ → Unknown) (s : Cpu) (n : ℕ) (request : Request) :
    ∃ loaded : Cpu, loaded.mem = s.mem ∧ loaded.kernelGsBase = s.kernelGsBase ∧
      loaded.regs = request.load s.regs ∧
      follow (userSyscall layout msrs kernels unknowns) n s (requestCode request) =
        userSyscall layout msrs kernels unknowns (n + 4) loaded := by
  refine ⟨_, ?_, ?_, ?_, rfl⟩
  · rfl
  · rfl
  · funext r
    cases r <;> simp [Instr.exec, Op.apply, Request.load]

/-- A request: its result in `rax` and `r10`, and the registers that hold earlier results
as they were. -/
theorem follow_request {s : Cpu} (hready : FastReady layout s) (n : ℕ) (request : Request) :
    let s' := follow (userSyscall layout msrs kernels unknowns) n s (requestCode request)
    let result := encodeResult (dispatch (kernels (n + 4)) request.number.toUInt64 request.arg0
      request.arg1 request.arg2)
    s'.regs .rax = result.1 ∧ s'.regs .r10 = result.2 ∧
      (∀ r ∈ [Reg.r8, .r9, .r12], s'.regs r = s.regs r) ∧ FastReady layout s' := by
  intro s' result
  obtain ⟨loaded, hmem, hgs, hregs, hfollow⟩ := follow_requestCode layout msrs kernels
    unknowns s n request
  have hloaded : FastReady layout loaded := hready.congr hmem hgs
  -- the call itself is that of the fast path, on the registers as loaded
  obtain ⟨hcall, -, -, -, hafter, -⟩ :=
    fastSyscall_spec hloaded inUserPage msrs (kernels (n + 4)) (unknowns (n + 4))
  have hs' : s'.regs = _ := (congrArg Cpu.regs hfollow).trans hcall
  have hsaved : (syscallEntry msrs loaded).regs = Function.update
      (Function.update (request.load s.regs) .rcx loaded.rip) .r11 loaded.rflags := by
    rw [syscallEntry, hregs]
  refine ⟨?_, ?_, ?_, by rw [show s' = _ from hfollow]; exact hafter⟩
  · rw [hs', hsaved]
    rfl
  · rw [hs', hsaved]
    rfl
  · intro r hr
    rw [hs']
    simp only [List.mem_cons, List.not_mem_nil, or_false] at hr
    rcases hr with rfl | rfl | rfl <;> (rw [hsaved]; rfl)

/-- The result of the first call goes to `r8` and `r9`. -/
theorem follow_slot0Moves (sys : ℕ → Cpu → Cpu) (n : ℕ) (s : Cpu) :
    let s' := follow sys n s slot0Moves
    s'.regs .r8 = s.regs .rax ∧ s'.regs .r9 = s.regs .r10 ∧ s'.mem = s.mem ∧
      s'.kernelGsBase = s.kernelGsBase :=
  ⟨rfl, rfl, rfl, rfl⟩

/-- The result of the second call goes to `r10` and `r12`: the status is moved out of `r10`
before the value is moved in. -/
theorem follow_slot1Moves (sys : ℕ → Cpu → Cpu) (n : ℕ) (s : Cpu) :
    let s' := follow sys n s slot1Moves
    s'.regs .r10 = s.regs .rax ∧ s'.regs .r12 = s.regs .r10 ∧ s'.regs .r8 = s.regs .r8 ∧
      s'.regs .r9 = s.regs .r9 :=
  ⟨rfl, rfl, rfl, rfl⟩

/-- Both results, at the end of the straight part. -/
theorem follow_captureCode {s : Cpu} (hready : FastReady layout s) (first second : Request) :
    let s' := follow (userSyscall layout msrs kernels unknowns) 0 s (captureCode first second)
    let result0 := encodeResult (dispatch (kernels 4) first.number.toUInt64 first.arg0 first.arg1
      first.arg2)
    let result1 := encodeResult (dispatch (kernels 11) second.number.toUInt64 second.arg0
      second.arg1 second.arg2)
    (s'.regs .r8, s'.regs .r9) = result0 ∧ (s'.regs .r10, s'.regs .r12) = result1 := by
  intro s' result0 result1
  -- call, save, call, save, with the number of steps before each
  have hsplit : s' = follow (userSyscall layout msrs kernels unknowns) 12
      (follow (userSyscall layout msrs kernels unknowns) 7
        (follow (userSyscall layout msrs kernels unknowns) 5
          (follow (userSyscall layout msrs kernels unknowns) 0 s (requestCode first)) slot0Moves)
        (requestCode second)) slot1Moves := by
    simp only [s', captureCode, follow_append]
    rfl
  obtain ⟨hrax0, hr10, -, hready0⟩ := follow_request msrs kernels unknowns
    hready 0 first
  generalize follow (userSyscall layout msrs kernels unknowns) 0 s (requestCode first) = called0
    at hsplit hrax0 hr10 hready0
  obtain ⟨hr8, hr9, hmem, hgs⟩ :=
    follow_slot0Moves (userSyscall layout msrs kernels unknowns) 5 called0
  generalize follow (userSyscall layout msrs kernels unknowns) 5 called0 slot0Moves = moved0
    at hsplit hr8 hr9 hmem hgs
  -- the second call leaves alone what the first has saved
  obtain ⟨hrax1, hr10', hkept, -⟩ := follow_request msrs kernels unknowns
    (hready0.congr hmem hgs) 7 second
  generalize follow (userSyscall layout msrs kernels unknowns) 7 moved0 (requestCode second) =
    called1 at hsplit hrax1 hr10' hkept
  obtain ⟨hend10, hend12, hend8, hend9⟩ :=
    follow_slot1Moves (userSyscall layout msrs kernels unknowns) 12 called1
  rw [← hsplit] at hend10 hend12 hend8 hend9
  constructor
  · rw [hend8, hend9, hkept .r8 (by simp), hkept .r9 (by simp), hr8, hr9, hrax0, hr10]
  · rw [hend10, hend12, hrax1, hr10']

end Run

/-- The page and its code after `write_demo_code`. -/
theorem codeAt_writeDemoCode (m : Mem) {code : List UInt8} (h : code.length ≤ userCodeMaxBytes) :
    CodeAt (writeDemoCode m code) userCodeStart code :=
  readBytes_writeBytes _ _ _ (h.trans (by decide))

/-- Writing the code leaves everything outside the page alone. -/
theorem writeDemoCode_outside {m : Mem} {code : List UInt8} (h : code.length ≤ userCodeMaxBytes)
    {x : UInt64} (hx : inUserPage x = false) : writeDemoCode m code x = m x := by
  have hlen : (List.replicate 4096 (0x90 : UInt8)).length = 4096 := List.length_replicate
  have hlong : userCodeMaxBytes ≤ 4096 := by decide
  rw [writeDemoCode, writeBytes_outside, writeBytes_outside]
  · rw [hlen]
    exact hx
  · rw [← Bool.not_eq_true, inUserPage, within_iff] at hx
    rw [← Bool.not_eq_true, within_iff]
    omega

/-- The code of the demo does not touch the stub's memory. -/
theorem FastReady.writeDemoCode {layout : FastSyscallLayout} {s : Cpu} (h : FastReady layout s)
    (hpage : UserPageApart layout) {code : List UInt8} (hcode : code.length ≤ userCodeMaxBytes) :
    FastReady layout { s with mem := writeDemoCode s.mem code, rip := userCodeStart } := by
  refine ⟨h.gs, (word_congr fun x hx => writeDemoCode_outside hcode ?_).trans h.rsp⟩
  rw [← Bool.not_eq_true]
  intro hin
  have hout := hpage.cpuLocal x hin
  rw [← Bool.not_eq_true, within_iff] at hout
  rw [within_iff] at hx
  omega

/-- **The generated program records both system calls.** The code fits into the builder; put
at `USER_CODE_START` and entered there, with any register contents, it reaches `int 0x81`
after fourteen instructions with the encoded results of the two calls in `r8`, `r9` and `r10`,
`r12`, and the report of the session holds these four numbers. -/
theorem generated_code_records_calls (first second : Request) :
    ∃ builder, buildFastSyscallCode first second = .ok builder ∧
      builder.code.length ≤ userCodeMaxBytes ∧
      ∀ (layout : FastSyscallLayout) (msrs : SyscallMsrs) (kernels : ℕ → Kernel)
        (unknowns : ℕ → Unknown) (s : Cpu), UserPageApart layout → FastReady layout s →
        let result0 := encodeResult (dispatch (kernels 4) first.number.toUInt64 first.arg0
          first.arg1 first.arg2)
        let result1 := encodeResult (dispatch (kernels 11) second.number.toUInt64 second.arg0
          second.arg1 second.arg2)
        ∃ s', (∀ fuel, userRun (userSyscall layout msrs kernels unknowns) 0 (15 + fuel)
            { s with mem := writeDemoCode s.mem builder.code, rip := userCodeStart } =
              .interrupt usermodeExitInterruptVector s') ∧
          (s'.regs .r8, s'.regs .r9) = result0 ∧ (s'.regs .r10, s'.regs .r12) = result1 ∧
          ∀ (setup : InterruptSetup) (session : Session) (kind : FastSyscallDemoKind),
            session.exitExpected = true → session.pendingKind = some kind →
            (exitInterrupt setup session s').1 = .resumed ∧
            (exitInterrupt setup session s').2.lastReport =
              some ⟨kind, result0.1, result0.2, result1.1, result1.2⟩ := by
  obtain ⟨builder, hbuild, hcode⟩ := buildFastSyscallCode_ok first second
  refine ⟨builder, hbuild, builder.le_max, ?_⟩
  intro layout msrs kernels unknowns s hpage hready result0 result1
  have hstart := FastReady.writeDemoCode hready hpage builder.le_max
  have hcodeAt := codeAt_writeDemoCode s.mem builder.le_max
  have hlen : ((captureCode first second).flatMap Prod.snd ++ exitBytes).length ≤ 4096 := by
    rw [← hcode]
    exact builder.le_max.trans (by decide)
  obtain ⟨entry, hentry⟩ : ∃ entry : Cpu, entry =
    { s with mem := writeDemoCode s.mem builder.code, rip := userCodeStart } := ⟨_, rfl⟩
  have hcodeAt' : CodeAt entry.mem entry.rip
      ((captureCode first second).flatMap Prod.snd ++ exitBytes) := by
    rw [hentry, ← hcode]
    exact hcodeAt
  have hregion : ∀ x, within entry.rip
      ((captureCode first second).flatMap Prod.snd ++ exitBytes).length x = true →
      inUserPage x = true := by
    intro x hx
    rw [hentry, within_iff] at hx
    rw [inUserPage, within_iff]
    exact hx.trans_le hlen
  rw [← hentry] at hstart ⊢
  -- the straight part, for any fuel behind it
  have hrun := fun fuel => userRun_straight
    (userSyscall_transparent msrs kernels unknowns hpage)
    (captureCode first second) 0 (fuel + 1) entry exitBytes (captureCode_decodes first second)
    (hlen.trans (by decide)) hcodeAt' hregion hstart
  obtain ⟨hresult0, hresult1⟩ := follow_captureCode msrs kernels unknowns hstart
    first second
  generalize follow (userSyscall layout msrs kernels unknowns) 0 entry (captureCode first second) =
    atExit at hrun hresult0 hresult1
  have hexit : CodeAt atExit.mem atExit.rip [0xCD, usermodeExitInterruptVector] :=
    (codeAt_append.mp (hrun 0).2.1).1
  have hint : Decodes [0xCD, usermodeExitInterruptVector] (.int usermodeExitInterruptVector) :=
    ⟨by decide, fun rest => rfl⟩
  refine ⟨{ atExit with rip := atExit.rip + UInt64.ofNat 2 }, fun fuel => ?_, hresult0, hresult1,
    ?_⟩
  · have hfuel : 15 + fuel = (captureCode first second).length + (fuel + 1) := by
      rw [show (captureCode first second).length = 14 from rfl]
      omega
    rw [hfuel, (hrun fuel).1, userRun, userStep_of_codeAt hexit hint]
    rfl
  · intro setup session kind hexpected hpending
    have hregs : ∀ call0 call1 : UInt64 × UInt64, (atExit.regs .r8, atExit.regs .r9) = call0 →
        (atExit.regs .r10, atExit.regs .r12) = call1 →
        handleExitInterruptFromRegisters session (SyscallRegisters.ofRegs atExit.regs) =
          (.resumed, ⟨false, none, some ⟨kind, call0.1, call0.2, call1.1, call1.2⟩⟩) := by
      rintro _ _ rfl rfl
      simp only [handleExitInterruptFromRegisters, hexpected, hpending]
      rfl
    rw [exitInterrupt_eq, hregs _ _ hresult0 hresult1]
    exact ⟨rfl, rfl⟩

/-- The code of the success path, with the statics at 0x10000 and 0x20000: the second call
adds 40 and 2. -/
theorem generated_code_records_addition :
    let layout : FastSyscallLayout := ⟨0x10000, 0x20000, by decide, by decide, by decide⟩
    let user : Cpu := ⟨fun _ => 5, 0x4000, 0x202, 0x23, 0x1b, 0, 0, fun _ => 0⟩
    ∃ builder msrs s s', buildFastSyscallSuccessCode = .ok builder ∧
      programFastSyscallMsrs (fun selectors => decide (StarLayout selectors)) layout 0x9000
        ⟨0x08, 0x10, 0x23, 0x1b⟩ user = .ok (msrs, s) ∧
      userRun (userSyscall layout msrs (fun _ => ⟨Interrupts.Timer.initial, none⟩)
          (fun _ => ⟨fun _ => 7, 0, fun _ => 0xcc⟩)) 0 15
        { s with mem := writeDemoCode s.mem builder.code, rip := userCodeStart } =
          .interrupt usermodeExitInterruptVector s' ∧
      (s'.regs .r10, s'.regs .r12) = (42, 0) := by
  intro layout user
  obtain ⟨builder, hbuild, -, hrun⟩ := generated_code_records_calls
    ⟨syscallGetTicks.toUInt32, 0, 0, 0⟩ ⟨syscallAdd.toUInt32, 40, 2, 0⟩
  obtain ⟨msrs, s, hprogram⟩ : ∃ msrs s,
      programFastSyscallMsrs (fun selectors => decide (StarLayout selectors)) layout 0x9000
        ⟨0x08, 0x10, 0x23, 0x1b⟩ user = .ok (msrs, s) :=
    ⟨_, _, if_pos (by decide)⟩
  have hpage : UserPageApart layout := by
    constructor <;> intro x hx <;> rw [inUserPage, within_iff] at hx <;>
      rw [← Bool.not_eq_true, within_iff] <;>
      simp only [userCodeStart, layout, UInt64.reduceToNat] at hx ⊢ <;> omega
  obtain ⟨s', hreach, -, hcall1, -⟩ := hrun layout msrs (fun _ => ⟨Interrupts.Timer.initial, none⟩)
    (fun _ => ⟨fun _ => 7, 0, fun _ => 0xcc⟩) s hpage (programFastSyscallMsrs_ready hprogram)
  exact ⟨builder, msrs, s, s', hbuild, hprogram, hreach 0, hcall1⟩

end JingOS.Usermode
