import Mathlib.Data.UInt

/-!
# Byte memory and little-endian words

A memory is a function from 64-bit addresses to bytes; addresses wrap around, so that no
access needs a side condition on where it lies. Regions are given by a start and a length,
and `x` lies in one when its offset from the start is below the length.

* `leBytes`, `leNat` — the little-endian digits of a number and back;
* `writeBytes`, `readBytes` — strings of bytes;
* `setWord`, `word`, `words` — 64-bit words, alone and in a row;
* `pushWords` — words pushed on a stack that grows downwards.
-/

namespace ByteMem

/-! ## Little-endian numbers -/

/-- The lowest `n` bytes of a number, least significant first. -/
def leBytes : ℕ → ℕ → List UInt8
  | 0, _ => []
  | n + 1, v => UInt8.ofNat v :: leBytes n (v / 256)

/-- The number a list of bytes stands for, least significant first. -/
def leNat : List UInt8 → ℕ
  | [] => 0
  | b :: bs => b.toNat + 256 * leNat bs

@[simp] theorem length_leBytes (n v : ℕ) : (leBytes n v).length = n := by
  induction n generalizing v with
  | zero => rfl
  | succ n ih => simp [leBytes, ih]

theorem leNat_leBytes (n v : ℕ) : leNat (leBytes n v) = v % 256 ^ n := by
  induction n generalizing v with
  | zero => simp [leBytes, leNat, Nat.mod_one]
  | succ n ih =>
    have hbyte : (UInt8.ofNat v).toNat = v % 256 := by simp
    rw [leBytes, leNat, ih, hbyte, Nat.pow_succ', Nat.mod_mul]

theorem leNat_leBytes_of_lt {n v : ℕ} (h : v < 256 ^ n) : leNat (leBytes n v) = v := by
  rw [leNat_leBytes, Nat.mod_eq_of_lt h]

/-! ## Bytes in memory -/

/-- A memory of bytes. -/
@[reducible] def Mem : Type := UInt64 → UInt8

/-- The byte at `x` lies in the `n` bytes from `a` on. -/
def within (a : UInt64) (n : ℕ) (x : UInt64) : Bool := (x - a).toNat < n

theorem within_iff {a x : UInt64} {n : ℕ} :
    within a n x = true ↔ (2 ^ 64 - a.toNat + x.toNat) % 2 ^ 64 < n := by
  simp [within, UInt64.toNat_sub]

/-- Outside of a region is outside of its parts. -/
theorem outside_of_within {a b x : UInt64} {n k : ℕ}
    (hpart : within a n x = true → within b k x = true) (h : within b k x = false) :
    within a n x = false := by
  rw [← Bool.not_eq_true] at h ⊢
  exact mt hpart h

/-- The bytes from an address on, around the end of the address space. -/
def readBytes (m : Mem) (a : UInt64) : ℕ → List UInt8
  | 0 => []
  | n + 1 => m a :: readBytes m (a + 1) n

/-- Bytes are written from an address on; all other ones stay. -/
def writeBytes (m : Mem) (a : UInt64) (bs : List UInt8) : Mem :=
  fun x => bs[(x - a).toNat]?.getD (m x)

@[simp] theorem length_readBytes (m : Mem) (a : UInt64) (n : ℕ) :
    (readBytes m a n).length = n := by
  induction n generalizing a with
  | zero => rfl
  | succ n ih => simp [readBytes, ih]

/-- A read in two parts. -/
theorem readBytes_append (m : Mem) (a : UInt64) (n k : ℕ) :
    readBytes m a (n + k) = readBytes m a n ++ readBytes m (a + UInt64.ofNat n) k := by
  induction n generalizing a with
  | zero => simp [readBytes]
  | succ n ih =>
    rw [Nat.succ_add, readBytes, readBytes, ih, List.cons_append]
    congr 3
    rw [UInt64.ofNat_add, UInt64.ofNat_one]
    grind

/-- Reading depends on the bytes of the region only. -/
theorem readBytes_congr {m m' : Mem} {a : UInt64} {n : ℕ} (hn : n ≤ 2 ^ 64)
    (h : ∀ x, within a n x = true → m x = m' x) : readBytes m a n = readBytes m' a n := by
  induction n generalizing a with
  | zero => rfl
  | succ n ih =>
    rw [readBytes, readBytes, h a (by simp [within]), ih (by omega)]
    intro x hx
    refine h x ?_
    rw [within_iff] at hx ⊢
    have := a.toNat_lt
    have := x.toNat_lt
    rw [UInt64.toNat_add, UInt64.toNat_one] at hx
    omega

/-- A write changes nothing outside its region. -/
theorem writeBytes_outside {m : Mem} {a x : UInt64} {bs : List UInt8}
    (h : within a bs.length x = false) : writeBytes m a bs x = m x := by
  have hge : bs.length ≤ (x - a).toNat := by simpa [within] using h
  simp [writeBytes, List.getElem?_eq_none hge]

theorem writeBytes_inside {m : Mem} {a x : UInt64} {bs : List UInt8}
    (h : (x - a).toNat < bs.length) : writeBytes m a bs x = bs[(x - a).toNat] := by
  simp [writeBytes, List.getElem?_eq_getElem h]

/-- What was written is read back. -/
theorem readBytes_writeBytes (m : Mem) (a : UInt64) (bs : List UInt8) (h : bs.length ≤ 2 ^ 64) :
    readBytes (writeBytes m a bs) a bs.length = bs := by
  have hgen : ∀ (k : ℕ) (rest : List UInt8), bs.drop k = rest →
      readBytes (writeBytes m a bs) (a + UInt64.ofNat k) rest.length = rest := by
    intro k rest
    induction rest generalizing k with
    | nil => intro _; rfl
    | cons b rest ih =>
      intro hdrop
      have hk : k < bs.length := by
        by_contra hge
        rw [List.drop_eq_nil_of_le (by omega)] at hdrop
        simp at hdrop
      rw [List.drop_eq_getElem_cons hk, List.cons.injEq] at hdrop
      have hoff : (a + UInt64.ofNat k - a).toNat = k := by
        have := a.toNat_lt
        rw [UInt64.toNat_sub, UInt64.toNat_add, UInt64.toNat_ofNat']
        omega
      rw [List.length_cons, readBytes]
      congr 1
      · rw [writeBytes_inside (by omega)]
        simp only [hoff]
        exact hdrop.1
      · have hnext := ih (k + 1) hdrop.2
        rwa [UInt64.ofNat_add, UInt64.ofNat_one, ← UInt64.add_assoc] at hnext
  have hzero := hgen 0 bs rfl
  simpa using hzero

/-! ## Words in memory -/

theorem toNat_add_eight (a : UInt64) : (a + 8).toNat = (a.toNat + 8) % 2 ^ 64 := by
  rw [UInt64.toNat_add]
  rfl

/-- The second of two words. -/
theorem within_add_eight {a x : UInt64} (h : within (a + 8) 8 x = true) : within a 16 x = true := by
  have ha := a.toNat_lt
  have hx := x.toNat_lt
  rw [within_iff, toNat_add_eight] at h
  rw [within_iff]
  omega

/-- The first of two words has no byte in common with the second. -/
theorem outside_add_eight {a x : UInt64} (h : within a 8 x = true) :
    within (a + 8) 8 x = false := by
  have ha := a.toNat_lt
  have hx := x.toNat_lt
  rw [within_iff] at h
  rw [← Bool.not_eq_true, within_iff, toNat_add_eight]
  omega

theorem toNat_sub_eight (a : UInt64) : (a - 8).toNat = (2 ^ 64 - 8 + a.toNat) % 2 ^ 64 := by
  rw [UInt64.toNat_sub]
  rfl

/-- The 64-bit word at an address. -/
def word (m : Mem) (a : UInt64) : UInt64 := UInt64.ofNat (leNat (readBytes m a 8))

/-- A word is written, its lowest byte first. -/
def setWord (m : Mem) (a v : UInt64) : Mem := writeBytes m a (leBytes 8 v.toNat)

/-- The `n` words from `a` on. -/
def words (m : Mem) (a : UInt64) : ℕ → List UInt64
  | 0 => []
  | n + 1 => word m a :: words m (a + 8) n

/-- Write words in a row. -/
def setWords (m : Mem) (a : UInt64) : List UInt64 → Mem
  | [] => m
  | w :: ws => setWord (setWords m (a + 8) ws) a w

/-- Push words below `sp`, the first one at the highest address. -/
def pushWords (m : Mem) (sp : UInt64) : List UInt64 → Mem
  | [] => m
  | v :: vs => pushWords (setWord m (sp - 8) v) (sp - 8) vs

theorem setWord_outside {m : Mem} {a v x : UInt64} (h : within a 8 x = false) :
    setWord m a v x = m x :=
  writeBytes_outside (by simpa using h)

@[simp] theorem word_setWord (m : Mem) (a v : UInt64) : word (setWord m a v) a = v := by
  have hread := readBytes_writeBytes m a (leBytes 8 v.toNat) (by simp)
  rw [length_leBytes] at hread
  rw [word, setWord, hread, leNat_leBytes_of_lt (by simpa using v.toNat_lt)]
  simp

theorem word_congr {m m' : Mem} {a : UInt64} (h : ∀ x, within a 8 x = true → m x = m' x) :
    word m a = word m' a := by
  rw [word, word, readBytes_congr (by decide) h]

@[simp] theorem length_words (m : Mem) (a : UInt64) (n : ℕ) : (words m a n).length = n := by
  induction n generalizing a with
  | zero => rfl
  | succ n ih => simp [words, ih]

/-- Words in two parts. -/
theorem words_append (m : Mem) (a : UInt64) (n k : ℕ) :
    words m a (n + k) = words m a n ++ words m (a + UInt64.ofNat (8 * n)) k := by
  induction n generalizing a with
  | zero => simp [words]
  | succ n ih =>
    rw [Nat.succ_add, words, words, ih, List.cons_append]
    congr 3
    rw [Nat.mul_succ, UInt64.ofNat_add]
    grind

/-- Words are determined by their bytes. -/
theorem words_congr {m m' : Mem} {a : UInt64} {n : ℕ} (hn : 8 * n ≤ 2 ^ 64)
    (h : ∀ x, within a (8 * n) x = true → m x = m' x) : words m a n = words m' a n := by
  induction n generalizing a with
  | zero => rfl
  | succ n ih =>
    have hfirst : word m a = word m' a := by
      refine word_congr fun x hx => h x ?_
      rw [within_iff] at hx ⊢
      omega
    rw [words, words, hfirst, ih (by omega)]
    intro x hx
    refine h x ?_
    rw [within_iff] at hx ⊢
    have := a.toNat_lt
    have := x.toNat_lt
    rw [toNat_add_eight] at hx
    omega

/-- Writing words changes nothing outside their region. -/
theorem setWords_outside {m : Mem} {ws : List UInt64} {a x : UInt64} (hn : 8 * ws.length ≤ 2 ^ 64)
    (h : within a (8 * ws.length) x = false) : setWords m a ws x = m x := by
  induction ws generalizing a with
  | nil => rfl
  | cons w ws ih =>
    rw [← Bool.not_eq_true, within_iff, List.length_cons] at h
    rw [List.length_cons] at hn
    have := a.toNat_lt
    have := x.toNat_lt
    rw [setWords, setWord_outside, ih (by omega)]
    · rw [← Bool.not_eq_true, within_iff, toNat_add_eight]
      omega
    · rw [← Bool.not_eq_true, within_iff]
      omega

/-- Words written in a row are read back in a row. -/
theorem words_setWords (m : Mem) (ws : List UInt64) (a : UInt64) (hn : 8 * ws.length ≤ 2 ^ 64) :
    words (setWords m a ws) a ws.length = ws := by
  induction ws generalizing a with
  | nil => rfl
  | cons w ws ih =>
    rw [List.length_cons] at hn ⊢
    rw [setWords, words, word_setWord]
    congr 1
    refine Eq.trans (words_congr (by omega) fun x hx => setWord_outside ?_)
      (ih (a + 8) (by omega))
    have := a.toNat_lt
    have := x.toNat_lt
    rw [within_iff, toNat_add_eight] at hx
    rw [← Bool.not_eq_true, within_iff]
    omega

/-! ## Stacks -/

theorem and_not_add_and (x m : BitVec 64) : (x &&& ~~~m) + (x &&& m) = x := by
  rw [BitVec.add_eq_or_of_and_eq_zero]
  · ext i hi
    simp only [BitVec.getElem_or, BitVec.getElem_and, BitVec.getElem_not]
    cases x[i] <;> cases m[i] <;> rfl
  · ext i hi
    simp only [BitVec.getElem_and, BitVec.getElem_not]
    cases x[i] <;> cases m[i] <;> simp

/-- Rounding an address down to a multiple of 16. -/
theorem toNat_and_not_fifteen (x : UInt64) : (x &&& ~~~0xf).toNat = x.toNat - x.toNat % 16 := by
  have hlow : (x &&& 0xf).toNat = x.toNat % 16 := by
    rw [UInt64.toNat_and]
    exact Nat.and_two_pow_sub_one_eq_mod x.toNat 4
  have hsum : (x &&& ~~~0xf) + (x &&& 0xf) = x := by
    apply UInt64.toBitVec_inj.mp
    exact and_not_add_and _ _
  have hnat := congrArg UInt64.toNat hsum
  rw [UInt64.toNat_add, hlow] at hnat
  have hle : (x &&& ~~~0xf).toNat ≤ x.toNat := by
    rw [UInt64.toNat_and]
    exact Nat.and_le_left
  have := x.toNat_lt
  omega

/-- Pushing changes nothing outside the part of the stack that is pushed on. -/
theorem pushWords_outside {m : Mem} {vs : List UInt64} {sp x : UInt64}
    (hn : 8 * vs.length ≤ 2 ^ 64)
    (h : within (sp - UInt64.ofNat (8 * vs.length)) (8 * vs.length) x = false) :
    pushWords m sp vs x = m x := by
  induction vs generalizing m sp with
  | nil => rfl
  | cons v vs ih =>
    rw [← Bool.not_eq_true, within_iff, List.length_cons, UInt64.toNat_sub,
      UInt64.toNat_ofNat'] at h
    rw [List.length_cons] at hn
    have := sp.toNat_lt
    have := x.toNat_lt
    rw [pushWords, ih (by omega), setWord_outside]
    · rw [← Bool.not_eq_true, within_iff, toNat_sub_eight]
      omega
    · rw [← Bool.not_eq_true, within_iff, UInt64.toNat_sub, toNat_sub_eight, UInt64.toNat_ofNat']
      omega

/-- The stack after a push, read upwards from the new stack pointer. -/
theorem words_push (m : Mem) (sp v : UInt64) {k : ℕ} (hk : 8 * (k + 1) ≤ 2 ^ 64) :
    words (setWord m (sp - 8) v) (sp - 8) (k + 1) = v :: words m sp k := by
  have hsp : sp - 8 + 8 = sp := by grind
  rw [words, word_setWord, hsp]
  congr 1
  refine words_congr (by omega) fun x hx => setWord_outside ?_
  have := sp.toNat_lt
  have := x.toNat_lt
  rw [within_iff] at hx
  rw [← Bool.not_eq_true, within_iff, toNat_sub_eight]
  omega

/-- The stack after pushing words: the last one pushed comes first. -/
theorem words_pushWords (m : Mem) (vs : List UInt64) (sp : UInt64) {k : ℕ}
    (hk : 8 * (k + vs.length) ≤ 2 ^ 64) :
    words (pushWords m sp vs) (sp - UInt64.ofNat (8 * vs.length)) (vs.length + k) =
      vs.reverse ++ words m sp k := by
  induction vs generalizing m sp k with
  | nil => simp [pushWords]
  | cons v vs ih =>
    rw [List.length_cons] at hk ⊢
    have hsp : sp - UInt64.ofNat (8 * (vs.length + 1)) = sp - 8 - UInt64.ofNat (8 * vs.length) := by
      rw [Nat.mul_succ, UInt64.ofNat_add]
      grind
    rw [pushWords, hsp, Nat.add_right_comm, Nat.add_assoc, ih _ _ (by omega), words_push _ _ _ (by omega)]
    simp

end ByteMem
