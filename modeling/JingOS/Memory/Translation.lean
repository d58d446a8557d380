import JingOS.Memory.Paging
import Mathlib.Data.Nat.Bitwise

/-!
# The page walk and the processor's own

The processor's translation, written from the architecture: the levels are all alike, an entry
of level 3 or 2 with bit 7 set is a page itself, and the base of a page of `2 ^ n` bytes is what
bits `n` to 51 of its entry say. `walk_virtual_address` takes bits 12 to 51 for a page of any
size. On a big page bit 12 is not an address bit but the PAT bit, the others below the base are
reserved.

* `Paging.leaf`, `Paging.translate` — the architecture;
* `walk_leaf` — the walk ends at the same entry, and with the sum it makes of it;
* `walk_correct_iff` — the sum is right exactly if the entry has no PAT bit.
-/

namespace JingOS.Memory

open Checked

/-! ## The architecture -/

/-- Bits `n` to 51 of an entry: the base of a page of `2 ^ n` bytes. -/
def frameBase (entry : UInt64) (n : ℕ) : ℕ := entry.toNat / 2 ^ n % 2 ^ (52 - n) * 2 ^ n

/-- The nine bits of an address that select the entry in a table of the given level. -/
def levelIndex (address : UInt64) (level : ℕ) : Fin 512 :=
  ⟨address.toNat / 2 ^ (12 + 9 * (level - 1)) % 512, Nat.mod_lt _ (by decide)⟩

namespace Paging

/-- From a table of the given level down to the entry that maps the address, with the binary
logarithm of the size of its page; nothing if an entry on the way is not present. -/
def leafFrom (m : Paging) (address : UInt64) : ℕ → UInt64 → Option (UInt64 × ℕ)
  | 0, _ => none
  | level + 1, frame =>
    let entry := m.table frame (levelIndex address (level + 1))
    if entry.toNat.testBit 0 = false then none
    -- a table of level 1 has pages only, one of level 3 or 2 has pages where bit 7 is set
    else if level = 0 ∨ (level < 3 ∧ entry.toNat.testBit 7 = true) then
      some (entry, 12 + 9 * level)
    else leafFrom m address level (UInt64.ofNat (frameBase entry 12))

/-- The entry that maps the address. -/
def leaf (m : Paging) (address : UInt64) : Option (UInt64 × ℕ) := m.leafFrom address 4 m.cr3

/-- The physical address, and the binary logarithm of the page size. -/
def translate (m : Paging) (address : UInt64) : Option (ℕ × ℕ) :=
  (m.leaf address).map fun (entry, n) => (frameBase entry n + address.toNat % 2 ^ n, n)

/-- No reserved bit is set in a present entry of a table: bit 7 at level 4, and on a page of
1 GiB or 2 MiB the bits between the PAT bit and the base. -/
structure Legal (m : Paging) : Prop where
  level4 : ∀ {frame : UInt64} (index : Fin 512), m.Reached 4 frame →
    (m.table frame index).toNat.testBit 0 = true → (m.table frame index).toNat.testBit 7 = false
  page : ∀ {level : ℕ} {frame : UInt64} (index : Fin 512), m.Reached level frame →
    level = 3 ∨ level = 2 → (m.table frame index).toNat.testBit 0 = true →
    (m.table frame index).toNat.testBit 7 = true →
    ∀ i, 13 ≤ i → i < 12 + 9 * (level - 1) → (m.table frame index).toNat.testBit i = false

end Paging

/-- The binary logarithm of a page size. -/
def VmPageSize.bits : VmPageSize → ℕ
  | .size4KiB => 12
  | .size2MiB => 21
  | .size1GiB => 30

/-! ## The bits of an entry -/

theorem testBit_frameBase (entry : UInt64) {n : ℕ} (hn : n ≤ 52) (i : ℕ) :
    (frameBase entry n).testBit i = (decide (n ≤ i ∧ i < 52) && entry.toNat.testBit i) := by
  rw [frameBase, Nat.testBit_mul_two_pow, Nat.testBit_mod_two_pow, Nat.testBit_div_two_pow]
  by_cases hle : n ≤ i
  · have hlt : (i - n < 52 - n) ↔ i < 52 := by omega
    simp [hle, hlt]
  · simp [hle]

/-- `PageTableEntry::addr` takes an entry for one of a table or of a 4 KiB page. -/
theorem toNat_entryAddr (entry : UInt64) : (entryAddr entry).toNat = frameBase entry 12 := by
  have hmask : addressMask.toNat = (2 ^ 40 - 1) * 2 ^ 12 := by decide
  refine Nat.eq_of_testBit_eq fun i => ?_
  rw [testBit_frameBase entry (by decide), entryAddr, UInt64.toNat_and, Nat.testBit_and, hmask,
    Nat.testBit_mul_two_pow, Nat.testBit_two_pow_sub_one, Bool.and_comm]
  congr 1
  by_cases hle : 12 ≤ i
  · have hlt : (i - 12 < 40) ↔ i < 52 := by omega
    simp [hle, hlt]
  · simp [hle]

/-- A flag of an entry is one of its bits. -/
theorem and_two_pow_ne_zero {n k : ℕ} : n &&& 2 ^ k ≠ 0 ↔ n.testBit k = true := by
  rw [Nat.and_two_pow]
  cases n.testBit k with
  | false => simp
  | true => simp

theorem isPresent_eq (entry : UInt64) : isPresent entry = entry.toNat.testBit 0 := by
  have hmask : entryFlags entry &&& 0x1 = entry &&& 0x1 := by
    rw [entryFlags, UInt64.and_assoc]
    rfl
  rw [isPresent, hmask, Bool.eq_iff_iff, bne_iff_ne, ne_eq, ← UInt64.toNat_inj, UInt64.toNat_and]
  exact and_two_pow_ne_zero (k := 0)

theorem isHuge_eq (entry : UInt64) : isHuge entry = entry.toNat.testBit 7 := by
  have hmask : entryFlags entry &&& 0x80 = entry &&& 0x80 := by
    rw [entryFlags, UInt64.and_assoc]
    rfl
  rw [isHuge, hmask, Bool.eq_iff_iff, bne_iff_ne, ne_eq, ← UInt64.toNat_inj, UInt64.toNat_and]
  exact and_two_pow_ne_zero (k := 7)

/-- On a big page whose reserved bits are clear, bit 12 is all that the two bases differ in. -/
theorem frameBase_eq_iff {entry : UInt64} {n : ℕ} (hn : 13 ≤ n) (hle : n ≤ 52)
    (hreserved : ∀ i, 13 ≤ i → i < n → entry.toNat.testBit i = false) :
    frameBase entry 12 = frameBase entry n ↔ entry.toNat.testBit 12 = false := by
  constructor
  · intro heq
    have hbit := congrArg (fun base : ℕ => base.testBit 12) heq
    simp only [testBit_frameBase entry (by decide : 12 ≤ 52), testBit_frameBase entry hle] at hbit
    have hout : ¬ (n ≤ 12 ∧ 12 < 52) := by omega
    rw [decide_eq_false hout] at hbit
    simpa using hbit
  · intro hbit
    refine Nat.eq_of_testBit_eq fun i => ?_
    rw [testBit_frameBase entry (by decide), testBit_frameBase entry hle]
    by_cases hpage : n ≤ i
    · have hboth : (12 ≤ i ∧ i < 52) ↔ (n ≤ i ∧ i < 52) := by omega
      simp only [hboth]
    · -- below the base there is bit 12, and what is reserved
      have hout : ¬ (n ≤ i ∧ i < 52) := by omega
      rw [decide_eq_false hout, Bool.false_and, Bool.and_eq_false_iff]
      rcases Nat.lt_trichotomy i 12 with hlt | rfl | hgt
      · exact Or.inl (decide_eq_false (by omega))
      · exact Or.inr hbit
      · exact Or.inr (hreserved i hgt (by omega))

/-! ## Level by level -/

section Levels

variable {m : Paging} {address frame : UInt64} {level : ℕ}

theorem leafFrom_absent (h : isPresent (m.table frame (levelIndex address (level + 1))) = false) :
    m.leafFrom address (level + 1) frame = none := by
  rw [isPresent_eq] at h
  rw [Paging.leafFrom, if_pos h]

/-- At an entry that maps a page the walk ends. -/
theorem leafFrom_page (h : isPresent (m.table frame (levelIndex address (level + 1))) = true)
    (hpage : level = 0 ∨
      (level < 3 ∧ isHuge (m.table frame (levelIndex address (level + 1))) = true)) :
    m.leafFrom address (level + 1) frame =
      some (m.table frame (levelIndex address (level + 1)), 12 + 9 * level) := by
  rw [isPresent_eq] at h
  rw [isHuge_eq] at hpage
  rw [Paging.leafFrom, if_neg (by rw [h]; decide), if_pos hpage]

/-- An entry that points to a table is passed. -/
theorem leafFrom_table (h : isPresent (m.table frame (levelIndex address (level + 1))) = true)
    (hlevel : level ≠ 0)
    (hinner : level < 3 → isHuge (m.table frame (levelIndex address (level + 1))) = false) :
    m.leafFrom address (level + 1) frame =
      m.leafFrom address level (entryAddr (m.table frame (levelIndex address (level + 1)))) := by
  rw [isPresent_eq] at h
  have hnot : ¬ (level = 0 ∨
      (level < 3 ∧ (m.table frame (levelIndex address (level + 1))).toNat.testBit 7 = true)) := by
    rintro (hzero | ⟨hlt, hbit⟩)
    · exact hlevel hzero
    · rw [← isHuge_eq, hinner hlt] at hbit
      cases hbit
  rw [Paging.leafFrom, if_neg (by rw [h]; decide), if_neg hnot, ← toNat_entryAddr,
    UInt64.ofNat_toNat]

end Levels

theorem newTruncate_of_canonical {address : UInt64} (h : IsCanonical address) :
    VirtAddr.newTruncate address = ⟨address, h⟩ := by
  have hlt := address.toNat_lt
  have hsame : VirtAddr.truncated address = address.toNat := by
    unfold IsCanonical at h
    unfold VirtAddr.truncated
    split <;> omega
  have hvalue : UInt64.ofNat (VirtAddr.truncated address) = address := by
    rw [hsame, UInt64.ofNat_toNat]
  unfold VirtAddr.newTruncate
  simp only [hvalue]

/-- The frame and the offset, without a carry. -/
theorem pageAddress_eq (entry : UInt64) (virtualAddr : VirtAddr) {n : ℕ} (hn : n ≤ 30) :
    Returns (pageAddress entry virtualAddr n) fun physical =>
      physical.toNat = frameBase entry 12 + virtualAddr.value.toNat % 2 ^ n := by
  have hbase : frameBase entry 12 < 2 ^ 52 := by
    unfold frameBase
    omega
  have hoffset : virtualAddr.value.toNat % 2 ^ n < 2 ^ 30 :=
    lt_of_lt_of_le (Nat.mod_lt _ (Nat.two_pow_pos n)) (Nat.pow_le_pow_right (by decide) hn)
  unfold pageAddress
  rw [toNat_entryAddr, add_eq (by omega)]
  refine Returns.pure ?_
  exact UInt64.toNat_ofNat_of_lt' (by change _ < 2 ^ 64; omega)

/-! ## The walk -/

/-- The walk has found this entry, if any, and has added bits 12 to 51 of it to the offset. -/
structure VmWalkInfo.EndsAt (info : VmWalkInfo) (address : UInt64) (leaf : Option (UInt64 × ℕ)) :
    Prop where
  canonical : info.canonical = true
  physical : info.physicalAddress.map UInt64.toNat =
    leaf.map fun (entry, n) => frameBase entry 12 + address.toNat % 2 ^ n
  size : info.pageSize.map VmPageSize.bits = leaf.map Prod.snd

section Readable

variable {m : Paging} {physicalMemoryOffset : UInt64} (h : m.ReadableAt physicalMemoryOffset)
include h

omit h in
/-- The indices of the crate are those of the architecture. -/
theorem index_eq {address : UInt64} (hcanonical : IsCanonical address) :
    (⟨address, hcanonical⟩ : VirtAddr).p4Index = levelIndex address 4 ∧
    (⟨address, hcanonical⟩ : VirtAddr).p3Index = levelIndex address 3 ∧
    (⟨address, hcanonical⟩ : VirtAddr).p2Index = levelIndex address 2 ∧
    (⟨address, hcanonical⟩ : VirtAddr).p1Index = levelIndex address 1 := ⟨rfl, rfl, rfl, rfl⟩

/-- The walk goes through the levels as the processor does, and ends at the same entry. -/
theorem walk_leaf {address : UInt64} (hcanonical : IsCanonical address) :
    Returns (walkVirtualAddress m physicalMemoryOffset address) fun info =>
      info.EndsAt address (m.leaf address) := by
  rcases index_eq hcanonical with ⟨hindex4, hindex3, hindex2, hindex1⟩
  unfold walkVirtualAddress Paging.leaf
  simp only [VirtAddr.tryNew_of_canonical hcanonical, newTruncate_of_canonical hcanonical,
    Option.isSome_some, Bool.not_true, Bool.false_eq_true, if_false, hindex4, hindex3, hindex2,
    hindex1, Bool.not_eq_true']
  rw [VirtAddr.new_of_canonical h.canonical]
  refine Returns.bind (Q := (· = ⟨physicalMemoryOffset, h.canonical⟩)) (Returns.ok rfl) ?_
  rintro _ rfl
  -- level 4
  refine (pageTableFromPhysical_returns h Paging.Reached.root).bind ?_
  rintro _ rfl
  split
  · next hp4 =>
    rw [leafFrom_absent hp4]
    exact Returns.pure ⟨rfl, rfl, rfl⟩
  next hp4 =>
  rw [Bool.not_eq_false] at hp4
  rw [leafFrom_table hp4 (by decide) (fun hlt => absurd hlt (by decide))]
  -- level 3
  have hlevel3 := Paging.Reached.root.entry (by decide : 1 ≤ 3) _ hp4 (by omega)
  refine (pageTableFromPhysical_returns h hlevel3).bind ?_
  rintro _ rfl
  split
  · next hp3 =>
    rw [leafFrom_absent hp3]
    exact Returns.pure ⟨rfl, rfl, rfl⟩
  next hp3 =>
  rw [Bool.not_eq_false] at hp3
  split
  · next hhuge3 =>
    rw [leafFrom_page hp3 (Or.inr ⟨by decide, hhuge3⟩)]
    refine (pageAddress_eq _ _ (by decide)).bind fun physical hphysical => ?_
    exact Returns.pure ⟨rfl, congrArg some hphysical, rfl⟩
  next hhuge3 =>
  rw [leafFrom_table hp3 (by decide) (fun _ => by simpa using hhuge3)]
  -- level 2
  have hlevel2 := hlevel3.entry (by decide : 1 ≤ 2) _ hp3 (fun _ => hhuge3)
  refine (pageTableFromPhysical_returns h hlevel2).bind ?_
  rintro _ rfl
  split
  · next hp2 =>
    rw [leafFrom_absent hp2]
    exact Returns.pure ⟨rfl, rfl, rfl⟩
  next hp2 =>
  rw [Bool.not_eq_false] at hp2
  split
  · next hhuge2 =>
    rw [leafFrom_page hp2 (Or.inr ⟨by decide, hhuge2⟩)]
    refine (pageAddress_eq _ _ (by decide)).bind fun physical hphysical => ?_
    exact Returns.pure ⟨rfl, congrArg some hphysical, rfl⟩
  next hhuge2 =>
  rw [leafFrom_table hp2 (by decide) (fun _ => by simpa using hhuge2)]
  -- level 1
  have hlevel1 := hlevel2.entry (by decide : 1 ≤ 1) _ hp2 (fun _ => hhuge2)
  refine (pageTableFromPhysical_returns h hlevel1).bind ?_
  rintro _ rfl
  split
  · next hp1 =>
    rw [leafFrom_absent hp1]
    exact Returns.pure ⟨rfl, rfl, rfl⟩
  next hp1 =>
  rw [Bool.not_eq_false] at hp1
  rw [leafFrom_page hp1 (Or.inl rfl)]
  refine (pageAddress_eq _ _ (by decide)).bind fun physical hphysical => ?_
  exact Returns.pure ⟨rfl, congrArg some hphysical, rfl⟩

end Readable

/-- The walk of an address that is not canonical ends at once. -/
theorem walk_not_canonical (m : Paging) (physicalMemoryOffset : UInt64) {address : UInt64}
    (h : ¬ IsCanonical address) :
    walkVirtualAddress m physicalMemoryOffset address =
      .ok (VmWalkInfo.new address false (VirtAddr.newTruncate address)) := by
  unfold walkVirtualAddress
  simp only [VirtAddr.tryNew_of_not h, Option.isSome_none, Bool.not_false, if_true]
  rfl

/-! ## Right and wrong answers -/

/-- In legal tables the entry of a big page has its reserved bits clear. -/
theorem leafFrom_legal {m : Paging} (hlegal : m.Legal) {address entry : UInt64} {n : ℕ} (level : ℕ) :
    ∀ {frame : UInt64}, m.Reached level frame →
      m.leafFrom address level frame = some (entry, n) →
      n = 12 ∨ (13 ≤ n ∧ n ≤ 30 ∧ ∀ i, 13 ≤ i → i < n → entry.toNat.testBit i = false) := by
  induction level with
  | zero =>
    intro frame _ hleaf
    cases hleaf
  | succ level ih =>
    intro frame hreached hleaf
    rw [Paging.leafFrom] at hleaf
    split at hleaf
    · cases hleaf
    · next hpresent =>
      rw [Bool.not_eq_false] at hpresent
      split at hleaf
      · next hpage =>
        simp only [Option.some.injEq, Prod.mk.injEq] at hleaf
        rcases hleaf with ⟨rfl, rfl⟩
        rcases Nat.eq_zero_or_pos level with hzero | hpos
        · exact Or.inl (by omega)
        · rcases hpage with hzero | ⟨hlt, hhuge⟩
          · omega
          · refine Or.inr ⟨by omega, by omega, ?_⟩
            exact hlegal.page _ hreached (by omega) hpresent hhuge
      · next htable =>
        -- the entry of a table: the walk goes on below it
        rw [← toNat_entryAddr, UInt64.ofNat_toNat] at hleaf
        refine ih (hreached.entry (by omega) _ (by rw [isPresent_eq]; exact hpresent) ?_) hleaf
        intro hlt hhuge
        rw [isHuge_eq] at hhuge
        exact htable (Or.inr ⟨by omega, hhuge⟩)

/-- The answer of the walk is what the architecture says: the physical address and the size of
the page, or nothing where a level is not present; and for an address that is not canonical, that
it is none. -/
def WalkCorrect (m : Paging) (physicalMemoryOffset address : UInt64) : Prop :=
  ∃ info, walkVirtualAddress m physicalMemoryOffset address = .ok info ∧
    (IsCanonical address → info.canonical = true ∧
      info.physicalAddress.map UInt64.toNat = (m.translate address).map Prod.fst ∧
      info.pageSize.map VmPageSize.bits = (m.translate address).map Prod.snd) ∧
    (¬ IsCanonical address → info.canonical = false ∧ info.physicalAddress = none)

/-- The address is mapped by a page of 1 GiB or 2 MiB whose PAT bit is set. -/
def Paging.PatPage (m : Paging) (address : UInt64) : Prop :=
  ∃ entry n, m.leaf address = some (entry, n) ∧ 12 < n ∧ entry.toNat.testBit 12 = true

/-- Bits 12 to 51 of the entry are its base unless it is that of a big page with a PAT bit. -/
theorem frameBase_leaf {m : Paging} (hlegal : m.Legal) {address entry : UInt64} {n : ℕ}
    (hleaf : m.leaf address = some (entry, n)) :
    frameBase entry 12 = frameBase entry n ↔ ¬ m.PatPage address := by
  have hpat : m.PatPage address ↔ 12 < n ∧ entry.toNat.testBit 12 = true := by
    unfold Paging.PatPage
    rw [hleaf]
    constructor
    · rintro ⟨_, _, ⟨⟩, hrest⟩
      exact hrest
    · intro hrest
      exact ⟨entry, n, rfl, hrest⟩
  rw [hpat]
  rcases leafFrom_legal hlegal 4 Paging.Reached.root hleaf with rfl | ⟨hlow, hhigh, hreserved⟩
  · exact iff_of_true rfl (fun hbig => absurd hbig.1 (by decide))
  · rw [frameBase_eq_iff hlow (by omega) hreserved, not_and, Bool.not_eq_true]
    exact ⟨fun hbit _ => hbit, fun hbit => hbit hlow⟩

/-- **Page walk.** In legal tables that are mapped, the walk says what the architecture says
exactly of the addresses that are not mapped by a big page with the PAT bit. -/
theorem walk_correct_iff {m : Paging} {physicalMemoryOffset : UInt64}
    (h : m.ReadableAt physicalMemoryOffset) (hlegal : m.Legal) (address : UInt64) :
    WalkCorrect m physicalMemoryOffset address ↔ ¬ (IsCanonical address ∧ m.PatPage address) := by
  by_cases hcanonical : IsCanonical address
  · rcases walk_leaf h hcanonical with ⟨info, hwalk, hends⟩
    -- the sizes agree in any case, and the flags do: it is the address that decides
    have hsize : (m.translate address).map Prod.snd = (m.leaf address).map Prod.snd := by
      unfold Paging.translate
      rw [Option.map_map]
      rfl
    have hcorrect : WalkCorrect m physicalMemoryOffset address ↔
        info.physicalAddress.map UInt64.toNat = (m.translate address).map Prod.fst := by
      constructor
      · rintro ⟨info', hwalk', hanswer, -⟩
        rw [hwalk] at hwalk'
        obtain rfl := Except.ok.inj hwalk'
        exact (hanswer hcanonical).2.1
      · intro hphysical
        refine ⟨info, hwalk, fun _ => ⟨hends.canonical, hphysical, ?_⟩, fun hnot => ?_⟩
        · rw [hends.size, hsize]
        · exact absurd hcanonical hnot
    rw [hcorrect, hends.physical, Paging.translate, Option.map_map]
    cases hleaf : m.leaf address with
    -- no leaf: nothing is mapped, and nothing is wrong
    | none =>
      refine iff_of_true rfl ?_
      rintro ⟨-, entry, n, hsome, -⟩
      rw [hleaf] at hsome
      cases hsome
    | some found =>
      -- a leaf: its base is the processor's, except for the bit of a large page
      rcases found with ⟨entry, n⟩
      rw [not_and, ← frameBase_leaf hlegal hleaf]
      simp [hcanonical]
  -- an address that is not canonical is refused, as it should be
  · refine iff_of_true ⟨_, walk_not_canonical m physicalMemoryOffset hcanonical, ?_, ?_⟩ ?_
    · exact fun hyes => absurd hyes hcanonical
    · exact fun _ => ⟨rfl, rfl⟩
    · exact fun hboth => hcanonical hboth.1

/-! ## A table with one page of 1 GiB -/

/-- Level 4 at `0x1000`, level 3 at `0x2000`, and the given entry at the front of it. -/
def gigabytePage (entry : UInt64) : Paging where
  cr3 := 0x1000
  memory := fun address => if address = 0x1000 then 0x2003 else if address = 0x2000 then entry else 0
  translateAddr := fun _ _ => none

/-- Present, writable, a page of 1 GiB at `0x40000000`. -/
def plainEntry : UInt64 := 0x40000083

/-- The same page with its PAT bit set. -/
def patEntry : UInt64 := 0x40001083

section GigabytePage

variable {entry : UInt64}

theorem toNat_place {base : UInt64} (h : base.toNat ≤ 0x2000) (index : Fin 512) :
    (base + 8 * UInt64.ofNat index.val).toNat = base.toNat + 8 * index.val := by
  have hlt := index.isLt
  have hindex : (UInt64.ofNat index.val).toNat = index.val :=
    UInt64.toNat_ofNat_of_lt' (by change _ < 2 ^ 64; omega)
  rw [UInt64.toNat_add, UInt64.toNat_mul, hindex]
  change (base.toNat + 8 * index.val % 2 ^ 64) % 2 ^ 64 = _
  omega

/-- Either table has its first entry only. -/
theorem gigabytePage_table (index : Fin 512) :
    (gigabytePage entry).table 0x1000 index = (if index.val = 0 then 0x2003 else 0) ∧
      (gigabytePage entry).table 0x2000 index = (if index.val = 0 then entry else 0) := by
  have hlt := index.isLt
  have hfirst : (0x1000 + 8 * UInt64.ofNat index.val).toNat = 0x1000 + 8 * index.val :=
    toNat_place (by decide) index
  have hsecond : (0x2000 + 8 * UInt64.ofNat index.val).toNat = 0x2000 + 8 * index.val :=
    toNat_place (by decide) index
  have hone : (0x1000 : UInt64).toNat = 0x1000 := rfl
  have htwo : (0x2000 : UInt64).toNat = 0x2000 := rfl
  unfold Paging.table gigabytePage
  simp only [← UInt64.toNat_inj, hfirst, hsecond, hone, htwo]
  by_cases hzero : index.val = 0
  · simp [hzero]
  · have hne : ¬ (0x1000 + 8 * index.val = 0x2000) := by omega
    have hne' : ¬ (0x2000 + 8 * index.val = 0x1000) := by omega
    simp [hzero, hne, hne']

variable (hhuge : isHuge entry = true)
include hhuge

theorem gigabytePage_reached {level : ℕ} {frame : UInt64}
    (h : (gigabytePage entry).Reached level frame) :
    (level = 4 ∧ frame = 0x1000) ∨ (level = 3 ∧ frame = 0x2000) := by
  induction h with
  | root => exact Or.inl ⟨rfl, rfl⟩
  | @entry level frame _ hlevel index present inner ih =>
    rcases ih with ⟨hfour, rfl⟩ | ⟨hthree, rfl⟩
    · rw [(gigabytePage_table index).1] at present ⊢
      split at present
      · next hzero => exact Or.inr ⟨by omega, by rw [if_pos hzero]; decide⟩
      · exact absurd present (by decide)
    · -- the one entry of level 3 is a page
      rw [(gigabytePage_table index).2] at present inner
      split at present
      · next hzero =>
        rw [if_pos hzero] at inner
        exact absurd hhuge (inner (by omega))
      · exact absurd present (by decide)

theorem gigabytePage_readable : (gigabytePage entry).ReadableAt 0 where
  canonical := by decide
  covered := by
    intro level frame hreached
    rcases gigabytePage_reached hhuge hreached with ⟨-, rfl⟩ | ⟨-, rfl⟩
    · decide
    · decide

theorem gigabytePage_legal
    (hreserved : ∀ i, 13 ≤ i → i < 30 → entry.toNat.testBit i = false) :
    (gigabytePage entry).Legal where
  level4 := by
    intro frame index hreached hbit
    rcases gigabytePage_reached hhuge hreached with ⟨-, rfl⟩ | ⟨hthree, -⟩
    · rw [(gigabytePage_table index).1]
      split
      · decide
      · decide
    · omega
  page := by
    intro level frame index hreached hlevel hbit _ i hlow hhigh
    rcases gigabytePage_reached hhuge hreached with ⟨hfour, -⟩ | ⟨hthree, rfl⟩
    · omega
    · rw [(gigabytePage_table index).2]
      split
      · exact hreserved i hlow (by omega)
      · exact Nat.zero_testBit i

end GigabytePage

theorem reserved_clear : ∀ i < 30, 13 ≤ i →
    plainEntry.toNat.testBit i = false ∧ patEntry.toNat.testBit i = false := by
  decide

theorem walk_correct_plain : WalkCorrect (gigabytePage plainEntry) 0 0x1234 := by
  have hread : (gigabytePage plainEntry).ReadableAt 0 :=
    gigabytePage_readable (by decide)
  have hlegal : (gigabytePage plainEntry).Legal :=
    gigabytePage_legal (by decide) fun i hlow hhigh => (reserved_clear i hhigh hlow).1
  rw [walk_correct_iff hread hlegal]
  rintro ⟨-, entry, n, hleaf, -, hbit⟩
  have hfound : (gigabytePage plainEntry).leaf 0x1234 = some (plainEntry, 30) := by decide
  rw [hfound] at hleaf
  rcases hleaf with ⟨⟩
  exact absurd hbit (by decide)

/-- The first byte of a page with the PAT bit: the walk says `0x40001000`, the processor
`0x40000000`. -/
theorem pat_bit_added : (gigabytePage patEntry).ReadableAt 0 ∧ (gigabytePage patEntry).Legal ∧
    (walkVirtualAddress (gigabytePage patEntry) 0 0).map (·.physicalAddress) =
      .ok (some 0x40001000) ∧
    (gigabytePage patEntry).translate 0 = some (0x40000000, 30) ∧
    ¬ WalkCorrect (gigabytePage patEntry) 0 0 := by
  have hwalk : (walkVirtualAddress (gigabytePage patEntry) 0 0).map (·.physicalAddress) =
      .ok (some 0x40001000) := by decide
  have htranslate : (gigabytePage patEntry).translate 0 = some (0x40000000, 30) := by decide
  refine ⟨gigabytePage_readable (by decide),
    gigabytePage_legal (by decide) fun i hlow hhigh => (reserved_clear i hhigh hlow).2,
    hwalk, htranslate, ?_⟩
  rintro ⟨info, hinfo, hanswer, -⟩
  have hphysical := (hanswer (by decide)).2.1
  rw [hinfo] at hwalk
  have hvalue : info.physicalAddress = some 0x40001000 := Except.ok.inj hwalk
  rw [hvalue, htranslate] at hphysical
  exact absurd hphysical (by decide)

end JingOS.Memory
