import JingOS.Lib.Checked
import Mathlib.Data.Nat.Basic
import Mathlib.Data.UInt
import Mathlib.Order.Basic

/-!
# Address translation (`kernel/src/memory.rs`)

The two ways the monitor looks up an address: `translate_virtual_address` asks the `x86_64`
crate, `walk_virtual_address` reads the four levels of tables itself. Addresses are made by
`VirtAddr`, whose constructors check that they are canonical: `new` panics, `try_new` reports.

* `walkVirtualAddress_returns` — the walk returns for every word, canonical or not;
* `translateVirtualAddress_returns`, `translateVirtualAddress_panics` — the translation returns
  exactly for the canonical ones.
-/

namespace JingOS.Memory

open Checked

/-! ## Virtual addresses

`VirtAddr` and what is here of it are as the `x86_64` crate documents them. -/

/-- Bits 47 to 63 are all equal. -/
def IsCanonical (address : UInt64) : Prop :=
  address.toNat < 2 ^ 47 ∨ 2 ^ 64 - 2 ^ 47 ≤ address.toNat

instance (address : UInt64) : Decidable (IsCanonical address) := instDecidableOr

structure VirtAddr where
  value : UInt64
  canonical : IsCanonical value

namespace VirtAddr

/-- An address, if it is canonical. -/
def tryNew (address : UInt64) : Option VirtAddr :=
  if h : IsCanonical address then some ⟨address, h⟩ else none

/-- The panic of `VirtAddr::new`. -/
def panicNew : Panic := ⟨"virtual address must be sign extended in bits 48 to 64"⟩

/-- An address that has to be canonical. -/
def new (address : UInt64) : Checked VirtAddr :=
  match tryNew address with
  | some virtAddr => .ok virtAddr
  | none => .error panicNew

/-- The sign extension of the low 48 bits. -/
def truncated (address : UInt64) : ℕ :=
  if address.toNat % 2 ^ 48 < 2 ^ 47 then address.toNat % 2 ^ 48
  else address.toNat % 2 ^ 48 + (2 ^ 64 - 2 ^ 48)

/-- The upper bits are made those of bit 47. -/
def newTruncate (address : UInt64) : VirtAddr where
  value := UInt64.ofNat (truncated address)
  canonical := by
    unfold IsCanonical
    rw [UInt64.toNat_ofNat']
    unfold truncated
    split <;> omega

/-- `VirtAddr + u64`. -/
def add (a : VirtAddr) (offset : UInt64) : Checked VirtAddr := do
  let sum ← Checked.add a.value.toNat offset.toNat
  match tryNew (UInt64.ofNat sum) with
  | some virtAddr => .ok virtAddr
  | none => .error ⟨"attempt to add resulted in non-canonical virtual address"⟩

/-- The index into a table of the given level. -/
def tableIndex (a : VirtAddr) (level : ℕ) : Fin 512 :=
  ⟨a.value.toNat / 2 ^ (12 + 9 * (level - 1)) % 512, Nat.mod_lt _ (by decide)⟩

def p4Index (a : VirtAddr) : Fin 512 := a.tableIndex 4

def p3Index (a : VirtAddr) : Fin 512 := a.tableIndex 3

def p2Index (a : VirtAddr) : Fin 512 := a.tableIndex 2

def p1Index (a : VirtAddr) : Fin 512 := a.tableIndex 1

def pageOffset (a : VirtAddr) : ℕ := a.value.toNat % 4096

end VirtAddr

/-! ## Page tables -/

/-- The bits of an entry that `PageTableEntry::addr` keeps. -/
def addressMask : UInt64 := 0x000ffffffffff000

/-- The bits of an entry that `PageTableEntry::flags` keeps. -/
def flagsMask : UInt64 := 0xfff0000000000fff

/-- Where an entry points to. -/
def entryAddr (entry : UInt64) : UInt64 := entry &&& addressMask

def entryFlags (entry : UInt64) : UInt64 := entry &&& flagsMask

/-- `PageTableFlags::PRESENT`. -/
def isPresent (entry : UInt64) : Bool := entryFlags entry &&& 0x1 != 0

/-- `PageTableFlags::HUGE_PAGE`. -/
def isHuge (entry : UInt64) : Bool := entryFlags entry &&& 0x80 != 0

/-- What the processor and the bootloader provide: the frame in `CR3`, and physical memory,
which can be read at `physical_memory_offset`. `translateAddr` is the crate's
`OffsetPageTable::translate_addr`. -/
structure Paging where
  cr3 : UInt64
  memory : UInt64 → UInt64
  translateAddr : VirtAddr → VirtAddr → Option UInt64

namespace Paging

/-- The table in the frame at the given physical address. -/
def table (m : Paging) (frame : UInt64) (index : Fin 512) : UInt64 :=
  m.memory (frame + 8 * UInt64.ofNat index.val)

/-- `page_table_from_physical`: the table is read at its place in the mapping. -/
def pageTableFromPhysical (m : Paging) (physicalAddress : UInt64)
    (physicalMemoryOffset : VirtAddr) : Checked (Fin 512 → UInt64) := do
  let _ ← physicalMemoryOffset.add physicalAddress
  pure (m.table physicalAddress)

def activeLevel4Table (m : Paging) (physicalMemoryOffset : VirtAddr) :
    Checked (Fin 512 → UInt64) :=
  m.pageTableFromPhysical m.cr3 physicalMemoryOffset

end Paging

/-! ## The page walk -/

/-- The sizes of a page. -/
inductive VmPageSize where
  | size4KiB
  | size2MiB
  | size1GiB
deriving DecidableEq, Repr

def vmPageSizeName : VmPageSize → String
  | .size4KiB => "4KiB"
  | .size2MiB => "2MiB"
  | .size1GiB => "1GiB"

/-- What `vmmap` reports of an address. -/
structure VmWalkInfo where
  virtualAddress : UInt64
  canonical : Bool
  p4Index : ℕ
  p3Index : ℕ
  p2Index : ℕ
  p1Index : ℕ
  pageOffset : ℕ
  p4FlagsBits : UInt64
  p3FlagsBits : UInt64
  p2FlagsBits : UInt64
  p1FlagsBits : UInt64
  physicalAddress : Option UInt64
  pageSize : Option VmPageSize
deriving DecidableEq, Repr

/-- Before the walk: the indices are known, the levels are not. -/
def VmWalkInfo.new (virtualAddress : UInt64) (canonical : Bool) (virtualAddr : VirtAddr) :
    VmWalkInfo :=
  { virtualAddress, canonical
    p4Index := virtualAddr.p4Index, p3Index := virtualAddr.p3Index
    p2Index := virtualAddr.p2Index, p1Index := virtualAddr.p1Index
    pageOffset := virtualAddr.pageOffset
    p4FlagsBits := 0, p3FlagsBits := 0, p2FlagsBits := 0, p1FlagsBits := 0
    physicalAddress := none, pageSize := none }

/-- `entry.addr().as_u64() + page_offset`, with the offset of a page of `2 ^ bits` bytes. -/
def pageAddress (entry : UInt64) (virtualAddr : VirtAddr) (bits : ℕ) : Checked UInt64 := do
  let sum ← add (entryAddr entry).toNat (virtualAddr.value.toNat % 2 ^ bits)
  pure (UInt64.ofNat sum)

/-- The levels one by one, down to the page or to the entry that is not there. -/
def walkVirtualAddress (m : Paging) (physicalMemoryOffset virtualAddress : UInt64) :
    Checked VmWalkInfo := do
  let virtualAddr := VirtAddr.newTruncate virtualAddress
  let canonical := (VirtAddr.tryNew virtualAddress).isSome
  let info := VmWalkInfo.new virtualAddress canonical virtualAddr
  -- reported, where `translate_virtual_address` panics
  if !canonical then return info
  let physicalOffset ← VirtAddr.new physicalMemoryOffset
  let p4 ← m.activeLevel4Table physicalOffset
  let p4Entry := p4 virtualAddr.p4Index
  let info := { info with p4FlagsBits := entryFlags p4Entry }
  -- a level 4 entry has no huge pages, its bit 7 is not looked at
  if !isPresent p4Entry then return info
  let p3 ← m.pageTableFromPhysical (entryAddr p4Entry) physicalOffset
  let p3Entry := p3 virtualAddr.p3Index
  let info := { info with p3FlagsBits := entryFlags p3Entry }
  if !isPresent p3Entry then return info
  if isHuge p3Entry then
    let physical ← pageAddress p3Entry virtualAddr 30
    return { info with physicalAddress := some physical, pageSize := some .size1GiB }
  let p2 ← m.pageTableFromPhysical (entryAddr p3Entry) physicalOffset
  let p2Entry := p2 virtualAddr.p2Index
  let info := { info with p2FlagsBits := entryFlags p2Entry }
  if !isPresent p2Entry then return info
  if isHuge p2Entry then
    let physical ← pageAddress p2Entry virtualAddr 21
    return { info with physicalAddress := some physical, pageSize := some .size2MiB }
  let p1 ← m.pageTableFromPhysical (entryAddr p2Entry) physicalOffset
  let p1Entry := p1 virtualAddr.p1Index
  let info := { info with p1FlagsBits := entryFlags p1Entry }
  if !isPresent p1Entry then return info
  let physical ← pageAddress p1Entry virtualAddr 12
  return { info with physicalAddress := some physical, pageSize := some .size4KiB }

/-- Where an address goes, if it is mapped. -/
def translateVirtualAddress (m : Paging) (physicalMemoryOffset virtualAddress : UInt64) :
    Checked (Option UInt64) := do
  let physicalOffset ← VirtAddr.new physicalMemoryOffset
  -- `init_offset_page_table`
  let _ ← m.activeLevel4Table physicalOffset
  let address ← VirtAddr.new virtualAddress
  pure (m.translateAddr physicalOffset address)

/-! ## Which calls return -/

/-- The frames that hold the tables below `CR3`, each with its level. -/
inductive Paging.Reached (m : Paging) : ℕ → UInt64 → Prop where
  | root : m.Reached 4 m.cr3
  | entry {level : ℕ} {frame : UInt64} (h : m.Reached (level + 1) frame) (hlevel : 1 ≤ level)
      (index : Fin 512) (present : isPresent (m.table frame index))
      (inner : level + 1 < 4 → ¬ isHuge (m.table frame index)) :
      m.Reached level (entryAddr (m.table frame index))

/-- Page-table memory is readable: the tables lie in the mapping of physical memory. -/
structure Paging.ReadableAt (m : Paging) (physicalMemoryOffset : UInt64) : Prop where
  canonical : IsCanonical physicalMemoryOffset
  covered : ∀ {level frame}, m.Reached level frame →
    physicalMemoryOffset.toNat + frame.toNat < 2 ^ 64 ∧ IsCanonical (physicalMemoryOffset + frame)

/-- The definition agrees with the processor's: bits 48 to 63 repeat bit 47. -/
theorem isCanonical_iff (address : UInt64) :
    IsCanonical address ↔ ∀ i < 64, 47 ≤ i → address.toNat.testBit i = address.toNat.testBit 47 := by
  have hlt := address.toNat_lt
  have hbits : ∀ i, 47 ≤ i → address.toNat.testBit i = (address.toNat / 2 ^ 47).testBit (i - 47) := by
    intro i hi
    rw [Nat.testBit_div_two_pow]
    congr 1
    omega
  -- the upper 17 bits as a number: all equal means 0 or `2 ^ 17 - 1`
  have htop : address.toNat / 2 ^ 47 < 2 ^ 17 := by omega
  have hcanonical : IsCanonical address ↔
      address.toNat / 2 ^ 47 = 0 ∨ address.toNat / 2 ^ 47 = 2 ^ 17 - 1 := by
    unfold IsCanonical
    omega
  rw [hcanonical]
  constructor
  · rintro (hzero | hones) i hi hle
    · rw [hbits i hle, hbits 47 le_rfl, hzero, Nat.zero_testBit, Nat.zero_testBit]
    · rw [hbits i hle, hbits 47 le_rfl, hones, Nat.testBit_two_pow_sub_one,
        Nat.testBit_two_pow_sub_one]
      simp
      omega
  · intro hall
    have hupper : ∀ j < 17, (address.toNat / 2 ^ 47).testBit j =
        (address.toNat / 2 ^ 47).testBit 0 := by
      intro j hj
      have := hall (j + 47) (by omega) (by omega)
      rwa [hbits (j + 47) (by omega), hbits 47 le_rfl, Nat.add_sub_cancel] at this
    cases hsign : (address.toNat / 2 ^ 47).testBit 0 with
    | false =>
      left
      refine Nat.eq_of_testBit_eq fun j => ?_
      rw [Nat.zero_testBit]
      rcases Nat.lt_or_ge j 17 with hj | hj
      · rw [hupper j hj, hsign]
      · exact Nat.testBit_lt_two_pow (lt_of_lt_of_le htop (Nat.pow_le_pow_right (by decide) hj))
    | true =>
      right
      refine Nat.eq_of_testBit_eq fun j => ?_
      rw [Nat.testBit_two_pow_sub_one]
      rcases Nat.lt_or_ge j 17 with hj | hj
      · rw [hupper j hj, hsign, decide_eq_true hj]
      · rw [decide_eq_false (Nat.not_lt.mpr hj)]
        exact Nat.testBit_lt_two_pow (lt_of_lt_of_le htop (Nat.pow_le_pow_right (by decide) hj))

namespace VirtAddr

theorem tryNew_of_canonical {address : UInt64} (h : IsCanonical address) :
    tryNew address = some ⟨address, h⟩ := dif_pos h

theorem tryNew_of_not {address : UInt64} (h : ¬ IsCanonical address) : tryNew address = none :=
  dif_neg h

theorem new_of_canonical {address : UInt64} (h : IsCanonical address) :
    new address = .ok ⟨address, h⟩ := by
  rw [new, tryNew_of_canonical h]

theorem new_of_not {address : UInt64} (h : ¬ IsCanonical address) :
    new address = .error panicNew := by
  rw [new, tryNew_of_not h]

theorem add_returns {a : VirtAddr} {offset : UInt64} (hlt : a.value.toNat + offset.toNat < 2 ^ 64)
    (h : IsCanonical (a.value + offset)) :
    Returns (a.add offset) fun sum => sum.value = a.value + offset := by
  have hsum : UInt64.ofNat (a.value.toNat + offset.toNat) = a.value + offset := by
    rw [UInt64.ofNat_add, UInt64.ofNat_toNat, UInt64.ofNat_toNat]
  unfold VirtAddr.add
  rw [add_eq hlt]
  refine ⟨⟨a.value + offset, h⟩, ?_, rfl⟩
  simp only [bind, Except.bind, hsum, tryNew_of_canonical h]

end VirtAddr

section Readable

variable {m : Paging} {physicalMemoryOffset : UInt64} (h : m.ReadableAt physicalMemoryOffset)

include h

theorem pageTableFromPhysical_returns {level : ℕ} {frame : UInt64}
    (hframe : m.Reached level frame) :
    Returns (m.pageTableFromPhysical frame ⟨physicalMemoryOffset, h.canonical⟩)
      (· = m.table frame) := by
  rcases h.covered hframe with ⟨hlt, hcanonical⟩
  let offset : VirtAddr := ⟨physicalMemoryOffset, h.canonical⟩
  have hadd : Returns (offset.add frame) fun sum => sum.value = offset.value + frame :=
    VirtAddr.add_returns (a := offset) hlt hcanonical
  unfold Paging.pageTableFromPhysical
  exact hadd.bind fun _ _ => Returns.pure rfl

omit h in
/-- The sums of the walk stay far below the word size. -/
theorem pageAddress_returns (entry : UInt64) (virtualAddr : VirtAddr) {bits : ℕ}
    (hbits : bits ≤ 30) :
    Returns (pageAddress entry virtualAddr bits) fun _ => True := by
  have haddr : (entryAddr entry).toNat ≤ 0x000ffffffffff000 := by
    rw [entryAddr, UInt64.toNat_and]
    exact Nat.and_le_right
  have hoffset : virtualAddr.value.toNat % 2 ^ bits < 2 ^ 30 :=
    lt_of_lt_of_le (Nat.mod_lt _ (Nat.two_pow_pos bits)) (Nat.pow_le_pow_right (by decide) hbits)
  unfold pageAddress
  rw [add_eq (by omega)]
  exact Returns.pure trivial

/-- `vmmap` looks at the tables only after `try_new` has accepted the address. -/
theorem walkVirtualAddress_returns (virtualAddress : UInt64) :
    Returns (walkVirtualAddress m physicalMemoryOffset virtualAddress) fun _ => True := by
  unfold walkVirtualAddress
  simp only
  split
  · exact Returns.pure trivial
  rw [VirtAddr.new_of_canonical h.canonical]
  refine Returns.bind (Q := (· = ⟨physicalMemoryOffset, h.canonical⟩)) (Returns.ok rfl) ?_
  rintro _ rfl
  -- level 4
  refine (pageTableFromPhysical_returns h Paging.Reached.root).bind ?_
  rintro _ rfl
  split
  · exact Returns.pure trivial
  next hp4 =>
  -- level 3
  have hlevel3 := Paging.Reached.root.entry (by decide : 1 ≤ 3)
    (VirtAddr.newTruncate virtualAddress).p4Index (by simpa using hp4) (by omega)
  refine (pageTableFromPhysical_returns h hlevel3).bind ?_
  rintro _ rfl
  split
  · exact Returns.pure trivial
  next hp3 =>
  split
  · exact (pageAddress_returns _ _ (by decide)).bind fun _ _ => Returns.pure trivial
  next hhuge3 =>
  -- level 2
  have hlevel2 := hlevel3.entry (by decide : 1 ≤ 2)
    (VirtAddr.newTruncate virtualAddress).p3Index (by simpa using hp3) (fun _ => hhuge3)
  refine (pageTableFromPhysical_returns h hlevel2).bind ?_
  rintro _ rfl
  split
  · exact Returns.pure trivial
  next hp2 =>
  split
  · exact (pageAddress_returns _ _ (by decide)).bind fun _ _ => Returns.pure trivial
  next hhuge2 =>
  -- level 1
  have hlevel1 := hlevel2.entry (by decide : 1 ≤ 1)
    (VirtAddr.newTruncate virtualAddress).p2Index (by simpa using hp2) (fun _ => hhuge2)
  refine (pageTableFromPhysical_returns h hlevel1).bind ?_
  rintro _ rfl
  split
  · exact Returns.pure trivial
  · exact (pageAddress_returns _ _ (by decide)).bind fun _ _ => Returns.pure trivial

/-- `vm` makes the address with `VirtAddr::new`. -/
theorem translateVirtualAddress_eq (virtualAddress : UInt64) :
    translateVirtualAddress m physicalMemoryOffset virtualAddress =
      (VirtAddr.new virtualAddress).map (m.translateAddr ⟨physicalMemoryOffset, h.canonical⟩) := by
  obtain ⟨_, htable, rfl⟩ := pageTableFromPhysical_returns h Paging.Reached.root
  unfold translateVirtualAddress Paging.activeLevel4Table
  rw [VirtAddr.new_of_canonical h.canonical]
  simp only [bind, Except.bind, htable]
  cases VirtAddr.new virtualAddress <;> rfl

theorem translateVirtualAddress_returns {virtualAddress : UInt64}
    (hcanonical : IsCanonical virtualAddress) :
    Returns (translateVirtualAddress m physicalMemoryOffset virtualAddress) fun _ => True := by
  rw [translateVirtualAddress_eq h, VirtAddr.new_of_canonical hcanonical]
  exact Returns.ok trivial

theorem translateVirtualAddress_panics {virtualAddress : UInt64}
    (hcanonical : ¬ IsCanonical virtualAddress) :
    translateVirtualAddress m physicalMemoryOffset virtualAddress = .error VirtAddr.panicNew := by
  rw [translateVirtualAddress_eq h, VirtAddr.new_of_not hcanonical]
  rfl

end Readable

end JingOS.Memory
