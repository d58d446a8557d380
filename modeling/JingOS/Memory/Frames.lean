import JingOS.Lib.Checked
import JingOS.Memory.Map
import Mathlib.Data.Finset.Card
import Mathlib.Data.Finset.Range
import Mathlib.Data.List.Nodup
import Mathlib.Data.List.Pairwise

/-!
# The frame allocator (`kernel/src/memory.rs`)

`BootInfoFrameAllocator` hands out the frames of the usable regions one after the other. It
steps through each region from its raw start, and takes the frame that contains each address it
comes to.

* `SoundOn` — no frame is handed out twice, and each lies in one usable region;
* `allocated_take`, `allocated_eq` — what any number of calls hands out;
* `sound_iff_aligned` — the allocator is sound exactly on page-aligned maps.
-/

namespace JingOS.Memory

open Checked

/-- `MIN_ALLOCATABLE_PHYS_ADDR`. -/
def minAllocatablePhysAddr : UInt64 := 0x100000

/-- `Size4KiB::SIZE`. -/
def frameSize : ℕ := 4096

/-- `PhysFrame`, by the address of its first byte. -/
structure PhysFrame where
  start : UInt64
deriving DecidableEq, Repr

/-- `PhysAddr::new`, as the `x86_64` crate documents it. -/
def physAddrNew (address : UInt64) : Checked UInt64 :=
  if address.toNat < 2 ^ 52 then .ok address
  else .error ⟨"physical addresses must not have any bits in the range 52 to 64 set"⟩

/-- `PhysFrame::containing_address` of that crate, which rounds down. -/
def PhysFrame.containingAddress (address : UInt64) : PhysFrame :=
  ⟨UInt64.ofNat (address.toNat / frameSize * frameSize)⟩

/-- `region.start.max(MIN_ALLOCATABLE_PHYS_ADDR)`. -/
def MemoryRegion.firstAddress (region : MemoryRegion) : UInt64 :=
  max region.start minAllocatablePhysAddr

/-- `(start..region.end).step_by(4096)`, or nothing for a range that is empty. -/
def MemoryRegion.addresses (region : MemoryRegion) : List UInt64 :=
  if region.firstAddress ≥ region.«end» then []
  else
    let bytes := region.«end».toNat - region.firstAddress.toNat
    (List.range ((bytes + (frameSize - 1)) / frameSize)).map fun step =>
      UInt64.ofNat (region.firstAddress.toNat + step * frameSize)

/-- The map, and the number of the next frame. -/
structure BootInfoFrameAllocator where
  memoryRegions : List MemoryRegion
  next : ℕ
deriving DecidableEq, Repr

namespace BootInfoFrameAllocator

def init (memoryRegions : List MemoryRegion) : BootInfoFrameAllocator := { memoryRegions, next := 0 }

def allocatedFrames (a : BootInfoFrameAllocator) : ℕ := a.next

/-- The addresses of `usable_frames`, before they become frames. -/
def frameAddresses (a : BootInfoFrameAllocator) : List UInt64 :=
  (a.memoryRegions.filter (·.kind = .usable)).flatMap MemoryRegion.addresses

/-- What `usable_frames` makes of an address. -/
def frameAt (address : UInt64) : Checked PhysFrame := do
  let address ← physAddrNew address
  pure (PhysFrame.containingAddress address)

/-- `remaining_usable_frames_estimate`; `skip` makes the frames that it passes over, too. -/
def remainingUsableFramesEstimate (a : BootInfoFrameAllocator) : Checked ℕ := do
  let frames ← a.frameAddresses.mapM frameAt
  pure (frames.drop a.next).length

/-- `allocate_frame`: `nth` makes the frames on its way and stops at the one it returns. -/
def allocateFrame (a : BootInfoFrameAllocator) :
    Checked (Option PhysFrame × BootInfoFrameAllocator) := do
  let frames ← (a.frameAddresses.take (a.next + 1)).mapM frameAt
  let next ← add a.next 1
  pure (frames[a.next]?, { a with next })

/-- The frames that `n` calls of `allocate_frame` return; a panic ends the calls. -/
def allocated (a : BootInfoFrameAllocator) : ℕ → List PhysFrame
  | 0 => []
  | n + 1 =>
    match a.allocateFrame with
    | .error _ => []
    | .ok (frame, a) => frame.toList ++ allocated a n

end BootInfoFrameAllocator

/-! ## What is expected of it -/

/-- The region has the byte at the address. -/
def MemoryRegion.HasByte (region : MemoryRegion) (address : ℕ) : Prop :=
  region.start.toNat ≤ address ∧ address < region.«end».toNat

/-- The 4096 bytes of the frame lie in the region. -/
def PhysFrame.Inside (frame : PhysFrame) (region : MemoryRegion) : Prop :=
  region.start.toNat ≤ frame.start.toNat ∧ frame.start.toNat + frameSize ≤ region.«end».toNat

/-- A frame that may be handed out. -/
def PhysFrame.Allocatable (frame : PhysFrame) (regions : List MemoryRegion) : Prop :=
  minAllocatablePhysAddr ≤ frame.start ∧
    ∃ region ∈ regions, region.kind = .usable ∧ frame.Inside region

/-- Any number of calls return frames of usable memory, and no frame twice. -/
def SoundOn (regions : List MemoryRegion) : Prop :=
  ∀ n, let frames := (BootInfoFrameAllocator.init regions).allocated n
    (∀ frame ∈ frames, frame.Allocatable regions) ∧ frames.Nodup

/-- A memory map as the bootloader hands it over; alignment is not part of it. -/
structure WellFormedMap (regions : List MemoryRegion) : Prop where
  ordered : ∀ region ∈ regions, region.start ≤ region.«end»
  disjoint : regions.Pairwise fun region other =>
    ∀ address, ¬ (region.HasByte address ∧ other.HasByte address)
  below : ∀ region ∈ regions, region.«end».toNat ≤ 2 ^ 52

/-- The part of a region that is used begins and ends at a frame. -/
def MemoryRegion.Aligned (region : MemoryRegion) : Prop :=
  region.firstAddress < region.«end» →
    region.firstAddress.toNat % frameSize = 0 ∧ region.«end».toNat % frameSize = 0

/-- Every usable region that reaches above the first MiB is aligned there. -/
def AlignedMap (regions : List MemoryRegion) : Prop :=
  ∀ region ∈ regions, region.kind = .usable → region.Aligned

/-! ## The addresses of a region -/

namespace MemoryRegion

variable {region : MemoryRegion}

theorem toNat_firstAddress (region : MemoryRegion) :
    region.firstAddress.toNat = max region.start.toNat minAllocatablePhysAddr.toNat := by
  change (if region.start ≤ minAllocatablePhysAddr then minAllocatablePhysAddr
    else region.start).toNat = _
  split
  · next hle =>
    exact (max_eq_right (UInt64.le_iff_toNat_le.mp hle)).symm
  · next hle =>
    rw [UInt64.le_iff_toNat_le] at hle
    exact (max_eq_left (Nat.le_of_not_le hle)).symm

/-- The addresses visited: from the first one, in steps of a frame, below the end. -/
theorem mem_addresses {address : UInt64} :
    address ∈ region.addresses ↔ address < region.«end» ∧
      ∃ step, address.toNat = region.firstAddress.toNat + step * frameSize := by
  have hend : region.«end».toNat < UInt64.size := region.«end».toNat_lt
  unfold addresses
  split
  -- the range is empty: the first address is at the end, or above it
  · next hempty =>
    rw [ge_iff_le, UInt64.le_iff_toNat_le] at hempty
    simp only [List.not_mem_nil, false_iff, not_and, not_exists]
    intro hlt step haddress
    rw [UInt64.lt_iff_toNat_lt] at hlt
    omega
  · next hsome =>
    rw [ge_iff_le, UInt64.le_iff_toNat_le] at hsome
    simp only [List.mem_map, List.mem_range]
    constructor
    -- a step stays below the end, so that its address does not wrap around
    · rintro ⟨step, hstep, rfl⟩
      have hlt : region.firstAddress.toNat + step * frameSize < region.«end».toNat := by
        unfold frameSize at hstep ⊢
        omega
      rw [UInt64.lt_iff_toNat_lt, UInt64.toNat_ofNat_of_lt' (by omega)]
      exact ⟨hlt, step, rfl⟩
    · rintro ⟨hlt, step, haddress⟩
      rw [UInt64.lt_iff_toNat_lt] at hlt
      refine ⟨step, ?_, ?_⟩
      · unfold frameSize at haddress ⊢
        omega
      · rw [← haddress, UInt64.ofNat_toNat]

theorem nodup_addresses (region : MemoryRegion) : region.addresses.Nodup := by
  have hend : region.«end».toNat < UInt64.size := region.«end».toNat_lt
  unfold addresses
  split
  · exact List.nodup_nil
  · next hsome =>
    rw [ge_iff_le, UInt64.le_iff_toNat_le] at hsome
    -- all of them are below the end, where counting in words is counting
    refine List.Nodup.map_on ?_ List.nodup_range
    intro i hi j hj heq
    rw [List.mem_range] at hi hj
    have hnat := congrArg UInt64.toNat heq
    unfold frameSize at hi hj hnat
    rw [UInt64.toNat_ofNat_of_lt' (by omega), UInt64.toNat_ofNat_of_lt' (by omega)] at hnat
    omega

theorem hasByte_of_mem {address : UInt64} (h : address ∈ region.addresses) :
    region.HasByte address.toNat := by
  rcases mem_addresses.mp h with ⟨hlt, step, haddress⟩
  have hfirst := region.toNat_firstAddress
  rw [UInt64.lt_iff_toNat_lt] at hlt
  refine ⟨?_, hlt⟩
  omega

end MemoryRegion

/-! ## The frames handed out -/

namespace BootInfoFrameAllocator

/-- The frames in the order in which they are handed out. -/
def frames (regions : List MemoryRegion) : List PhysFrame :=
  (init regions).frameAddresses.map PhysFrame.containingAddress

/-- The addresses are those of the usable regions. -/
theorem mem_frameAddresses {regions : List MemoryRegion} {next : ℕ} {address : UInt64} :
    address ∈ frameAddresses ⟨regions, next⟩ ↔
      ∃ region ∈ regions, region.kind = .usable ∧ address ∈ region.addresses := by
  simp only [frameAddresses, List.mem_flatMap, List.mem_filter, decide_eq_true_eq]
  constructor
  · rintro ⟨region, ⟨hmem, hkind⟩, haddress⟩
    exact ⟨region, hmem, hkind, haddress⟩
  · rintro ⟨region, hmem, hkind, haddress⟩
    exact ⟨region, ⟨hmem, hkind⟩, haddress⟩

section Runs

variable {regions : List MemoryRegion} (h : ∀ region ∈ regions, region.«end».toNat ≤ 2 ^ 52)
include h

theorem frameAt_eq {next : ℕ} {address : UInt64}
    (haddress : address ∈ frameAddresses ⟨regions, next⟩) :
    frameAt address = .ok (PhysFrame.containingAddress address) := by
  rcases mem_frameAddresses.mp haddress with ⟨region, hmem, _, hregion⟩
  have hbyte := (MemoryRegion.hasByte_of_mem hregion).2
  have hbelow := h region hmem
  unfold frameAt physAddrNew
  rw [if_pos (by omega)]
  rfl

/-- A call gives the frame of the next number, and counts. -/
theorem allocateFrame_eq {next : ℕ} (hnext : next + 1 < 2 ^ 64) :
    allocateFrame ⟨regions, next⟩ = .ok ((frames regions)[next]?, ⟨regions, next + 1⟩) := by
  have hmap : (List.take (next + 1) (frameAddresses ⟨regions, next⟩)).mapM frameAt =
      .ok ((List.take (next + 1) (frameAddresses ⟨regions, next⟩)).map
        PhysFrame.containingAddress) :=
    mapM_eq fun address hmem => frameAt_eq h (List.mem_of_mem_take hmem)
  have hframe : ((List.take (next + 1) (frameAddresses ⟨regions, next⟩)).map
      PhysFrame.containingAddress)[next]? = (frames regions)[next]? := by
    rw [List.map_take, List.getElem?_take_of_lt (Nat.lt_succ_self next)]
    rfl
  unfold allocateFrame
  rw [hmap, add_eq hnext]
  simp only [bind, Except.bind, pure, Except.pure, hframe]

/-- The counter overflows. -/
theorem allocateFrame_panics {next : ℕ} (hnext : ¬ next + 1 < 2 ^ 64) :
    allocateFrame ⟨regions, next⟩ = .error panicAdd := by
  unfold allocateFrame
  rw [mapM_eq fun address hmem => frameAt_eq h (List.mem_of_mem_take hmem)]
  simp only [bind, Except.bind, add, if_neg hnext]

/-- However many calls there are, they go through the frames in order. -/
theorem allocated_take (n next : ℕ) :
    allocated ⟨regions, next⟩ n <+: (frames regions).drop next := by
  induction n generalizing next with
  | zero => exact List.nil_prefix
  | succ n ih =>
    by_cases hnext : next + 1 < 2 ^ 64
    · rw [allocated, allocateFrame_eq h hnext]
      simp only
      have hrest := ih (next + 1)
      rcases Nat.lt_or_ge next (frames regions).length with hlt | hge
      · rw [List.getElem?_eq_getElem hlt, List.drop_eq_getElem_cons hlt]
        exact (List.prefix_cons_inj _).mpr hrest
      · -- there is nothing left, now and later
        rw [List.drop_eq_nil_of_le (by omega)] at hrest
        rw [List.getElem?_eq_none hge, List.prefix_nil.mp hrest]
        exact List.nil_prefix
    · rw [allocated, allocateFrame_panics h hnext]
      exact List.nil_prefix

/-- Fewer than `2 ^ 64` calls return all frames up to their number. -/
theorem allocated_eq (n next : ℕ) (hlimit : next + n < 2 ^ 64) :
    allocated ⟨regions, next⟩ n = ((frames regions).drop next).take n := by
  induction n generalizing next with
  | zero => rfl
  | succ n ih =>
    rw [allocated, allocateFrame_eq h (by omega)]
    simp only
    rw [ih (next + 1) (by omega)]
    rcases Nat.lt_or_ge next (frames regions).length with hlt | hge
    · rw [List.getElem?_eq_getElem hlt, List.drop_eq_getElem_cons hlt]
      rfl
    · rw [List.getElem?_eq_none hge, List.drop_eq_nil_of_le hge, List.drop_eq_nil_of_le (by omega),
        List.take_nil, List.take_nil]
      rfl

end Runs

section Sound

variable {regions : List MemoryRegion} (h : WellFormedMap regions)
include h

/-- Different regions have no address in common. -/
theorem eq_of_hasByte {region other : MemoryRegion} (hregion : region ∈ regions)
    (hother : other ∈ regions) {address : ℕ} (hbyte : region.HasByte address)
    (hbyte' : other.HasByte address) : region = other := by
  by_contra hne
  have hsymm : Std.Symm fun region other : MemoryRegion =>
      ∀ address, ¬ (region.HasByte address ∧ other.HasByte address) :=
    ⟨fun _ _ hxy address hboth => hxy address hboth.symm⟩
  exact h.disjoint.forall hregion hother hne address ⟨hbyte, hbyte'⟩

/-- Regions without a common byte have no common address. -/
theorem nodup_frameAddresses : (init regions).frameAddresses.Nodup := by
  unfold frameAddresses
  rw [List.nodup_flatMap]
  refine ⟨fun region _ => region.nodup_addresses, ?_⟩
  refine (h.disjoint.filter _).imp ?_
  intro region other hdisjoint address hmem hmem'
  exact hdisjoint address.toNat ⟨MemoryRegion.hasByte_of_mem hmem, MemoryRegion.hasByte_of_mem hmem'⟩

/-- There are fewer frames than calls that the counter can count. -/
theorem length_frames_lt : (frames regions).length < 2 ^ 64 := by
  have hnodup : ((init regions).frameAddresses.map UInt64.toNat).Nodup :=
    (nodup_frameAddresses h).map fun _ _ => UInt64.toNat_inj.mp
  have hsub : ((init regions).frameAddresses.map UInt64.toNat).toFinset ⊆ Finset.range (2 ^ 52) := by
    intro n hn
    rw [List.mem_toFinset, List.mem_map] at hn
    rcases hn with ⟨address, hmem, rfl⟩
    rcases mem_frameAddresses.mp hmem with ⟨region, hregion, _, haddress⟩
    have hbyte := (MemoryRegion.hasByte_of_mem haddress).2
    have hbelow := h.below region hregion
    rw [Finset.mem_range]
    omega
  have hcard := Finset.card_le_card hsub
  rw [List.toFinset_card_of_nodup hnodup, Finset.card_range, List.length_map] at hcard
  rw [frames, List.length_map]
  omega

/-- What holds of every number of calls holds of all frames. -/
theorem soundOn_iff :
    SoundOn regions ↔ (∀ frame ∈ frames regions, frame.Allocatable regions) ∧
      (frames regions).Nodup := by
  constructor
  · intro hsound
    have hlength := length_frames_lt h
    have hall : (init regions).allocated (frames regions).length = frames regions := by
      have heq := allocated_eq h.below (frames regions).length 0 (by omega)
      rwa [List.drop_zero, List.take_length] at heq
    have hcalls := hsound (frames regions).length
    rwa [hall] at hcalls
  · rintro ⟨hallocatable, hnodup⟩ n
    have hfront := allocated_take h.below n 0
    rw [List.drop_zero] at hfront
    refine ⟨?_, hnodup.sublist hfront.sublist⟩
    intro frame hframe
    exact hallocatable frame (hfront.subset hframe)

end Sound

end BootInfoFrameAllocator

/-! ## Alignment -/

theorem toNat_containingAddress (address : UInt64) :
    (PhysFrame.containingAddress address).start.toNat =
      address.toNat / frameSize * frameSize := by
  have hlt : address.toNat < UInt64.size := address.toNat_lt
  have hle : address.toNat / frameSize * frameSize ≤ address.toNat := Nat.div_mul_le_self _ _
  exact UInt64.toNat_ofNat_of_lt' (by omega)

/-- The addresses of an aligned region begin frames of it. -/
theorem containingAddress_of_aligned {region : MemoryRegion} (h : region.Aligned) {address : UInt64}
    (haddress : address ∈ region.addresses) :
    (PhysFrame.containingAddress address).start = address ∧
      minAllocatablePhysAddr ≤ address ∧ (PhysFrame.containingAddress address).Inside region := by
  rcases MemoryRegion.mem_addresses.mp haddress with ⟨hlt, step, hstep⟩
  rw [UInt64.lt_iff_toNat_lt] at hlt
  have hfirst := region.toNat_firstAddress
  rcases h (UInt64.lt_iff_toNat_lt.mpr (by omega)) with ⟨hbegin, hend⟩
  have hstart : (PhysFrame.containingAddress address).start.toNat = address.toNat := by
    rw [toNat_containingAddress]
    unfold frameSize at hbegin hstep ⊢
    omega
  refine ⟨UInt64.toNat_inj.mp hstart, UInt64.le_iff_toNat_le.mpr (by omega), ?_, ?_⟩
  · rw [hstart]
    omega
  · -- the next address would be the end, at the latest
    rw [hstart]
    unfold frameSize at hbegin hend hstep ⊢
    omega

/-- A region whose first and last address lie in frames inside it is aligned. -/
theorem aligned_of_inside {region : MemoryRegion}
    (h : ∀ address ∈ region.addresses, minAllocatablePhysAddr ≤
      (PhysFrame.containingAddress address).start ∧
      (PhysFrame.containingAddress address).Inside region) : region.Aligned := by
  intro hsome
  rw [UInt64.lt_iff_toNat_lt] at hsome
  have hfirst := region.toNat_firstAddress
  -- the first address is not above the beginning of its frame
  have hmem : region.firstAddress ∈ region.addresses :=
    MemoryRegion.mem_addresses.mpr ⟨UInt64.lt_iff_toNat_lt.mpr hsome, 0, by omega⟩
  rcases h _ hmem with ⟨hmin, hinside, _⟩
  rw [UInt64.le_iff_toNat_le, toNat_containingAddress] at hmin
  rw [toNat_containingAddress] at hinside
  have hbegin : region.firstAddress.toNat % frameSize = 0 := by
    unfold frameSize at hmin hinside ⊢
    omega
  refine ⟨hbegin, ?_⟩
  -- the last address is a frame before the end
  have hend : region.«end».toNat < UInt64.size := region.«end».toNat_lt
  have hlast : UInt64.ofNat (region.firstAddress.toNat +
      (region.«end».toNat - region.firstAddress.toNat - 1) / frameSize * frameSize) ∈
      region.addresses := by
    refine MemoryRegion.mem_addresses.mpr ?_
    unfold frameSize
    rw [UInt64.lt_iff_toNat_lt, UInt64.toNat_ofNat_of_lt' (by omega)]
    exact ⟨by omega, _, rfl⟩
  have hlastInside := (h _ hlast).2.2
  rw [toNat_containingAddress] at hlastInside
  unfold frameSize at hbegin hlastInside ⊢
  rw [UInt64.toNat_ofNat_of_lt' (by omega)] at hlastInside
  omega

open BootInfoFrameAllocator in
/-- **Frames.** On a map of disjoint regions the allocator hands out frames of usable memory
only, and none twice, exactly if the map is aligned. -/
theorem sound_iff_aligned {regions : List MemoryRegion} (h : WellFormedMap regions) :
    SoundOn regions ↔ AlignedMap regions := by
  rw [soundOn_iff h]
  constructor
  · rintro ⟨hallocatable, _⟩ region hregion hkind
    refine aligned_of_inside ?_
    intro address haddress
    have hframe : PhysFrame.containingAddress address ∈ frames regions :=
      List.mem_map_of_mem (mem_frameAddresses.mpr ⟨region, hregion, hkind, haddress⟩)
    rcases hallocatable _ hframe with ⟨hmin, other, hother, _, hinside⟩
    -- the frame has the address, so its region is this one
    have hbyte : other.HasByte address.toNat := by
      rcases hinside with ⟨hlow, hhigh⟩
      rw [toNat_containingAddress] at hlow hhigh
      unfold frameSize at hlow hhigh
      constructor
      · omega
      · omega
    have hsame : region = other :=
      eq_of_hasByte h hregion hother (MemoryRegion.hasByte_of_mem haddress) hbyte
    rw [hsame]
    exact ⟨hmin, hinside⟩
  · intro haligned
    have hid : ∀ address ∈ (init regions).frameAddresses, ∃ region ∈ regions,
        region.kind = .usable ∧ (PhysFrame.containingAddress address).start = address ∧
          minAllocatablePhysAddr ≤ address ∧
          (PhysFrame.containingAddress address).Inside region := by
      intro address hmem
      rcases mem_frameAddresses.mp hmem with ⟨region, hregion, hkind, haddress⟩
      exact ⟨region, hregion, hkind,
        containingAddress_of_aligned (haligned region hregion hkind) haddress⟩
    constructor
    · intro frame hframe
      rcases List.mem_map.mp hframe with ⟨address, hmem, rfl⟩
      rcases hid address hmem with ⟨region, hregion, hkind, hstart, hmin, hinside⟩
      refine ⟨?_, region, hregion, hkind, hinside⟩
      rw [hstart]
      exact hmin
    · -- every frame begins at the address it was made from
      refine List.Nodup.map_on ?_ (nodup_frameAddresses h)
      intro address hmem address' hmem' heq
      rcases hid address hmem with ⟨_, _, _, hstart, _⟩
      rcases hid address' hmem' with ⟨_, _, _, hstart', _⟩
      rw [← hstart, ← hstart', heq]

theorem MemoryRegion.disjoint_of_le {region other : MemoryRegion} (h : region.«end» ≤ other.start)
    (address : ℕ) : ¬ (region.HasByte address ∧ other.HasByte address) := by
  rintro ⟨⟨_, hlt⟩, ⟨hle, _⟩⟩
  rw [UInt64.le_iff_toNat_le] at h
  omega

/-- A map as QEMU reports it: low memory, a hole, and memory from 1 MiB on. -/
def alignedMap : List MemoryRegion :=
  [⟨0x0, 0x9fc00, .usable⟩, ⟨0x9fc00, 0x100000, .other⟩, ⟨0x100000, 0x7fe0000, .usable⟩]

/-- Two regions that share a page. -/
def sharedPageMap : List MemoryRegion :=
  [⟨0x100000, 0x100800, .usable⟩, ⟨0x100800, 0x101000, .usable⟩]

theorem sound_iff_aligned_qemu : SoundOn alignedMap := by
  have hmap : WellFormedMap alignedMap := by
    refine ⟨by decide, ?_, by decide⟩
    exact List.Pairwise.imp MemoryRegion.disjoint_of_le (by decide)
  refine (sound_iff_aligned hmap).mpr ?_
  intro region hregion hkind hsome
  simp only [alignedMap, List.mem_cons, List.not_mem_nil, or_false] at hregion
  rcases hregion with rfl | rfl | rfl
  · exact absurd hsome (by decide)
  · cases hkind
  · decide

/-- The page that two regions share is handed out twice. -/
theorem shared_page_handed_out_twice : WellFormedMap sharedPageMap ∧
    (BootInfoFrameAllocator.init sharedPageMap).allocated 2 = [⟨0x100000⟩, ⟨0x100000⟩] ∧
    ¬ SoundOn sharedPageMap := by
  have hcalls : (BootInfoFrameAllocator.init sharedPageMap).allocated 2 =
      [⟨0x100000⟩, ⟨0x100000⟩] := by decide
  refine ⟨⟨by decide, ?_, by decide⟩, hcalls, ?_⟩
  · exact List.Pairwise.imp MemoryRegion.disjoint_of_le (by decide)
  · intro hsound
    have htwo := (hsound 2).2
    rw [hcalls] at htwo
    exact absurd htwo (by decide)

end JingOS.Memory
