import JingOS.Memory.Frames
import JingOS.Syscall.Dispatch
import Mathlib.Algebra.BigOperators.Group.List.Basic
import Mathlib.Data.List.Intervals
import Mathlib.Data.Set.Card

/-!
# Counting frames

A run of the allocator is a number of calls of `allocate_frame`; its outcome is the result
of every call and the allocator left behind. Nothing else moves the counter `next`, which is
the position in the enumeration and the number of allocations in one.

* `calls_spec` — the outcome of any number of calls;
* `frames_enumerated` — on an aligned map of disjoint regions they are the usable frames from
  1 MiB on, each once, in map order;
* `accounting_exact_iff` — the two roles of the counter agree until memory is exhausted;
* `summary_agrees` — the summary of the memory map counts the same frames, and those below
  1 MiB.
-/

namespace JingOS.Memory

namespace BootInfoFrameAllocator

/-- The results of `n` calls of `allocate_frame`, and the allocator after them. A panic ends
the calls. -/
def calls (a : BootInfoFrameAllocator) : ℕ → List (Option PhysFrame) × BootInfoFrameAllocator
  | 0 => ([], a)
  | n + 1 =>
    match a.allocateFrame with
    | .error _ => ([], a)
    | .ok (frame, a) => (frame :: (calls a n).1, (calls a n).2)

/-! ## A run of calls -/

/-- How many of `n` calls from a fresh allocator return: the counter is a 64-bit word. -/
def returning (n : ℕ) : ℕ := min n (2 ^ 64 - 1)

section Runs

variable {regions : List MemoryRegion} (h : ∀ region ∈ regions, region.«end».toNat ≤ 2 ^ 52)
include h

/-- The calls go through the frames in order and count every one of themselves. -/
theorem calls_from (n next : ℕ) :
    calls ⟨regions, next⟩ n =
      ((List.range (min n (2 ^ 64 - 1 - next))).map fun k => (frames regions)[next + k]?,
        ⟨regions, next + min n (2 ^ 64 - 1 - next)⟩) := by
  induction n generalizing next with
  | zero => simp [calls]
  | succ n ih =>
    by_cases hnext : next + 1 < 2 ^ 64
    · have hmin : min (n + 1) (2 ^ 64 - 1 - next) = min n (2 ^ 64 - 1 - (next + 1)) + 1 := by
        omega
      rw [calls, allocateFrame_eq h hnext]
      simp only [ih (next + 1)]
      rw [hmin, List.range_succ_eq_map, List.map_cons, List.map_map]
      refine Prod.ext ?_ ?_
      · refine List.cons_eq_cons.mpr ⟨rfl, ?_⟩
        apply List.map_congr_left
        intro k _
        rw [Function.comp_apply, Nat.add_assoc, Nat.add_comm 1 k]
      · simp only [mk.injEq, true_and]
        omega
    · have hmin : min (n + 1) (2 ^ 64 - 1 - next) = 0 := by omega
      rw [calls, allocateFrame_panics h hnext, hmin]
      rfl

/-- **A run of calls.** The `k`-th call returns the `k`-th frame, as long as there is one. -/
theorem calls_spec (n : ℕ) :
    (init regions).calls n =
      ((List.range (returning n)).map fun k => (frames regions)[k]?, ⟨regions, returning n⟩) := by
  have hcalls := calls_from h n 0
  simpa [init, returning] using hcalls

/-- What is left over is what the calls have not come to. -/
theorem remaining_after (n : ℕ) :
    ((init regions).calls n).2.remainingUsableFramesEstimate =
      .ok ((frames regions).length - returning n) := by
  have hmap : (frameAddresses ⟨regions, returning n⟩).mapM frameAt = .ok (frames regions) :=
    Checked.mapM_eq fun address hmem => frameAt_eq h hmem
  rw [calls_spec h]
  unfold remainingUsableFramesEstimate
  rw [hmap]
  simp only [bind, Except.bind, pure, Except.pure, List.length_drop]

/-- As many calls return a frame as there are frames, at most. -/
theorem countP_isSome_calls (n : ℕ) :
    ((init regions).calls n).1.countP Option.isSome = min (returning n) (frames regions).length := by
  rw [calls_spec h]
  generalize returning n = m
  induction m with
  | zero => simp
  | succ m ih =>
    rw [List.range_succ, List.map_append, List.countP_append, ih]
    rcases Nat.lt_or_ge m (frames regions).length with hlt | hge
    · simp [List.getElem?_eq_getElem hlt]
      omega
    · simp [List.getElem?_eq_none hge]
      omega

end Runs

end BootInfoFrameAllocator

/-! ## The two roles of the counter -/

/-- How many frames the region has from 1 MiB on, the last one perhaps in part. -/
def MemoryRegion.frameCount (region : MemoryRegion) : ℕ :=
  (region.«end».toNat - max region.start.toNat minAllocatablePhysAddr.toNat + (frameSize - 1)) /
    frameSize

/-- How many frames the usable regions of a map have from 1 MiB on. -/
def usableFrameCount (regions : List MemoryRegion) : ℕ :=
  ((regions.filter (·.kind = .usable)).map MemoryRegion.frameCount).sum

theorem MemoryRegion.length_addresses (region : MemoryRegion) :
    region.addresses.length = region.frameCount := by
  have hfirst := region.toNat_firstAddress
  unfold addresses frameCount
  split
  · next hempty =>
    rw [ge_iff_le, UInt64.le_iff_toNat_le, hfirst] at hempty
    rw [Nat.sub_eq_zero_of_le hempty]
    rfl
  · rw [List.length_map, List.length_range, hfirst]

open BootInfoFrameAllocator

theorem length_frames (regions : List MemoryRegion) :
    (frames regions).length = usableFrameCount regions := by
  unfold frames frameAddresses usableFrameCount init
  rw [List.length_map, List.length_flatMap]
  refine congrArg List.sum (List.map_congr_left ?_)
  intro region _
  exact region.length_addresses

/-- The accounts are right throughout `n` calls: `allocated_frames` is the number of calls
that returned a frame, and together with what remains it makes the sum it made at the start. -/
def AccountsExact (regions : List MemoryRegion) (n : ℕ) : Prop :=
  ∀ k ≤ n, let a := ((init regions).calls k).2
    a.allocatedFrames = ((init regions).calls k).1.countP Option.isSome ∧
    ∃ remaining total, a.remainingUsableFramesEstimate = .ok remaining ∧
      (init regions).remainingUsableFramesEstimate = .ok total ∧
      a.allocatedFrames + remaining = (init regions).allocatedFrames + total

/-- **Accounting.** The accounts of a run are right exactly if it does not go on after the
usable frames are exhausted; a call that returns nothing is counted, too. -/
theorem accounting_exact_iff {regions : List MemoryRegion}
    (h : ∀ region ∈ regions, region.«end».toNat ≤ 2 ^ 52) (n : ℕ) :
    AccountsExact regions n ↔ min n (2 ^ 64 - 1) ≤ usableFrameCount regions := by
  have hstart : (init regions).remainingUsableFramesEstimate = .ok (frames regions).length := by
    have hzero := remaining_after h 0
    simpa [calls, returning] using hzero
  -- the counter is the number of calls that have returned, whatever they have returned
  have hallocated : ∀ k, ((init regions).calls k).2.allocatedFrames = returning k := by
    intro k
    rw [calls_spec h]
    rfl
  rw [← length_frames]
  constructor
  · intro hexact
    have hcount := (hexact n (Nat.le_refl n)).1
    rw [hallocated, countP_isSome_calls h] at hcount
    unfold returning at hcount
    omega
  · intro hle k hk
    have hreturning : returning k ≤ (frames regions).length := by
      unfold returning
      omega
    refine ⟨?_, _, _, remaining_after h k, hstart, ?_⟩
    · rw [hallocated, countP_isSome_calls h]
      omega
    · rw [hallocated]
      change returning k + _ = 0 + _
      omega

/-- A map with a single frame to hand out. -/
def oneFrameMap : List MemoryRegion := [⟨0x100000, 0x101000, .usable⟩]

theorem accounting_exact_one_call :
    (∀ region ∈ oneFrameMap, region.«end».toNat ≤ 2 ^ 52) ∧ AccountsExact oneFrameMap 1 := by
  have hbelow : ∀ region ∈ oneFrameMap, region.«end».toNat ≤ 2 ^ 52 := by decide
  exact ⟨hbelow, (accounting_exact_iff hbelow 1).mpr (by decide)⟩

/-- The second call finds nothing and is counted as an allocation. -/
theorem exhausted_call_counted :
    ((init oneFrameMap).calls 2).1 = [some ⟨0x100000⟩, none] ∧
    ((init oneFrameMap).calls 2).2.allocatedFrames = 2 ∧
    ((init oneFrameMap).calls 1).2.allocatedFrames = 1 ∧
    ((init oneFrameMap).calls 1).2.remainingUsableFramesEstimate = .ok 0 ∧
    ((init oneFrameMap).calls 2).2.remainingUsableFramesEstimate = .ok 0 ∧
    ¬ AccountsExact oneFrameMap 2 := by
  have hcalls : ((init oneFrameMap).calls 2).1 = [some ⟨0x100000⟩, none] := by decide
  have htwo : ((init oneFrameMap).calls 2).2.allocatedFrames = 2 := by decide
  refine ⟨hcalls, htwo, by decide, by decide, by decide, ?_⟩
  intro hexact
  have hcount := (hexact 2 (Nat.le_refl 2)).1
  rw [hcalls, htwo] at hcount
  exact absurd hcount (by decide)

/-! ## Frames by number -/

/-- The frame with the given number. -/
def PhysFrame.numbered (k : ℕ) : PhysFrame := ⟨UInt64.ofNat (k * frameSize)⟩

/-- The numbers of the frames of a region that are from `low` on and below `high`. -/
def MemoryRegion.frameNumbers (low high : ℕ) (region : MemoryRegion) : List ℕ :=
  List.Ico (max (region.start.toNat / frameSize) low) (min (region.«end».toNat / frameSize) high)

/-- The numbers of the usable frames between two bounds, in map order. -/
def usableNumbers (low high : ℕ) (regions : List MemoryRegion) : List ℕ :=
  (regions.filter (·.kind = .usable)).flatMap (MemoryRegion.frameNumbers low high)

/-- The number of the first frame that may be handed out. -/
def firstNumber : ℕ := minAllocatablePhysAddr.toNat / frameSize

/-- Physical addresses have 52 bits. -/
def numberLimit : ℕ := 2 ^ 52 / frameSize

/-- The usable frames from 1 MiB on, in map order. -/
def usableFrames (regions : List MemoryRegion) : List PhysFrame :=
  (usableNumbers firstNumber numberLimit regions).map PhysFrame.numbered

/-- Disjoint regions, in any order and perhaps empty, that begin and end at frames. -/
structure PageMap (regions : List MemoryRegion) : Prop where
  disjoint : regions.Pairwise fun region other =>
    ∀ address, ¬ (region.HasByte address ∧ other.HasByte address)
  aligned : ∀ region ∈ regions,
    region.start.toNat % frameSize = 0 ∧ region.«end».toNat % frameSize = 0
  below : ∀ region ∈ regions, region.«end».toNat ≤ 2 ^ 52

theorem toNat_numbered {k : ℕ} (h : k < numberLimit) :
    (PhysFrame.numbered k).start.toNat = k * frameSize := by
  unfold numberLimit frameSize at h
  unfold PhysFrame.numbered frameSize
  exact UInt64.toNat_ofNat_of_lt' (by change _ < 2 ^ 64; omega)

section Enumeration

variable {regions : List MemoryRegion} (h : PageMap regions) {low high : ℕ}

/-- The numbers of a region are those of the frames inside of it. -/
theorem mem_frameNumbers {region : MemoryRegion} {k : ℕ}
    (haligned : region.start.toNat % frameSize = 0 ∧ region.«end».toNat % frameSize = 0) :
    k ∈ region.frameNumbers low high ↔ (low ≤ k ∧ k < high) ∧
      region.start.toNat ≤ k * frameSize ∧ k * frameSize + frameSize ≤ region.«end».toNat := by
  rw [MemoryRegion.frameNumbers, List.Ico.mem]
  unfold frameSize at haligned ⊢
  omega

include h

theorem mem_usableNumbers {k : ℕ} :
    k ∈ usableNumbers low high regions ↔ (low ≤ k ∧ k < high) ∧
      ∃ region ∈ regions, region.kind = .usable ∧
        region.start.toNat ≤ k * frameSize ∧ k * frameSize + frameSize ≤ region.«end».toNat := by
  simp only [usableNumbers, List.mem_flatMap, List.mem_filter, decide_eq_true_eq]
  constructor
  · rintro ⟨region, ⟨hregion, hkind⟩, hk⟩
    rcases (mem_frameNumbers (h.aligned region hregion)).mp hk with ⟨hbounds, hinside⟩
    exact ⟨hbounds, region, hregion, hkind, hinside⟩
  · rintro ⟨hbounds, region, hregion, hkind, hinside⟩
    exact ⟨region, ⟨hregion, hkind⟩,
      (mem_frameNumbers (h.aligned region hregion)).mpr ⟨hbounds, hinside⟩⟩

/-- No frame lies in two regions: its first byte would be in both. -/
theorem nodup_usableNumbers : (usableNumbers low high regions).Nodup := by
  unfold usableNumbers
  rw [List.nodup_flatMap]
  refine ⟨fun region _ => List.Ico.nodup _ _, ?_⟩
  have hall : (regions.filter (·.kind = .usable)).Pairwise fun region other =>
      (∀ address, ¬ (region.HasByte address ∧ other.HasByte address)) := h.disjoint.filter _
  refine hall.imp_of_mem ?_
  intro region other hregion hother hdisjoint k hk hk'
  have hin := (mem_frameNumbers (h.aligned region (List.mem_of_mem_filter hregion))).mp hk
  have hin' := (mem_frameNumbers (h.aligned other (List.mem_of_mem_filter hother))).mp hk'
  refine hdisjoint (k * frameSize) ⟨⟨hin.2.1, ?_⟩, hin'.2.1, ?_⟩
  · have := hin.2.2
    unfold frameSize at this ⊢
    omega
  · have := hin'.2.2
    unfold frameSize at this ⊢
    omega

/-- Numbers below the limit stand for different frames. -/
theorem nodup_numbered (hhigh : high ≤ numberLimit) :
    ((usableNumbers low high regions).map PhysFrame.numbered).Nodup := by
  refine List.Nodup.map_on ?_ (nodup_usableNumbers h)
  intro k hk j hj heq
  have hk' := (mem_usableNumbers h).mp hk
  have hj' := (mem_usableNumbers h).mp hj
  have hnat := congrArg (fun frame : PhysFrame => frame.start.toNat) heq
  simp only [toNat_numbered (show k < numberLimit by omega),
    toNat_numbered (show j < numberLimit by omega)] at hnat
  unfold frameSize at hnat
  omega

/-- The frames of the numbers are those that lie inside of a usable region, between the bounds. -/
theorem mem_numbered (hhigh : high ≤ numberLimit) {frame : PhysFrame} :
    frame ∈ (usableNumbers low high regions).map PhysFrame.numbered ↔
      frame.start.toNat % frameSize = 0 ∧
      (low * frameSize ≤ frame.start.toNat ∧ frame.start.toNat < high * frameSize) ∧
      ∃ region ∈ regions, region.kind = .usable ∧ frame.Inside region := by
  rw [List.mem_map]
  constructor
  · rintro ⟨k, hk, rfl⟩
    rcases (mem_usableNumbers h).mp hk with ⟨hbounds, region, hregion, hkind, hinside⟩
    have hnat := toNat_numbered (show k < numberLimit by omega)
    unfold PhysFrame.Inside
    rw [hnat]
    refine ⟨Nat.mul_mod_left _ _, ?_, region, hregion, hkind, hinside⟩
    unfold frameSize
    omega
  · rintro ⟨hzero, hbounds, region, hregion, hkind, hinside⟩
    -- an aligned address is the number of its frame times the size
    have hnumber : frame.start.toNat / frameSize * frameSize = frame.start.toNat :=
      Nat.div_mul_cancel (Nat.dvd_of_mod_eq_zero hzero)
    refine ⟨frame.start.toNat / frameSize, (mem_usableNumbers h).mpr ⟨?_, region, hregion, hkind, ?_⟩, ?_⟩
    · unfold frameSize at hbounds ⊢
      omega
    · rw [hnumber]
      exact hinside
    · unfold PhysFrame.numbered
      rw [hnumber, UInt64.ofNat_toNat]

omit h in
/-- The steps through an aligned region visit its frames by number. -/
theorem map_containingAddress {region : MemoryRegion}
    (haligned : region.start.toNat % frameSize = 0 ∧ region.«end».toNat % frameSize = 0)
    (hbelow : region.«end».toNat ≤ 2 ^ 52) :
    region.addresses.map PhysFrame.containingAddress =
      (region.frameNumbers firstNumber numberLimit).map PhysFrame.numbered := by
  have hfirst := region.toNat_firstAddress
  have hmin : minAllocatablePhysAddr.toNat = 256 * 4096 := by decide
  have hlow : firstNumber = 256 := by decide
  have hhigh : numberLimit = 2 ^ 40 := by decide
  rw [hmin] at hfirst
  unfold frameSize at haligned
  unfold MemoryRegion.addresses MemoryRegion.frameNumbers frameSize
  rw [hlow, hhigh]
  split
  -- a region below the limit has neither addresses nor numbers
  · next hempty =>
    rw [ge_iff_le, UInt64.le_iff_toNat_le] at hempty
    rw [List.Ico.eq_nil_of_le (by omega)]
    rfl
  · next hsome =>
    rw [ge_iff_le, UInt64.le_iff_toNat_le] at hsome
    -- as many steps as there are frames from the first address on
    have hcount : (region.«end».toNat - region.firstAddress.toNat + (4096 - 1)) / 4096 =
        min (region.«end».toNat / 4096) (2 ^ 40) - max (region.start.toNat / 4096) 256 := by
      omega
    simp only [List.Ico, hcount, List.range'_eq_map_range, List.map_map]
    apply List.map_congr_left
    intro step hstep
    rw [List.mem_range] at hstep
    have haddress : region.firstAddress.toNat + step * 4096 =
        (max (region.start.toNat / 4096) 256 + step) * 4096 := by
      omega
    simp only [Function.comp_apply, PhysFrame.containingAddress, PhysFrame.numbered, frameSize]
    rw [UInt64.toNat_ofNat_of_lt' (by change _ < 2 ^ 64; omega), haddress,
      Nat.mul_div_cancel _ (by decide)]

/-- The allocator's list is that of the map. -/
theorem frames_eq : frames regions = usableFrames regions := by
  unfold frames usableFrames frameAddresses usableNumbers init
  rw [List.map_flatMap, List.map_flatMap]
  apply List.flatMap_congr
  intro region hregion
  have hmem := List.mem_of_mem_filter hregion
  exact map_containingAddress (h.aligned region hmem) (h.below region hmem)

theorem length_usableNumbers_le : (usableNumbers low high regions).length ≤ high := by
  have hsub : (usableNumbers low high regions).toFinset ⊆ Finset.range high := by
    intro k hk
    rw [List.mem_toFinset] at hk
    exact Finset.mem_range.mpr ((mem_usableNumbers h).mp hk).1.2
  have hcard := Finset.card_le_card hsub
  rwa [List.toFinset_card_of_nodup (nodup_usableNumbers h), Finset.card_range] at hcard

theorem nodup_usableFrames : (usableFrames regions).Nodup := nodup_numbered h (Nat.le_refl _)

/-- There are fewer frames than calls that the counter can count. -/
theorem length_usableFrames_lt : (usableFrames regions).length < 2 ^ 64 - 1 := by
  have hle : (usableNumbers firstNumber numberLimit regions).length ≤ numberLimit :=
    length_usableNumbers_le h
  have hlimit : numberLimit = 2 ^ 40 := by decide
  rw [usableFrames, List.length_map]
  omega

end Enumeration

/-- What a list without repetitions has beyond its first `n` elements. -/
theorem filter_not_taken {α : Type} [DecidableEq α] {xs : List α} (hnodup : xs.Nodup) (n : ℕ) :
    (xs.filter fun x => decide (x ∉ xs.take n)) = xs.drop n := by
  have hsplit : (xs.take n ++ xs.drop n).Nodup := by rwa [List.take_append_drop]
  have hapart := List.disjoint_of_nodup_append hsplit
  conv_lhs => rw [← List.take_append_drop n xs, List.filter_append]
  rw [List.take_append_drop, List.filter_eq_nil_iff.mpr (by simp), List.nil_append,
    List.filter_eq_self]
  intro x hx
  simpa using fun hx' => hapart hx' hx

/-- The elements met when the places below `n` are looked up. -/
theorem mem_take_iff_called {α : Type} {xs : List α} {n : ℕ} {x : α} :
    x ∈ xs.take n ↔ some x ∈ (List.range n).map fun k => xs[k]? := by
  rw [List.mem_iff_getElem?, List.mem_map]
  simp only [List.mem_range, List.getElem?_take]
  constructor
  · rintro ⟨k, hk⟩
    split at hk
    · next hlt => exact ⟨k, hlt, hk⟩
    · cases hk
  · rintro ⟨k, hlt, hk⟩
    exact ⟨k, by rw [if_pos hlt, hk]⟩

/-- **Enumeration.** On a map of disjoint aligned regions successive calls return the usable
frames from 1 MiB on, each exactly once and in map order, and then nothing as long as the
counter lasts; and the estimate of what remains is the number of those not returned yet. -/
theorem frames_enumerated {regions : List MemoryRegion} (h : PageMap regions) :
    (usableFrames regions).Nodup ∧
    (∀ frame, frame ∈ usableFrames regions ↔
      frame.start.toNat % frameSize = 0 ∧ frame.Allocatable regions) ∧
    (usableFrames regions).length < 2 ^ 64 - 1 ∧
    (∀ n, ((init regions).calls n).1 =
      (List.range (min n (2 ^ 64 - 1))).map fun k => (usableFrames regions)[k]?) ∧
    ∀ n, ((init regions).calls n).2.remainingUsableFramesEstimate =
      .ok ((usableFrames regions).filter fun frame =>
        decide (some frame ∉ ((init regions).calls n).1)).length := by
  have hcalls : ∀ n, ((init regions).calls n).1 =
      (List.range (min n (2 ^ 64 - 1))).map fun k => (usableFrames regions)[k]? := by
    intro n
    rw [calls_spec h.below, frames_eq h]
    rfl
  refine ⟨nodup_usableFrames h, ?_, length_usableFrames_lt h, hcalls, ?_⟩
  -- a frame inside of a region lies below the limit, as the region does
  · intro frame
    rw [usableFrames, mem_numbered h (Nat.le_refl _), PhysFrame.Allocatable,
      UInt64.le_iff_toNat_le]
    have hmin : firstNumber * frameSize = minAllocatablePhysAddr.toNat := by decide
    have hlimit : numberLimit * frameSize = 2 ^ 52 := by decide
    rw [hmin, hlimit]
    constructor
    · rintro ⟨hzero, ⟨hlow, -⟩, hregion⟩
      exact ⟨hzero, hlow, hregion⟩
    · rintro ⟨hzero, hlow, region, hregion, hkind, hinside⟩
      have hbelow := h.below region hregion
      have hend := hinside.2
      unfold frameSize at hend
      exact ⟨hzero, ⟨hlow, by omega⟩, region, hregion, hkind, hinside⟩
  -- the estimate counts the frames that are left over, which are those not taken
  · intro n
    rw [remaining_after h.below, frames_eq h, hcalls, ← List.length_drop,
      ← filter_not_taken (nodup_usableFrames h)]
    refine congrArg (fun frames : List PhysFrame => Except.ok frames.length) ?_
    apply List.filter_congr
    intro frame _
    exact decide_eq_decide.mpr (not_congr mem_take_iff_called)

/-- A map out of order: a region across 1 MiB, an empty one, one below 1 MiB, a reserved one. -/
def scatteredMap : List MemoryRegion :=
  [⟨0x200000, 0x201000, .usable⟩, ⟨0xff000, 0x102000, .usable⟩, ⟨0x300000, 0x300000, .usable⟩,
    ⟨0x1000, 0x3000, .usable⟩, ⟨0x102000, 0x200000, .bootloader⟩]

theorem scatteredMap_disjoint : scatteredMap.Pairwise fun region other =>
    ∀ address, ¬ (region.HasByte address ∧ other.HasByte address) := by
  have hapart : scatteredMap.Pairwise fun region other =>
      region.«end» ≤ other.start ∨ other.«end» ≤ region.start := by decide
  refine hapart.imp ?_
  intro region other hle address hboth
  rcases hle with hle | hle
  · exact MemoryRegion.disjoint_of_le hle address hboth
  · exact MemoryRegion.disjoint_of_le hle address hboth.symm

theorem frames_enumerated_scattered :
    usableFrames scatteredMap = [⟨0x200000⟩, ⟨0x100000⟩, ⟨0x101000⟩] ∧
    ((init scatteredMap).calls 4).1 =
      (List.range 4).map fun k => (usableFrames scatteredMap)[k]? := by
  have hmap : PageMap scatteredMap := ⟨scatteredMap_disjoint, by decide, by decide⟩
  have hcalls := (frames_enumerated hmap).2.2.2.1 4
  exact ⟨by decide, hcalls⟩

/-! ## The summary of the memory map -/

/-- The size of a region; a region that ends before it begins has none. -/
def MemoryRegion.bytes (region : MemoryRegion) : ℕ := region.«end».toNat - region.start.toNat

theorem MemoryRegion.toNat_size (region : MemoryRegion) : region.size.toNat = region.bytes := by
  unfold size bytes U64.saturatingSub
  split
  · next hle => exact UInt64.toNat_sub_of_le _ _ hle
  · next hle =>
    rw [UInt64.le_iff_toNat_le] at hle
    rw [UInt64.toNat_zero]
    omega

/-- The bytes of the usable regions of a map. -/
def usableSize (regions : List MemoryRegion) : ℕ :=
  ((regions.filter (·.kind = .usable)).map MemoryRegion.bytes).sum

/-- The bytes of the other regions of a map. -/
def reservedSize (regions : List MemoryRegion) : ℕ :=
  ((regions.filter (·.kind ≠ .usable)).map MemoryRegion.bytes).sum

theorem usableSize_cons (region : MemoryRegion) (regions : List MemoryRegion) :
    usableSize (region :: regions) =
      (if region.kind = .usable then region.bytes else 0) + usableSize regions := by
  unfold usableSize
  by_cases hkind : region.kind = .usable <;> simp [hkind]

theorem reservedSize_cons (region : MemoryRegion) (regions : List MemoryRegion) :
    reservedSize (region :: regions) =
      (if region.kind = .usable then 0 else region.bytes) + reservedSize regions := by
  unfold reservedSize
  by_cases hkind : region.kind = .usable <;> simp [hkind]

/-- Each region counts on one side. -/
theorem usableSize_add_reservedSize (regions : List MemoryRegion) :
    usableSize regions + reservedSize regions = (regions.map MemoryRegion.bytes).sum := by
  induction regions with
  | nil => rfl
  | cons region regions ih =>
    rw [usableSize_cons, reservedSize_cons, List.map_cons, List.sum_cons, ← ih]
    split <;> omega

/-- One round of the loop: the region's bytes go to one of the two sums, which stops at the
largest word. -/
theorem add_bytes (summary : MemorySummary) (region : MemoryRegion) :
    (summary.add region).usableBytes.toNat =
        min (summary.usableBytes.toNat + if region.kind = .usable then region.bytes else 0)
          (2 ^ 64 - 1) ∧
      (summary.add region).reservedBytes.toNat =
        min (summary.reservedBytes.toNat + if region.kind = .usable then 0 else region.bytes)
          (2 ^ 64 - 1) := by
  -- the sum that gets nothing is a word already
  have hkept : ∀ bytes : UInt64, bytes.toNat = min (bytes.toNat + 0) (2 ^ 64 - 1) := by
    intro bytes
    have hlt := bytes.toNat_lt
    omega
  unfold MemorySummary.add
  split
  · rw [U64.toNat_saturatingAdd, region.toNat_size]
    exact ⟨rfl, hkept _⟩
  · rw [U64.toNat_saturatingAdd, region.toNat_size]
    exact ⟨hkept _, rfl⟩

/-- The loop adds up the sizes, as long as the sums fit a word. -/
theorem foldl_add_bytes (regions : List MemoryRegion) (summary : MemorySummary)
    (husable : summary.usableBytes.toNat + usableSize regions < 2 ^ 64)
    (hreserved : summary.reservedBytes.toNat + reservedSize regions < 2 ^ 64) :
    (regions.foldl MemorySummary.add summary).usableBytes.toNat =
        summary.usableBytes.toNat + usableSize regions ∧
      (regions.foldl MemorySummary.add summary).reservedBytes.toNat =
        summary.reservedBytes.toNat + reservedSize regions := by
  induction regions generalizing summary with
  | nil => exact ⟨rfl, rfl⟩
  | cons region regions ih =>
    rw [usableSize_cons] at husable ⊢
    rw [reservedSize_cons] at hreserved ⊢
    rcases add_bytes summary region with ⟨hadd, hadd'⟩
    rcases ih (summary.add region) (by omega) (by omega) with ⟨hrest, hrest'⟩
    rw [List.foldl_cons]
    constructor
    · omega
    · omega

/-- Disjoint regions have no more bytes than there are addresses. -/
theorem sum_bytes_le {regions : List MemoryRegion} (h : PageMap regions) :
    (regions.map MemoryRegion.bytes).sum ≤ 2 ^ 52 := by
  have hnodup : (regions.flatMap fun region =>
      List.Ico region.start.toNat region.«end».toNat).Nodup := by
    rw [List.nodup_flatMap]
    refine ⟨fun region _ => List.Ico.nodup _ _, h.disjoint.imp ?_⟩
    intro region other hdisjoint address hmem hmem'
    exact hdisjoint address ⟨List.Ico.mem.mp hmem, List.Ico.mem.mp hmem'⟩
  have hsub : (regions.flatMap fun region =>
      List.Ico region.start.toNat region.«end».toNat).toFinset ⊆ Finset.range (2 ^ 52) := by
    intro address hmem
    rw [List.mem_toFinset, List.mem_flatMap] at hmem
    rcases hmem with ⟨region, hregion, hmem⟩
    have hbelow := h.below region hregion
    have hlt := (List.Ico.mem.mp hmem).2
    exact Finset.mem_range.mpr (by omega)
  have hcard := Finset.card_le_card hsub
  rw [List.toFinset_card_of_nodup hnodup, Finset.card_range, List.length_flatMap] at hcard
  simp only [List.Ico.length] at hcard
  exact hcard

/-- The bytes of an aligned region, counted in frames on both sides of 1 MiB. -/
theorem MemoryRegion.bytes_eq {region : MemoryRegion}
    (haligned : region.start.toNat % frameSize = 0 ∧ region.«end».toNat % frameSize = 0)
    (hbelow : region.«end».toNat ≤ 2 ^ 52) :
    region.bytes = frameSize * ((region.frameNumbers 0 firstNumber).length +
      (region.frameNumbers firstNumber numberLimit).length) := by
  have hlow : firstNumber = 256 := by decide
  have hhigh : numberLimit = 2 ^ 40 := by decide
  unfold MemoryRegion.bytes MemoryRegion.frameNumbers
  rw [List.Ico.length, List.Ico.length, hlow, hhigh]
  unfold frameSize at haligned ⊢
  have hstart := Nat.mul_div_cancel' (Nat.dvd_of_mod_eq_zero haligned.1)
  have hstop := Nat.mul_div_cancel' (Nat.dvd_of_mod_eq_zero haligned.2)
  generalize region.start.toNat / 4096 = first at *
  generalize region.«end».toNat / 4096 = last at *
  have hlast : last ≤ 2 ^ 40 := by omega
  rw [← hstart, ← hstop, min_eq_left hlast, Nat.max_zero]
  omega

/-- The bytes of a map are its frames. -/
theorem sum_bytes_eq {regions : List MemoryRegion}
    (haligned : ∀ region ∈ regions,
      region.start.toNat % frameSize = 0 ∧ region.«end».toNat % frameSize = 0)
    (hbelow : ∀ region ∈ regions, region.«end».toNat ≤ 2 ^ 52) :
    (regions.map MemoryRegion.bytes).sum = frameSize *
      ((regions.flatMap (MemoryRegion.frameNumbers 0 firstNumber)).length +
        (regions.flatMap (MemoryRegion.frameNumbers firstNumber numberLimit)).length) := by
  induction regions with
  | nil => rfl
  | cons region regions ih =>
    rw [List.forall_mem_cons] at haligned hbelow
    rw [List.map_cons, List.sum_cons, List.flatMap_cons, List.flatMap_cons, List.length_append,
      List.length_append, ih haligned.2 hbelow.2, MemoryRegion.bytes_eq haligned.1 hbelow.1]
    unfold frameSize
    omega

theorem ncard_mem_list {α : Type} [DecidableEq α] {xs : List α} (hnodup : xs.Nodup) :
    {x | x ∈ xs}.ncard = xs.length := by
  rw [← List.toFinset_card_of_nodup hnodup, ← Set.ncard_coe_finset]
  congr 1
  ext x
  simp

/-- The frames that the allocator can ever return. -/
def everReturned (regions : List MemoryRegion) : Set PhysFrame :=
  {frame | ∃ n, frame ∈ (init regions).allocated n}

/-- The frames of usable memory below 1 MiB. -/
def lowUsable (regions : List MemoryRegion) : Set PhysFrame :=
  {frame | frame.start.toNat % frameSize = 0 ∧ frame.start < minAllocatablePhysAddr ∧
    ∃ region ∈ regions, region.kind = .usable ∧ frame.Inside region}

section Summary

variable {regions : List MemoryRegion} (h : PageMap regions)
include h

/-- As many frames as the map has are ever returned. -/
theorem ncard_everReturned : (everReturned regions).ncard = (usableFrames regions).length := by
  have hlength := length_usableFrames_lt h
  have heq : everReturned regions = {frame | frame ∈ usableFrames regions} := by
    ext frame
    constructor
    · rintro ⟨n, hmem⟩
      have hfront := (allocated_take h.below n 0).subset hmem
      rwa [List.drop_zero, frames_eq h] at hfront
    · intro hmem
      refine ⟨(usableFrames regions).length, ?_⟩
      have hall := allocated_eq h.below (usableFrames regions).length 0 (by omega)
      rw [List.drop_zero, frames_eq h, List.take_length] at hall
      rw [init, hall]
      exact hmem
  rw [heq, ncard_mem_list (nodup_usableFrames h)]

/-- The usable frames below the limit, counted. -/
theorem ncard_lowUsable :
    (lowUsable regions).ncard = (usableNumbers 0 firstNumber regions).length := by
  have hle : firstNumber ≤ numberLimit := by decide
  have heq : lowUsable regions =
      {frame | frame ∈ (usableNumbers 0 firstNumber regions).map PhysFrame.numbered} := by
    ext frame
    have hmin : firstNumber * frameSize = minAllocatablePhysAddr.toNat := by decide
    rw [Set.mem_ofPred_eq, mem_numbered h hle, hmin, ← UInt64.lt_iff_toNat_lt]
    simp [lowUsable]
  rw [heq, ncard_mem_list (nodup_numbered h hle), List.length_map]

end Summary

open Syscall in
/-- **Summary.** On a map of disjoint aligned regions no sum of `summarize_memory` saturates,
the two sums make up the size of all regions, and the number of usable frames, which the system
call returns, is the number of frames that the allocator can ever return and of those below
1 MiB. -/
theorem summary_agrees {regions : List MemoryRegion} (h : PageMap regions) :
    let summary := summarizeMemory regions
    summary.usableBytes.toNat = usableSize regions ∧
    summary.reservedBytes.toNat = reservedSize regions ∧
    summary.usableBytes.toNat + summary.reservedBytes.toNat =
      (regions.map MemoryRegion.bytes).sum ∧
    summary.usableFrames4k.toNat = (everReturned regions).ncard + (lowUsable regions).ncard ∧
    (∀ k : Kernel, k.memorySummary = some summary → ∀ arg0 arg1 arg2,
      dispatch k syscallGetUsableFrames arg0 arg1 arg2 = .ok summary.usableFrames4k) ∧
    ∀ n, ((init regions).allocated n).length ≤ summary.usableFrames4k.toNat := by
  intro summary
  have htotal := usableSize_add_reservedSize regions
  have hbound := sum_bytes_le h
  have hfold := foldl_add_bytes regions
    { totalRegions := UInt64.ofNat regions.length, usableRegions := 0, usableBytes := 0,
      reservedBytes := 0, largestUsableRegionBytes := 0, usableFrames4k := 0 }
    (by rw [UInt64.toNat_zero]; omega) (by rw [UInt64.toNat_zero]; omega)
  simp only [UInt64.toNat_zero, Nat.zero_add] at hfold
  -- the sums of the loop do not wrap around, so they are those of the map
  have husable : summary.usableBytes.toNat = usableSize regions := hfold.1
  have hreserved : summary.reservedBytes.toNat = reservedSize regions := hfold.2
  have hfilter : ∀ region ∈ regions.filter (·.kind = .usable), region ∈ regions :=
    fun region hmem => List.mem_of_mem_filter hmem
  -- usable bytes are whole frames, below and above the limit of the allocator
  have hbytes : usableSize regions = frameSize *
      ((usableNumbers 0 firstNumber regions).length +
        (usableNumbers firstNumber numberLimit regions).length) :=
    sum_bytes_eq (fun region hmem => h.aligned region (hfilter region hmem))
      (fun region hmem => h.below region (hfilter region hmem))
  have hframes : summary.usableFrames4k.toNat =
      (everReturned regions).ncard + (lowUsable regions).ncard := by
    have hdiv : summary.usableFrames4k.toNat = summary.usableBytes.toNat / 4096 :=
      UInt64.toNat_div _ _
    rw [hdiv, husable, hbytes, ncard_everReturned h, ncard_lowUsable h, usableFrames,
      List.length_map]
    unfold frameSize
    omega
  refine ⟨husable, hreserved, by rw [husable, hreserved, htotal], hframes, ?_, ?_⟩
  · intro k hk arg0 arg1 arg2
    simp [dispatch, hk, syscallGetUsableFrames, syscallGetTicks, syscallGetUptimeSeconds,
      syscallAdd, syscallGetUsableMemory]
  · intro n
    have hfront := (allocated_take h.below n 0).length_le
    rw [List.drop_zero, frames_eq h] at hfront
    rw [hframes, ncard_everReturned h]
    exact hfront.trans (Nat.le_add_right _ _)

theorem summary_agrees_scattered :
    (summarizeMemory scatteredMap).usableFrames4k = 6 ∧
    (everReturned scatteredMap).ncard + (lowUsable scatteredMap).ncard = 6 := by
  have hmap : PageMap scatteredMap := ⟨scatteredMap_disjoint, by decide, by decide⟩
  have hsix : (summarizeMemory scatteredMap).usableFrames4k = 6 := by decide
  have hcount := (summary_agrees hmap).2.2.2.1
  rw [hsix] at hcount
  exact ⟨hsix, hcount.symm⟩

end JingOS.Memory
