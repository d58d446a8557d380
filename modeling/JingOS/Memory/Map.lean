import JingOS.Lib.U64
import Mathlib.Data.List.Basic

/-!
# The boot memory map (`kernel/src/memory.rs`)

The regions the bootloader reports and the summary the kernel keeps of them.
-/

namespace JingOS.Memory

/-- `MemoryRegionKind` of the bootloader; `other` stands for the variants that the kernel
does not tell apart. -/
inductive MemoryRegionKind where
  | usable
  | bootloader
  | unknownUefi (tag : UInt32)
  | unknownBios (tag : UInt32)
  | other
deriving DecidableEq, Repr

/-- `MemoryRegion`. -/
structure MemoryRegion where
  start : UInt64
  «end» : UInt64
  kind : MemoryRegionKind
deriving DecidableEq, Repr

/-- What the loop over the map sums up. -/
structure MemorySummary where
  totalRegions : UInt64
  usableRegions : UInt64
  usableBytes : UInt64
  reservedBytes : UInt64
  largestUsableRegionBytes : UInt64
  usableFrames4k : UInt64
deriving DecidableEq, Repr

/-- `region.end.saturating_sub(region.start)`. -/
def MemoryRegion.size (region : MemoryRegion) : UInt64 :=
  U64.saturatingSub region.«end» region.start

/-- The loop body of `summarize_memory`. -/
def MemorySummary.add (summary : MemorySummary) (region : MemoryRegion) : MemorySummary :=
  if region.kind = .usable then
    { summary with
      usableRegions := summary.usableRegions + 1
      usableBytes := U64.saturatingAdd summary.usableBytes region.size
      largestUsableRegionBytes := max summary.largestUsableRegionBytes region.size }
  else
    { summary with reservedBytes := U64.saturatingAdd summary.reservedBytes region.size }

/-- `summarize_memory`. -/
def summarizeMemory (regions : List MemoryRegion) : MemorySummary :=
  let summary := regions.foldl MemorySummary.add
    { totalRegions := UInt64.ofNat regions.length, usableRegions := 0, usableBytes := 0,
      reservedBytes := 0, largestUsableRegionBytes := 0, usableFrames4k := 0 }
  { summary with usableFrames4k := summary.usableBytes / 4096 }

/-- `memory_region_kind_name`. -/
def memoryRegionKindName : MemoryRegionKind → String
  | .usable => "usable"
  | .bootloader => "bootloader"
  | .unknownUefi _ => "unknown_uefi"
  | .unknownBios _ => "unknown_bios"
  | .other => "other"

end JingOS.Memory
