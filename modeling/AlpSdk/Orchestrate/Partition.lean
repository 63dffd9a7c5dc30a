import AlpSdk.Orchestrate.Aperture
import Mathlib

namespace AlpSdk.Orchestrate.Partition

-- A row of `memory_map:` with the label of its Devicetree node, none where it declares no string.
structure Row extends Region where
  dtLabel : Option String
  deriving DecidableEq

-- An entry of `on_module.ospi_memories:`.
structure OspiMemory where
  assembled : Option Bool
  capacityMbit : Field
  dtLabel : Option String

-- A SoM preset, as far as storage reads it: the rows `resolve_memory_map` gives, the OSPI parts,
-- and what `resolve_aperture` gives.
structure Som where
  memoryMap : List Row
  ospiMemories : List (String × OspiMemory)
  aperture : Option Extent

inductive FileSystem where
  | littlefs
  | fat
  | ext4
  | raw
  deriving DecidableEq

structure StorageEntry where
  name : String
  sizeKib : Int
  fs : FileSystem
  mount : Option String
  flashDevice : Option String
  offsetKib : Option Int
  deriving DecidableEq

-- A reserved region or a sibling, as offsets in the device: `[lo, hi)`.
structure Span where
  lo : Int
  hi : Int
  name : String
  deriving DecidableEq

-- The order of `sorted` on tuples.
def Span.before (a b : Span) : Bool :=
  a.lo < b.lo ∨ a.lo = b.lo ∧ (a.hi < b.hi ∨ a.hi = b.hi ∧ a.name ≤ b.name)

-- The reasons of `_composite_alias_coverage_gap`, with what their texts name.
inductive CoverageGap where
  | noAnchor
  | partialOverlap (name : String) (region window : Extent)
  | noWriteAuthority (name : String)
  | overlaps (name : String) (region : Extent) (prev : Option String) (cursor : Int)
  | gap (window gap : Extent) (candidates : List String)
  deriving DecidableEq

-- Why `_reserved_spans` refuses to convert.
inductive Degraded where
  | noAddressedRegion
  | noDeclaredBase (capacityBytes : Int) (window : Extent)
  deriving DecidableEq

inductive Where where
  | pinned (offsetKib : Int)
  | auto (offsetKib : Int)
  deriving DecidableEq

-- What the text of an overlap with a region advises.
inductive Remedy where
  | pickOffset (alternatives : List String)
  | fullyTiled (capacityKib : Int) (alternatives : List String)
  deriving DecidableEq

inductive Reason where
  | noFlashDevice
  | subPartition
  | notCustomerWritable (authority : WriteAuthority)
  | noWriteAuthority
  | sizeUnset
  | coverage (why : CoverageGap)
  | notReserved (why : Degraded)
  | notAssembled
  | capacityTbd
  | capacityMissing
  | unknownDevice
  | notPageAligned (offsetKib : Int)
  | overruns (offsetKib capacityKib : Int) (reserved : Option (List String × Int))
  | overlapsRegion (at_ : Where) (region : String) (remedy : Remedy)
  | overlapsSibling (at_ : Where) (peer : String)
  | unverifiedLabel (dtLabel : String) (alternatives : List String)
  deriving DecidableEq

inductive Status where
  | ok
  | blocked
  deriving DecidableEq

structure ResolvedPartition where
  name : String
  fs : FileSystem
  flashDevice : String
  dtLabel : String
  baseKib : Int
  sizeKib : Int
  mount : Option String
  status : Status
  reason : Option Reason
  deriving DecidableEq

-- The descriptor of a flash device.
structure Descriptor where
  name : String
  dtLabel : String
  sizeBytes : Int
  deriving DecidableEq

-- `(value + _PAGE - 1) // _PAGE * _PAGE`
def alignUp (value : Int) : Int := (value + PAGE - 1) / PAGE * PAGE

-- `is_partition_inside_aperture`
def isPartitionInsideAperture (region : Region) (aperture : Option Extent) : Option Bool :=
  match aperture, regionExtent region with
  | some full, some ext =>
      if isWholeDeviceAlias ext full then some false
      else if full.1 ≤ ext.1 ∧ ext.2 ≤ full.2 then some true
      else none
  | _, _ => none

section Devices

variable (som : Som)

-- `_is_flash_sub_partition`
def isFlashSubPartition (row : Row) : Bool :=
  (isPartitionInsideAperture row.toRegion som.aperture).getD (row.carveout = some false)

-- `_is_ospi_key_unassembled`
def isOspiKeyUnassembled (key : String) : Bool :=
  match som.ospiMemories.lookup key with
  | some memory => memory.assembled = some false
  | none => false

-- `_known_flash_devices`
def knownFlashDevices : List String :=
  let rows := (som.memoryMap.filter fun row => ¬isFlashSubPartition som row).map (·.name)
  let keys := (som.ospiMemories.map (·.1)).filter fun key => ¬isOspiKeyUnassembled som key
  (rows ++ keys).dedup.insertionSort (· ≤ ·)

-- The rows with a base and a size, as absolute spans.
def sized : List Span :=
  som.memoryMap.filterMap fun row =>
    match row.base.int?, row.sizeBytes with
    | some base, some size => if size = 0 then none else some ⟨base, base + size, row.name⟩
    | _, _ => none

def deviceRow (device : String) : Option Row := som.memoryMap.find? (·.name = device)

-- The address of a device's first byte, as `_reserved_spans` derives it.
def deviceOrigin (device : String) (capacityBytes : Int) : Except Degraded Int :=
  match (deviceRow som device).bind (·.base.int?), sized som with
  | _, [] => .error .noAddressedRegion
  | some base, _ => .ok base
  | none, first :: rest =>
      let origin := rest.foldl (fun lo s => min lo s.lo) first.lo
      let windowTop := rest.foldl (fun hi s => max hi s.hi) first.hi
      if origin + capacityBytes ≠ windowTop then
        .error (.noDeclaredBase capacityBytes (origin, windowTop))
      else .ok origin

-- The device is no obstacle inside itself, nor is a region that spans the whole window.
def isSkipped (device : String) (origin capacityBytes : Int) (s : Span) : Bool :=
  s.name = device ∨ s.lo ≤ origin ∧ capacityBytes ≤ s.hi - s.lo

def reserve (device : String) (origin capacityBytes : Int) (s : Span) : Option Span :=
  if isSkipped device origin capacityBytes s then none
  else
    let lo := max (s.lo - origin) 0
    let hi := min (s.hi - origin) capacityBytes
    if lo < hi then some ⟨lo, hi, s.name⟩ else none

-- `_reserved_spans`
def reservedSpans (device : String) (capacityBytes : Int) : Except Degraded (List Span) := do
  let origin ← deviceOrigin som device capacityBytes
  return ((sized som).filterMap (reserve device origin capacityBytes)).insertionSort
    fun a b => a.before b

-- The loop of `_composite_alias_coverage_gap` over the siblings.
def consult (window : Extent) : List Row → List Span → List String →
    Except CoverageGap (List Span × List String)
  | [], contained, ambiguous => .ok (contained, ambiguous)
  | row :: rest, contained, ambiguous =>
      match regionExtent row.toRegion with
      | none => consult window rest contained (ambiguous ++ [row.name])
      | some ext =>
          if window.2 ≤ ext.1 ∨ ext.2 ≤ window.1 then consult window rest contained ambiguous
          else if ¬(window.1 ≤ ext.1 ∧ ext.2 ≤ window.2) then
            .error (.partialOverlap row.name ext window)
          else if row.writeAuthority = none ∧ som.aperture ≠ none then
            .error (.noWriteAuthority row.name)
          else consult window rest (contained ++ [⟨ext.1, ext.2, row.name⟩]) ambiguous

-- The walk over the contained spans in address order, up to the first gap.
def walk : List Span → Int → Option String → Except CoverageGap Int
  | [], cursor, _ => .ok cursor
  | s :: rest, cursor, prev =>
      if s.lo < cursor then .error (.overlaps s.name (s.lo, s.hi) prev cursor)
      else if cursor < s.lo then .ok cursor
      else walk rest s.hi (some s.name)

def aliasOrigin (aliasBase : Option Int) (siblings : List Row) : Option Int :=
  match aliasBase, som.aperture with
  | some base, _ => some base
  | none, some aperture => some aperture.1
  | none, none => (siblings.filterMap (·.base.int?)).min?

-- `_composite_alias_coverage_gap`
def compositeAliasCoverageGap (alias_ : String) (aliasBase : Option Int) (capacityBytes : Int) :
    Except CoverageGap Unit :=
  let siblings := som.memoryMap.filter (·.name ≠ alias_)
  match aliasOrigin som aliasBase siblings with
  | none => .error .noAnchor
  | some origin => do
      let top := origin + capacityBytes
      let (contained, ambiguous) ← consult som (origin, top) siblings [] []
      let cursor ← walk (contained.insertionSort fun a b => a.before b) origin none
      if cursor < top then
        .error (.gap (origin, top) (cursor, top) (ambiguous.insertionSort (· ≤ ·)))
      else .ok ()

-- A `memory_map:` row as a flash device.
def resolveRow (row : Row) : Except Reason Descriptor :=
  if isFlashSubPartition som row then .error .subPartition
  else
    match row.writeAuthority with
    | some .customerImage => .error (.notCustomerWritable .customerImage)
    | some .vendorImage => .error (.notCustomerWritable .vendorImage)
    | some .secureEnclave => .error (.notCustomerWritable .secureEnclave)
    | some .none => .error (.notCustomerWritable .none)
    | authority =>
        if authority = none ∧ som.aperture ≠ none then .error .noWriteAuthority
        else
          match row.sizeBytes with
          | none => .error .sizeUnset
          | some sizeBytes => do
              if authority = some .composite then
                (compositeAliasCoverageGap som row.name row.base.int? sizeBytes).mapError .coverage
                let _ ← (reservedSpans som row.name sizeBytes).mapError .notReserved
              return ⟨row.name, row.dtLabel.getD row.name, sizeBytes⟩

-- An `on_module.ospi_memories:` key as a flash device.
def resolveOspi (key : String) (memory : OspiMemory) : Except Reason Descriptor :=
  if isOspiKeyUnassembled som key then .error .notAssembled
  else
    match memory.capacityMbit with
    | .tbd => .error .capacityTbd
    | .unset => .error .capacityMissing
    | .int mbit => .ok ⟨key, memory.dtLabel.getD key, mbit * 1024 * 1024 / 8⟩

-- `_resolve_flash_device`
def resolveFlashDevice (device : String) : Except Reason Descriptor :=
  match deviceRow som device, som.ospiMemories.lookup device with
  | some row, _ => resolveRow som row
  | none, some memory => resolveOspi som device memory
  | none, none => .error .unknownDevice

-- `_has_real_dt_label`
def hasRealDtLabel (device : String) : Bool :=
  match deviceRow som device with
  | some row => row.dtLabel.isSome
  | none => false

def isOspiDevice (device : String) : Bool := (som.ospiMemories.lookup device).isSome

def verifiedDtLabel (device : String) : Bool := isOspiDevice som device ∨ hasRealDtLabel som device

-- `_verified_alt_devices`; an overlap with a region also excludes the reserved names.
def verifiedAltDevices (excluded : List String) : List String :=
  (knownFlashDevices som).filter fun device =>
    device ∉ excluded ∧ hasRealDtLabel som device ∧ (resolveFlashDevice som device).toBool

end Devices

def stepUp (size : Int) (state : Int × Bool) (s : Span) : Int × Bool :=
  if state.1 < s.hi ∧ s.lo < state.1 + size then (alignUp s.hi, true) else state

-- The loop of `_first_free`; every pass that moves takes the base up.
def ascend (size capacityBytes : Int) (spans : List Span) : Nat → Int → Int
  | 0, base => base
  | fuel + 1, base =>
      let next := spans.foldl (stepUp size) (base, false)
      if capacityBytes ≤ next.1 then next.1
      else if next.2 then ascend size capacityBytes spans fuel next.1
      else next.1

def firstFree (base size : Int) (allocated : List Span) (capacityBytes : Int) : Int :=
  ascend size capacityBytes (allocated.insertionSort fun a b => a.before b)
    ((capacityBytes - base).toNat + 1) base

def sizeAligned (entry : StorageEntry) : Int := alignUp (entry.sizeKib * 1024)

-- A flash device with what placement needs to know of it.
structure Device where
  descriptor : Descriptor
  reserved : List Span

-- `allocated` and the high-water mark.
structure Allocator where
  allocated : List Span
  highWater : Int

abbrev Placement : Type := Except Reason Int

section Placing

variable (som : Som) (device : Device)

def reservedNames : List String := device.reserved.map (·.name)

def reservedBytes : Int := (device.reserved.map fun s => s.hi - s.lo).sum

-- The advice of an overlap with a region.
def remedy : Remedy :=
  let capacityBytes := device.descriptor.sizeBytes
  let alternatives := verifiedAltDevices som (device.descriptor.name :: reservedNames device)
  if reservedBytes device < capacityBytes then .pickOffset alternatives
  else .fullyTiled (capacityBytes / 1024) alternatives

def overlap (allocated : List Span) (base top : Int) : Option Span :=
  allocated.find? fun s => ¬(top ≤ s.lo ∨ s.hi ≤ base)

def overlapReason (entry : StorageEntry) (base : Int) (peer : Span) : Reason :=
  let at_ : Where :=
    match entry.offsetKib with
    | some offsetKib => .pinned offsetKib
    | none => .auto (base / 1024)
  if peer.name ∈ reservedNames device then .overlapsRegion at_ peer.name (remedy som device)
  else .overlapsSibling at_ peer.name

-- Where an entry goes before it is checked: its own offset or the first free page.
def choose (a : Allocator) (entry : StorageEntry) : Placement :=
  match entry.offsetKib with
  | some offsetKib =>
      if offsetKib * 1024 % PAGE ≠ 0 then .error (.notPageAligned offsetKib)
      else .ok (offsetKib * 1024)
  | none =>
      .ok (firstFree a.highWater (sizeAligned entry) a.allocated device.descriptor.sizeBytes)

def check (a : Allocator) (entry : StorageEntry) (base : Int) : Placement :=
  let capacityBytes := device.descriptor.sizeBytes
  let top := base + sizeAligned entry
  if capacityBytes < top then
    .error (.overruns (base / 1024) (capacityBytes / 1024)
      (if entry.offsetKib = none ∧ device.reserved ≠ [] then
        some ((reservedNames device).dedup.insertionSort (· ≤ ·), reservedBytes device / 1024)
      else none))
  else
    match overlap a.allocated base top with
    | some peer => .error (overlapReason som device entry base peer)
    | none =>
        if ¬verifiedDtLabel som device.descriptor.name then
          .error (.unverifiedLabel device.descriptor.dtLabel
            (verifiedAltDevices som [device.descriptor.name]))
        else .ok base

-- `_place`; only an entry that is placed leaves a span.
def place (a : Allocator) (entry : StorageEntry) : Allocator × Placement :=
  let result := do check som device a entry (← choose device a entry)
  match result with
  | .ok base =>
      ({ a with allocated := a.allocated ++ [⟨base, base + sizeAligned entry, entry.name⟩] },
        .ok base)
  | .error reason => (a, .error reason)

-- `_place` in the second pass, which also moves the high-water mark.
def placeAuto (a : Allocator) (entry : StorageEntry) : Allocator × Placement :=
  match place som device a entry with
  | (a', .ok base) => ({ a' with highWater := base + sizeAligned entry }, .ok base)
  | (a', .error reason) => (a', .error reason)

end Placing

-- The allocator and the placements so far, keyed by index.
structure Placing where
  allocator : Allocator
  placement : Nat → Option Placement

-- One of the two passes over the entries.
def placePass (put : Allocator → StorageEntry → Allocator × Placement)
    (selected : StorageEntry → Bool) : List (StorageEntry × Nat) → Placing → Placing
  | [], s => s
  | (entry, index) :: rest, s =>
      if selected entry then
        let (a, result) := put s.allocator entry
        placePass put selected rest ⟨a, Function.update s.placement index (some result)⟩
      else placePass put selected rest s

section Resolving

variable (som : Som)

def isPinned (entry : StorageEntry) : Bool := entry.offsetKib.isSome

def isAuto (entry : StorageEntry) : Bool := entry.offsetKib.isNone

-- Explicit offsets first, then the others around them.
def placements (device : Device) (entries : List StorageEntry) : Placing :=
  let start : Placing := ⟨⟨device.reserved, 0⟩, fun _ => none⟩
  let pinned := placePass (place som device) isPinned entries.zipIdx start
  placePass (placeAuto som device) isAuto entries.zipIdx pinned

-- `_blocked_partition`
def blockedPartition (entry : StorageEntry) (reason : Reason) : ResolvedPartition where
  name := entry.name
  fs := entry.fs
  flashDevice := entry.flashDevice.getD ""
  dtLabel := ""
  baseKib := 0
  sizeKib := entry.sizeKib
  mount := entry.mount
  status := .blocked
  reason := some reason

def emitOne (descriptor : Descriptor) (s : Placing) (entry : StorageEntry) (index : Nat) :
    ResolvedPartition :=
  match s.placement index with
  | some (.ok base) =>
      { name := entry.name
        fs := entry.fs
        flashDevice := descriptor.name
        dtLabel := descriptor.dtLabel
        baseKib := base / 1024
        sizeKib := sizeAligned entry / 1024
        mount := entry.mount
        status := .ok
        reason := none }
  | some (.error reason) => blockedPartition entry reason
  -- every entry has been placed by one of the two passes
  | none => blockedPartition entry .unknownDevice

-- The device an entry names; an empty name counts as none.
def StorageEntry.device? (entry : StorageEntry) : Option String :=
  entry.flashDevice.filter (· ≠ "")

def deviceEntries (storage : List StorageEntry) (device : String) : List StorageEntry :=
  (storage.filter (·.device? = some device)).insertionSort fun a b => a.name ≤ b.name

def deviceOf (descriptor : Descriptor) : Device :=
  ⟨descriptor, ((reservedSpans som descriptor.name descriptor.sizeBytes).toOption).getD []⟩

def resolveDevice (storage : List StorageEntry) (device : String) : List ResolvedPartition :=
  match resolveFlashDevice som device with
  | .error reason =>
      (storage.filter (·.device? = some device)).map fun entry => blockedPartition entry reason
  | .ok descriptor =>
      let entries := deviceEntries storage device
      let s := placements som (deviceOf som descriptor) entries
      entries.zipIdx.map fun (entry, index) => emitOne descriptor s entry index

def devices (storage : List StorageEntry) : List String :=
  (storage.filterMap (·.device?)).dedup.insertionSort (· ≤ ·)

-- `resolve_storage_partitions`
def resolveStoragePartitions (storage : List StorageEntry) : List ResolvedPartition :=
  (storage.filter (·.device? = none)).map (fun entry => blockedPartition entry .noFlashDevice) ++
    (devices storage).flatMap (resolveDevice som storage)

end Resolving

end AlpSdk.Orchestrate.Partition
