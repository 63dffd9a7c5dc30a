import Mathlib.Data.Int.Basic

namespace AlpSdk.Orchestrate

-- `_PAGE`, the granularity of carve-outs.
abbrev PAGE : Int := 4096

-- A metadata field that holds an integer, the `TBD` sentinel, or is absent.
inductive Field where
  | unset
  | tbd
  | int (value : Int)
  deriving DecidableEq

def Field.int? : Field → Option Int
  | .int value => some value
  | _ => none

-- `write_authority:` of a row.
inductive WriteAuthority where
  | customerImage
  | vendorImage
  | customerRuntime
  | secureEnclave
  | none
  | composite
  deriving DecidableEq

-- One core's slice of a region.
structure AccessWindow where
  base : Field
  sizeMib : Field
  sizeKib : Field
  deriving DecidableEq

-- A row of `memory_map:`.
structure Region where
  name : String
  base : Field
  sizeMib : Field
  sizeKib : Field
  accessibleFrom : List String
  accessWindows : List (String × AccessWindow)
  cacheable : Option Bool
  carveout : Option Bool
  writeAuthority : Option WriteAuthority
  deriving DecidableEq

-- `_region_size_bytes`
def sizeBytes (sizeMib sizeKib : Field) : Option Int :=
  match sizeMib.int? with
  | some mib => some (mib * 1024 * 1024)
  | none => sizeKib.int?.map fun kib => kib * 1024

def Region.sizeBytes (region : Region) : Option Int :=
  Orchestrate.sizeBytes region.sizeMib region.sizeKib

def AccessWindow.sizeBytes (win : AccessWindow) : Option Int :=
  Orchestrate.sizeBytes win.sizeMib win.sizeKib

-- `[lo, hi)`
abbrev Extent : Type := Int × Int

def regionExtent (region : Region) : Option Extent :=
  match region.base.int?, region.sizeBytes with
  | some base, some size => some (base, base + size)
  | _, _ => none

inductive RegionClass where
  | flash
  | ram
  | unclassified
  | unresolved
  deriving DecidableEq

def isWholeDeviceAlias (ext aperture : Extent) : Bool :=
  ext.1 = aperture.1 ∧ ext.2 = aperture.2

def classifyRegion (region : Region) (aperture : Option Extent) (isPresetAuthored : Bool) :
    RegionClass :=
  match regionExtent region, aperture with
  | none, _ => .unresolved
  | some _, none => .unresolved
  | some ext, some full =>
      if isWholeDeviceAlias ext full then .flash
      else if full.1 ≤ ext.1 ∧ ext.2 ≤ full.2 then .flash
      else if isPresetAuthored = false then .ram
      else .unclassified

-- What the metadata root says of the SoM's SoC: its fixed `memory_regions`, the rows its silicon
-- variant derives, and the on-die MRAM aperture, none where it does not resolve.
structure Soc where
  memoryRegions : List Region
  variantRegions : List Region
  aperture : Option Extent

-- A SoM preset, as far as carve-outs read it.
structure SomPreset where
  sku : String
  silicon : String
  memoryMap : List Region

-- An explicit `memory_map:` wins verbatim.
def resolveMemoryMap (preset : SomPreset) (soc : Soc) : List Region :=
  if preset.memoryMap ≠ [] then preset.memoryMap
  else if soc.memoryRegions ≠ [] then
    soc.memoryRegions.map fun r => { r with writeAuthority := some .customerRuntime }
  else soc.variantRegions

def isPresetAuthored (preset : SomPreset) : Bool := preset.memoryMap ≠ []

end AlpSdk.Orchestrate
