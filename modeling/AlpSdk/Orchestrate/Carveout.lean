import AlpSdk.Orchestrate.Aperture
import Mathlib

namespace AlpSdk.Orchestrate

-- Why a region is no target for a carve-out.
inductive Ineligible where
  | disagrees (cls : RegionClass) (derivedEligible : Bool) (carveout : Bool)
  | flashClass
  | authority (writeAuthority : Option WriteAuthority)
  | unresolvedCarveout (base : Field)
  | unresolvedAuthority (base : Field) (writeAuthority : WriteAuthority)
  | unresolvedUnflagged (base : Field)
  deriving DecidableEq

-- `_agree_or_refuse`: the legacy flag has to agree with the derived class.
def agreeOrRefuse (region : Region) (cls : RegionClass) (derivedEligible : Bool) :
    Except Ineligible Unit :=
  match region.carveout with
  | none => .ok ()
  | some carveout =>
      if carveout = derivedEligible then .ok () else .error (.disagrees cls derivedEligible carveout)

def regionIpcEligibility (region : Region) (aperture : Extent) (isPresetAuthored : Bool) :
    Except Ineligible Unit :=
  match classifyRegion region (some aperture) isPresetAuthored with
  | .flash => do
      agreeOrRefuse region .flash false
      .error .flashClass
  | .ram => agreeOrRefuse region .ram true
  | .unclassified => do
      let derivedEligible : Bool := region.writeAuthority = some .customerRuntime
      agreeOrRefuse region .unclassified derivedEligible
      if derivedEligible then .ok () else .error (.authority region.writeAuthority)
  | .unresolved =>
      match region.carveout, region.writeAuthority with
      | some carveout, _ => if carveout then .ok () else .error (.unresolvedCarveout region.base)
      | none, some wa =>
          if wa = .customerRuntime then .ok () else .error (.unresolvedAuthority region.base wa)
      | none, none => .error (.unresolvedUnflagged region.base)

inductive Kind where
  | rpmsg
  | rawShmem
  | mailboxOnly
  deriving DecidableEq

-- An entry of board.yaml's `ipc:`.
structure IpcEntry where
  name : String
  kind : Kind
  endpoints : List String
  carveOutKb : Int
  cacheable : Option Bool
  address : Option Int
  deriving DecidableEq

inductive Controller where
  | unset
  | tbd
  | named (node : String)
  deriving DecidableEq

structure Channel where
  id : Int
  reservedFor : Option String
  deriving DecidableEq

structure Mailbox where
  controller : Controller
  channels : List Channel

structure BoardProject where
  preset : SomPreset
  soc : Soc
  mailbox : Mailbox
  ipc : List IpcEntry

abbrev MAX_EXCLUDED_DETAIL : Nat := 6

-- Why an entry is blocked, with what its text interpolates.
inductive Reason where
  | mailboxController (isTbd : Bool)
  | noDefaultChannel
  | apertureUnresolved (silicon : String)
  | carveoutFalse (regions : List String)
  | ineligible (shown : List (String × Ineligible)) (omitted : Nat)
  | noRegion
  | baseUnmapped (region : String) (isTbd : Bool)
  | sizeUnresolvable (region : String)
  | notPageAligned (base : Int)
  | cannotBeChecked (base : Int)
  | outsideEveryRegion (base top : Int) (reachable : List (String × Extent))
  | overlaps (base : Int) (peer : String) (span : Extent) (region : String)
  | doesNotFit (region : String) (window : Option Extent)
  | endpointIdCollision (low : Nat) (prior : String)
  | noMailboxChannel (reservations : List (Option String))
  deriving DecidableEq

inductive CarveOutStatus where
  | ok
  | blocked (reason : Reason)
  deriving DecidableEq

structure ResolvedCarveOut where
  name : String
  kind : Kind
  endpoints : List String
  base : Int
  size : Int
  region : String
  cacheable : Bool
  srcEpt : Nat
  dstEpt : Nat
  mailboxChannel : Int
  status : CarveOutStatus
  deriving DecidableEq

def blockedCarveOut (entry : IpcEntry) (reason : Reason) : ResolvedCarveOut where
  name := entry.name
  kind := entry.kind
  endpoints := entry.endpoints
  base := 0
  size := 0
  region := ""
  cacheable := entry.cacheable.getD false
  srcEpt := 0
  dstEpt := 0
  mailboxChannel := 0
  status := .blocked reason

def fnv1a32 (data : List UInt8) : Nat :=
  data.foldl (fun h b => ((h ^^^ b.toNat) * 0x01000193) % 2 ^ 32) 0x811c9dc5

def alignDown (value alignment : Int) : Int := value - value % alignment

-- A span already handed out in a region, with the name of its entry.
structure Span where
  lo : Int
  hi : Int
  peer : String
  deriving DecidableEq

-- Python's order on the tuples, turned round by `reverse=True`.
def Span.before (a b : Span) : Bool :=
  if a.lo ≠ b.lo then b.lo < a.lo
  else if a.hi ≠ b.hi then b.hi < a.hi
  else decide (b.peer ≤ a.peer)

-- The two dictionaries of the allocator, keyed by region name.
structure Allocator where
  regionTop : String → Option Int
  placedSpans : String → List Span

def setTop (a : Allocator) (region : String) (top : Int) : Allocator :=
  { a with regionTop := Function.update a.regionTop region (some top) }

-- `_region_top_init`
def regionTopInit (a : Allocator) (region : Region) : Allocator × Except Reason Int :=
  match a.regionTop region.name with
  | some top => (a, .ok top)
  | none =>
      match region.base.int?, region.sizeBytes with
      | none, _ => (a, .error (.baseUnmapped region.name (region.base = .tbd)))
      | some _, none => (a, .error (.sizeUnresolvable region.name))
      | some base, some size =>
          let top := alignDown (base + size) PAGE
          (setTop a region.name top, .ok top)

-- A slice counts only if its base and its size are integers.
def AccessWindow.extent (win : AccessWindow) : Option Extent :=
  match win.base.int?, win.sizeBytes with
  | some base, some size => some (base, base + size)
  | _, _ => none

-- The well-formed slice the region declares for one core.
def accessWindow (region : Region) (core : String) : Option Extent :=
  (region.accessWindows.lookup core).bind AccessWindow.extent

def narrow (region : Region) (window : Extent) (core : String) : Extent :=
  match accessWindow region core with
  | none => window
  | some win => (max window.1 win.1, min window.2 win.2)

-- none is the exception of `int(region["base"])` on a sentinel
def wholeExtent (region : Region) : Option Extent :=
  region.base.int?.map fun base => (base, base + region.sizeBytes.getD 0)

-- `_endpoint_window`
def endpointWindow (region : Region) (endpoints : List String) : Option Extent :=
  (wholeExtent region).map fun whole =>
    (endpoints.dedup.insertionSort (· ≤ ·)).foldl (narrow region) whole

-- One pass of `_first_free_down` over the spans: the base, and whether it moved.
def stepDown (size : Int) (state : Int × Bool) (span : Span) : Int × Bool :=
  if state.1 < span.hi ∧ span.lo < state.1 + size then (alignDown (span.lo - size) PAGE, true)
  else state

-- The loop of `_first_free_down`; every pass that moves takes the base down by a page or more.
def descend (size floor : Int) (spans : List Span) : Nat → Int → Int
  | 0, base => base
  | fuel + 1, base =>
      if base < floor then base
      else
        let next := spans.foldl (stepDown size) (base, false)
        if next.2 then descend size floor spans fuel next.1 else next.1

def firstFreeDown (top size : Int) (spans : List Span) (floor : Int) : Int :=
  let base := alignDown (top - size) PAGE
  descend size floor (spans.insertionSort (fun a b => a.before b)) ((base - floor).toNat + 1) base

-- Which regions an entry may land in, before they are ranked.
inductive Filtered where
  | candidate (region : Region)
  | carveoutFalse (name : String)
  | ineligible (name : String) (why : Ineligible)

def Filtered.candidate? : Filtered → Option Region
  | .candidate region => some region
  | _ => none

def Filtered.carveoutFalse? : Filtered → Option String
  | .carveoutFalse name => some name
  | _ => none

def Filtered.ineligible? : Filtered → Option (String × Ineligible)
  | .ineligible name why => some (name, why)
  | _ => none

def filterRegion (aperture : Option Extent) (isPresetAuthored : Bool) (region : Region) : Filtered :=
  match aperture with
  | none =>
      if region.carveout = some false then .carveoutFalse region.name else .candidate region
  | some aperture =>
      match regionIpcEligibility region aperture isPresetAuthored with
      | .ok () => .candidate region
      | .error why => .ineligible region.name why

-- `_rank`, as the order `candidates.sort` uses.
def rankLe (prefersCacheable : Bool) (a b : Region) : Bool :=
  let cacheableMatch (r : Region) : Nat := if r.cacheable.getD false = prefersCacheable then 0 else 1
  let size (r : Region) : Int := if r.sizeBytes.getD 0 = 0 then 2 ^ 62 else r.sizeBytes.getD 0
  cacheableMatch a < cacheableMatch b ∨ cacheableMatch a = cacheableMatch b ∧ size a ≤ size b

section Project

variable (project : BoardProject)

abbrev BoardProject.memoryMap : List Region := resolveMemoryMap project.preset project.soc

def alifSilicon : String :=
  if "alif:".toList.isPrefixOf project.preset.silicon.toList then project.preset.silicon else ""

def filteredRegions (entry : IpcEntry) : List Filtered :=
  (project.memoryMap.filter fun r => entry.endpoints.all (· ∈ r.accessibleFrom)).map
    (filterRegion project.soc.aperture (isPresetAuthored project.preset))

-- `_candidate_regions`
def candidateRegions (entry : IpcEntry) : Except Reason (List Region) :=
  if project.soc.aperture = none ∧ alifSilicon project ≠ "" then
    .error (.apertureUnresolved (alifSilicon project))
  else
    let filtered := filteredRegions project entry
    let candidates := filtered.filterMap Filtered.candidate?
    let excludedNames := filtered.filterMap Filtered.carveoutFalse?
    let excludedDetail := filtered.filterMap Filtered.ineligible?
    if candidates = [] then
      if excludedNames ≠ [] then .error (.carveoutFalse excludedNames)
      else if excludedDetail ≠ [] then
        .error (.ineligible (excludedDetail.take MAX_EXCLUDED_DETAIL)
          (excludedDetail.length - MAX_EXCLUDED_DETAIL))
      else .error .noRegion
    else .ok (candidates.insertionSort fun a b => rankLe (entry.cacheable.getD false) a b)

-- `_carve_size_aligned`
def carveSizeAligned (entry : IpcEntry) : Int :=
  (entry.carveOutKb * 1024 + PAGE - 1) / PAGE * PAGE

-- `_overlap`
def overlap (a : Allocator) (region : String) (base size : Int) : Option Span :=
  (a.placedSpans region).find? fun s => ¬(base + size ≤ s.lo ∨ s.hi ≤ base)

def addSpan (a : Allocator) (region : String) (base size : Int) (peer : String) : Allocator :=
  { a with placedSpans :=
      Function.update a.placedSpans region (a.placedSpans region ++ [⟨base, base + size, peer⟩]) }

abbrev Placement : Type := Except Reason (Region × Int)

-- The search of `_place_pinned` for the region whose window holds the pinned range. It also
-- initialises the tops of the regions it looks at; none is the exception of `_endpoint_window`.
def choosePinned (entry : IpcEntry) (base size : Int) :
    List Region → Allocator → List (String × Extent) → Option Reason →
      Option (Allocator × Except Reason Region)
  | [], a, windows, tbdReason =>
      some (a, .error (if windows = [] then tbdReason.getD (.cannotBeChecked base)
        else .outsideEveryRegion base (base + size) windows))
  | region :: rest, a, windows, tbdReason =>
      match regionTopInit a region with
      | (a', .error reason) =>
          choosePinned entry base size rest a' windows (some (tbdReason.getD reason))
      | (a', .ok _) => do
          let window ← endpointWindow region entry.endpoints
          if window.1 ≤ base ∧ base + size ≤ window.2 then some (a', .ok region)
          else choosePinned entry base size rest a' (windows ++ [(region.name, window)]) tbdReason

-- `_place_pinned`
def placePinned (a : Allocator) (entry : IpcEntry) : Option (Allocator × Placement) :=
  match candidateRegions project entry with
  | .error reason => some (a, .error reason)
  | .ok candidates => do
      let base := entry.address.getD 0
      if base % PAGE ≠ 0 then some (a, .error (.notPageAligned base))
      else
        let size := carveSizeAligned entry
        match ← choosePinned entry base size candidates a [] none with
        | (a', .error reason) => some (a', .error reason)
        | (a', .ok chosen) =>
            match overlap a' chosen.name base size with
            | some clash =>
                some (a', .error (.overlaps base clash.peer (clash.lo, clash.hi) chosen.name))
            | none => some (addSpan a' chosen.name base size entry.name, .ok (chosen, base))

-- `_place_auto`
def placeAuto (a : Allocator) (entry : IpcEntry) : Option (Allocator × Placement) :=
  match candidateRegions project entry with
  | .error reason => some (a, .error reason)
  | .ok [] => none
  | .ok (chosen :: _) =>
      match regionTopInit a chosen with
      | (a', .error reason) => some (a', .error reason)
      | (a', .ok top) => do
          let size := carveSizeAligned entry
          let window ← endpointWindow chosen entry.endpoints
          let start := alignDown (min top window.2) PAGE
          let base := firstFreeDown start size (a'.placedSpans chosen.name) window.1
          if base < window.1 then
            some (a', .error (.doesNotFit chosen.name
              (if wholeExtent chosen = some window then none else some window)))
          else some (addSpan (setTop a' chosen.name base) chosen.name base size entry.name,
            .ok (chosen, base))

-- The allocator and the placements so far, keyed by index.
structure Placing where
  allocator : Allocator
  placement : Nat → Option Placement

def placeOne (place : Allocator → IpcEntry → Option (Allocator × Placement)) (s : Placing)
    (indexed : IpcEntry × Nat) : Option Placing := do
  let (a, result) ← place s.allocator indexed.1
  return ⟨a, Function.update s.placement indexed.2 (some result)⟩

-- One of the two passes over the placeable entries.
def placePass (place : Allocator → IpcEntry → Option (Allocator × Placement))
    (selected : IpcEntry → Bool) : List (IpcEntry × Nat) → Placing → Option Placing
  | [], s => some s
  | indexed :: rest, s =>
      if selected indexed.1 then do placePass place selected rest (← placeOne place s indexed)
      else placePass place selected rest s

def rpmsgBlockReason : Option Reason :=
  if project.ipc.any (·.kind = .rpmsg) then
    match project.mailbox.controller with
    | .unset => some (.mailboxController false)
    | .tbd => some (.mailboxController true)
    | .named _ =>
        if project.mailbox.channels.any (·.reservedFor = some "alp_default_rpmsg") then none
        else some .noDefaultChannel
  else none

def sortedEntries : List IpcEntry := project.ipc.insertionSort fun a b => a.name ≤ b.name

-- The reason that blocks an entry before it is placed.
def mailboxBlocked (entry : IpcEntry) : Option Reason :=
  if entry.kind = .rpmsg then rpmsgBlockReason project else none

def placeable : List (IpcEntry × Nat) :=
  (sortedEntries project).zipIdx.filter fun indexed => mailboxBlocked project indexed.1 = none

def emptyPlacing : Placing := ⟨⟨fun _ => none, fun _ => []⟩, fun _ => none⟩

-- Explicit addresses first, then the others around them.
def placements : Option Placing := do
  let pinned ← placePass (placePinned project) (·.address.isSome) (placeable project) emptyPlacing
  placePass (placeAuto project) (·.address.isNone) (placeable project) pinned

-- `_resolve_mailbox_channel`
def resolveMailboxChannel (entryName : String) (claimed : List Int) : Except Reason Int :=
  match project.mailbox.channels.find? (·.reservedFor = some entryName) with
  | some ch => .ok ch.id
  | none =>
      let free := (project.mailbox.channels.filter fun ch =>
        ch.reservedFor = some "app" ∧ ch.id ∉ claimed).map (·.id)
      match free.insertionSort (· ≤ ·) with
      | first :: _ => .ok first
      | [] => .error (.noMailboxChannel (project.mailbox.channels.map (·.reservedFor)).dedup)

-- What the emission loop carries from entry to entry.
structure Emitting where
  claimedChannels : List Int
  seenLowBytes : List (Nat × String)

def claimedUpFront : List Int :=
  (project.mailbox.channels.filter fun ch =>
    (sortedEntries project).any fun e => ch.reservedFor = some e.name).map (·.id)

def lowByte (entry : IpcEntry) : Nat :=
  fnv1a32 (entry.name.toList.flatMap String.utf8EncodeChar) &&& 0x0FF

-- One entry of the emission loop.
def emitOne (s : Placing) (st : Emitting) (entry : IpcEntry) (index : Nat) :
    Emitting × ResolvedCarveOut :=
  match mailboxBlocked project entry with
  | some reason => (st, blockedCarveOut entry reason)
  | none =>
      match s.placement index with
      | some (.ok (chosen, base)) =>
          let low := lowByte entry
          match st.seenLowBytes.lookup low with
          | some prior => (st, blockedCarveOut entry (.endpointIdCollision low prior))
          | none =>
              let st := { st with seenLowBytes := (low, entry.name) :: st.seenLowBytes }
              match resolveMailboxChannel project entry.name st.claimedChannels with
              | .error reason => (st, blockedCarveOut entry reason)
              | .ok mbox =>
                  ({ st with claimedChannels := mbox :: st.claimedChannels },
                    { name := entry.name
                      kind := entry.kind
                      endpoints := entry.endpoints
                      base := base
                      size := carveSizeAligned entry
                      region := chosen.name
                      cacheable := entry.cacheable.getD (chosen.cacheable.getD false)
                      srcEpt := 0x400 ||| low
                      dstEpt := (0x400 ||| low) + 1
                      mailboxChannel := mbox
                      status := .ok })
      | some (.error reason) => (st, blockedCarveOut entry reason)
      -- every entry that is not blocked has been placed by one of the two passes
      | none => (st, blockedCarveOut entry .noRegion)

def emit (s : Placing) : List (IpcEntry × Nat) → Emitting → List ResolvedCarveOut
  | [], _ => []
  | (entry, index) :: rest, st =>
      let (st', out) := emitOne project s st entry index
      out :: emit s rest st'

-- `resolve_carve_outs`; none where it raises.
def resolveCarveOuts : Option (List ResolvedCarveOut) :=
  if project.ipc = [] then some []
  else do
    let s ← placements project
    return emit project s (sortedEntries project).zipIdx ⟨claimedUpFront project, []⟩

end Project

end AlpSdk.Orchestrate
