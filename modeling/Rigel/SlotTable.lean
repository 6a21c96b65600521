import Rigel.AgnusDma

/-!
# SlotTable — who owns each colour clock of a line

The static half of `timing/slot_scheduler.c`. A line has 227 slots; `agnus_slot_scheduler_rebuild` assigns each an
owner from DMACON, the fetch window, the depth and the line's number, and gives every bitplane slot the index of the
word it fetches. The scheduler caches the result; the setters mark the cache dirty. What runs on a slot is in
`Scheduler`.
-/

namespace Rigel

inductive SlotOwner where
  | free
  | refresh
  | disk
  | audio (ch : Fin 4)
  | sprite (sp : Fin 8)
  | bitplane
  | copper
  | blitter
  | cpu
  deriving Repr, DecidableEq

def agnusSlotsPerLine : Nat := 227

structure SlotScheduler where
  table : Nat → SlotOwner
  bitplaneSlotIndex : Nat → UInt16
  hpos : UInt16
  dmacon : UInt16
  ddfstrt : UInt16
  ddfstop : UInt16
  depth : UInt16
  lineIsVbl : Bool
  tableDirty : Bool
  copperActive : Bool
  copperRequest : Bool
  blitterNasty : Bool
  blitterActive : Bool
  fetchPlaneIndex : UInt16
  bitplaneDmaThisLine : Bool
  bitplaneWordsThisLine : UInt16
  bitplaneLineDepth : UInt16
  bitplaneLineBase : Nat → UInt32
  bitplaneLineBaseValid : Bool
  hires : Bool
  vstrt : UInt16

/-! ## The table builder -/

/-- The two arrays that a rebuild fills, and the running word index of the bitplane loops. -/
structure SlotTables where
  owner : Nat → SlotOwner
  index : Nat → UInt16
  bitplaneSlots : UInt16

def fillSlot (t : SlotTables) (hpos : Nat) (owner : SlotOwner) : SlotTables :=
  if hpos < agnusSlotsPerLine then { t with owner := Function.update t.owner hpos owner } else t

def fillBitplaneSlot (t : SlotTables) (hpos : Nat) (logicalIndex : UInt16) : SlotTables :=
  if hpos < agnusSlotsPerLine then
    { t with
      owner := Function.update t.owner hpos .bitplane
      index := Function.update t.index hpos logicalIndex }
  else t

def fillWhen (b : Bool) (fills : List (Nat × SlotOwner)) (t : SlotTables) : SlotTables :=
  if b then fills.foldl (fun t f => fillSlot t f.1 f.2) t else t

def deniseMaxPlaneWords : Nat := 64

/-- The inputs of a rebuild that the scheduler caches. -/
structure SlotInputs where
  dmacon : UInt16
  ddfstrt : UInt16
  ddfstop : UInt16
  depth : UInt16
  hires : Bool
  vstrt : UInt16
  deriving Repr, DecidableEq

def bitplaneWordsPerPlane (s : SlotInputs) : Nat :=
  let depth := s.depth &&& 0x7
  if depth = 0 ∨ depth > 6 then 0
  else
    let start := (s.ddfstrt &&& (if s.hires then 0x00FE else 0x00FC)).toNat
    let stop := (s.ddfstop &&& 0x00FE).toNat
    if stop ≤ start then (if s.hires then 40 else 20)
    else
      let words :=
        if s.hires then (stop - start) / 4 + (if (stop - start) &&& 4 ≠ 0 then 3 else 2)
        else (stop - start) / 8 + 1
      min words deniseMaxPlaneWords

/-- The hires fetch loop: every slot from DDFSTRT on, until the target count or the end of the line. -/
def hiresFill (target : UInt16) : Nat → Nat → SlotTables → SlotTables
  | 0, _, t => t
  | fuel + 1, h, t =>
    if h < agnusSlotsPerLine ∧ t.bitplaneSlots < target then
      hiresFill target fuel (h + 1)
        { fillBitplaneSlot t h t.bitplaneSlots with bitplaneSlots := t.bitplaneSlots + 1 }
    else t

/-- The fetch order of the planes inside an eight-clock lores unit. -/
def loresPlaneOrder (plane : Nat) : Nat := [7, 3, 5, 1, 6, 2, 4, 0].getD plane 0

def loresFill (start words depth : Nat) (t : SlotTables) : SlotTables :=
  (List.range words).foldl (fun t word =>
    (List.range depth).foldl (fun t plane =>
      { fillBitplaneSlot t (start + word * 8 + loresPlaneOrder plane) t.bitplaneSlots with
        bitplaneSlots := t.bitplaneSlots + 1 }) t) t

def bitplaneFill (s : SlotInputs) (vpos : UInt16) (t : SlotTables) : SlotTables :=
  if !agnusInVblZone vpos && vpos ≥ s.vstrt && dmaconBplenOn s.dmacon then
    if s.hires then
      hiresFill (UInt16.ofNat (bitplaneWordsPerPlane s) * (s.depth &&& 0x7)) agnusSlotsPerLine s.ddfstrt.toNat t
    else loresFill s.ddfstrt.toNat (bitplaneWordsPerPlane s) (s.depth &&& 0x7).toNat t
  else t

def spriteFills : List (Nat × SlotOwner) :=
  (List.finRange 8).flatMap fun sp => [(0x15 + 4 * sp.val, .sprite sp), (0x17 + 4 * sp.val, .sprite sp)]

/-- `agnus_slot_scheduler_rebuild` as a function of its inputs: every slot CPU, then refresh, disk, audio, sprites
and bitplanes over it, and what is still CPU becomes FREE when master DMA is on. -/
def buildSlotTables (s : SlotInputs) (vpos : UInt16) (refresh : RefreshDmaState) : SlotTables :=
  let t : SlotTables := ⟨fun _ => .cpu, fun _ => 0xFFFF, 0⟩
  let t := { t with owner := fun i =>
    if i < agnusSlotsPerLine ∧ refreshDmaOwnsSlot refresh (UInt16.ofNat i) then .refresh else t.owner i }
  let t := fillWhen (dmaconDskenOn s.dmacon) [(0x07, .disk), (0x09, .disk)] t
  let t := fillWhen (dmaconAuden s.dmacon 0) [(0x0B, .audio 0)] t
  let t := fillWhen (dmaconAuden s.dmacon 1) [(0x0D, .audio 1)] t
  let t := fillWhen (dmaconAuden s.dmacon 2) [(0x0F, .audio 2)] t
  let t := fillWhen (dmaconAuden s.dmacon 3) [(0x11, .audio 3)] t
  let t := fillWhen (dmaconSprenOn s.dmacon) spriteFills t
  let t := bitplaneFill s vpos t
  { t with owner := fun i => if t.owner i = .cpu ∧ dmaconMaster s.dmacon then .free else t.owner i }

/-- The table under the bitplane fetch: refresh, disk, audio and sprites. -/
def slotUnderlay (s : SlotInputs) (refresh : RefreshDmaState) : SlotTables :=
  let t : SlotTables :=
    ⟨fun i => if i < agnusSlotsPerLine ∧ refreshDmaOwnsSlot refresh (UInt16.ofNat i) then .refresh else .cpu,
      fun _ => 0xFFFF, 0⟩
  let t := fillWhen (dmaconDskenOn s.dmacon) [(0x07, .disk), (0x09, .disk)] t
  let t := fillWhen (dmaconAuden s.dmacon 0) [(0x0B, .audio 0)] t
  let t := fillWhen (dmaconAuden s.dmacon 1) [(0x0D, .audio 1)] t
  let t := fillWhen (dmaconAuden s.dmacon 2) [(0x0F, .audio 2)] t
  let t := fillWhen (dmaconAuden s.dmacon 3) [(0x11, .audio 3)] t
  fillWhen (dmaconSprenOn s.dmacon) spriteFills t

/-! ## The cache and its setters -/

def slotInputs (s : SlotScheduler) : SlotInputs := ⟨s.dmacon, s.ddfstrt, s.ddfstop, s.depth, s.hires, s.vstrt⟩

def agnusSlotSchedulerRebuild (s : SlotScheduler) (vpos : UInt16) (refresh : RefreshDmaState) : SlotScheduler :=
  { s with
    table := (buildSlotTables (slotInputs s) vpos refresh).owner
    bitplaneSlotIndex := (buildSlotTables (slotInputs s) vpos refresh).index
    lineIsVbl := agnusInVblZone vpos
    tableDirty := false }

/-- `agnus_slot_scheduler_init`. The bitplane index and the line bases are not cleared. -/
def agnusSlotSchedulerInit (s : SlotScheduler) : SlotScheduler :=
  { s with
    table := fun _ => .cpu
    hpos := 0
    dmacon := 0
    ddfstrt := 0x35
    ddfstop := 227
    depth := 0
    lineIsVbl := false
    tableDirty := true
    copperActive := false
    copperRequest := false
    blitterNasty := false
    blitterActive := false
    fetchPlaneIndex := 0
    bitplaneDmaThisLine := false
    bitplaneWordsThisLine := 0
    bitplaneLineDepth := 0
    bitplaneLineBaseValid := false
    hires := false
    vstrt := agnusVblLineEnd + 1 }

def agnusSlotSchedulerInvalidate (s : SlotScheduler) (dmacon : UInt16) : SlotScheduler :=
  { s with dmacon := dmacon, tableDirty := true }

def agnusSlotSchedulerSetHires (s : SlotScheduler) (hires : Bool) : SlotScheduler :=
  if s.hires ≠ hires then { s with hires := hires, tableDirty := true } else s

def agnusSlotSchedulerSetVstrt (s : SlotScheduler) (diwstrt : UInt16) : SlotScheduler :=
  if s.vstrt ≠ (diwstrt >>> 8) &&& 0x00FF then { s with vstrt := (diwstrt >>> 8) &&& 0x00FF, tableDirty := true }
  else s

def agnusSlotSchedulerSetDdf (s : SlotScheduler) (ddfstrt ddfstop : UInt16) : SlotScheduler :=
  { s with ddfstrt := ddfstrt &&& 0x00FC, ddfstop := ddfstop &&& 0x00FC, tableDirty := true }

def agnusSlotSchedulerSetDepth (s : SlotScheduler) (depth : UInt16) : SlotScheduler :=
  if s.depth ≠ depth &&& 0x7 then { s with depth := depth &&& 0x7, tableDirty := true } else s

/-! ## Queries -/

/-- The first of `n` slots from `h` on whose owner satisfies `p`. -/
def slotSearch (p : SlotOwner → Bool) (table : Nat → SlotOwner) : Nat → Nat → Option Nat
  | 0, _ => none
  | n + 1, h => if p (table h) then some h else slotSearch p table n (h + 1)

/-- The search loop of `next_event` and `cpu_resume_in`, with the line's end as its default. -/
def cyclesToSlot (p : SlotOwner → Bool) (s : SlotScheduler) (lineClocks : UInt16) : UInt32 :=
  let start := (s.hpos + 1).toNat
  match slotSearch p s.table (lineClocks.toNat - start) start with
  | some h => UInt32.ofNat h - s.hpos.toUInt32
  | none => lineClocks.toUInt32 - s.hpos.toUInt32

def agnusSlotSchedulerNextEvent (s : SlotScheduler) (lineClocks : UInt16) : UInt32 :=
  if s.tableDirty then 1 else cyclesToSlot (fun o => o != .cpu && o != .free) s lineClocks

/-- The blitter and copper overrides as the queries apply them to a table entry. -/
def dynamicOwner (s : SlotScheduler) (o : SlotOwner) : SlotOwner :=
  if s.blitterActive then
    if o = .free ∨ (s.blitterNasty ∧ o = .cpu) then .blitter else o
  else if s.copperRequest ∧ o = .free then .copper
  else o

def agnusSlotSchedulerCurrentOwner (s : SlotScheduler) : SlotOwner :=
  if s.hpos.toNat ≥ agnusSlotsPerLine then .cpu else dynamicOwner s (s.table s.hpos.toNat)

def agnusSlotSchedulerCpuStall (s : SlotScheduler) : Bool :=
  agnusSlotSchedulerCurrentOwner s != .cpu && agnusSlotSchedulerCurrentOwner s != .free

def agnusSlotSchedulerCpuResumeIn (s : SlotScheduler) (lineClocks : UInt16) : UInt32 :=
  if s.tableDirty then 1
  else cyclesToSlot (fun o => dynamicOwner s o == .cpu || dynamicOwner s o == .free) s lineClocks

end Rigel
