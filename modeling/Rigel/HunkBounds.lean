import Rigel.Hunk

/-!
# HunkBounds — where a step of the loader reads and writes

A read of the file and a write to the guest are each guarded by a comparison, and the comparison is of a sum of 32 bits. The
guard does what it is for exactly if the sum does not wrap.
-/

namespace Rigel

/-! ## Spans of addresses -/

/-- **A span of 32-bit addresses** is below a bound exactly if it does not reach it, nor wraps. -/
theorem span_below_iff (a : UInt32) (n : Nat) {bound : Nat} (h : bound < 2 ^ 32) :
    (∀ k < n, (a + UInt32.ofNat k).toNat < bound) ↔ n = 0 ∨ a.toNat + n ≤ bound := by
  have hadd : ∀ k, (a + UInt32.ofNat k).toNat = (a.toNat + k) % 2 ^ 32 := by
    intro k
    rw [UInt32.toNat_add, UInt32.toNat_ofNat', Nat.add_mod_mod]
  have ha := a.toNat_lt
  constructor
  · intro hall
    by_contra hout
    by_cases hlow : bound ≤ a.toNat
    · have hfirst := hall 0 (by omega)
      rw [hadd, Nat.mod_eq_of_lt (by omega)] at hfirst
      omega
    · have hedge := hall (bound - a.toNat) (by omega)
      rw [hadd, Nat.mod_eq_of_lt (by omega)] at hedge
      omega
  · intro hin k hk
    rw [hadd, Nat.mod_eq_of_lt (by omega)]
    omega

/-- A span that does not wrap keeps its order. -/
theorem span_inside {a : UInt32} {n low high : Nat} (hlow : low ≤ a.toNat) (hhigh : a.toNat + n ≤ high) (h : high < 2 ^ 32)
    {k : Nat} (hk : k < n) : low ≤ (a + UInt32.ofNat k).toNat ∧ (a + UInt32.ofNat k).toNat < high := by
  rw [UInt32.toNat_add, UInt32.toNat_ofNat', Nat.add_mod_mod, Nat.mod_eq_of_lt (by omega)]
  omega

theorem rd32Reads_eq (f : HunkFile) (r : HunkReader) : rd32Reads f r =
    if r.pos + 4 > f.size then [] else (List.range 4).map fun k => (r.pos + UInt32.ofNat k).toNat := by
  have h0 : r.pos + UInt32.ofNat 0 = r.pos := UInt32.add_zero _
  have hrange : List.range 4 = [0, 1, 2, 3] := rfl
  unfold rd32Reads
  rw [hrange, List.map_cons, h0]
  rfl

theorem put32_eq (addr v : UInt32) : (put32 addr v).map Prod.fst = (List.range 4).map fun k => addr + UInt32.ofNat k := by
  have h0 : addr + UInt32.ofNat 0 = addr := UInt32.add_zero _
  have hrange : List.range 4 = [0, 1, 2, 3] := rfl
  unfold put32
  rw [hrange]
  simp only [List.map_cons, List.map_nil, h0]
  rfl

/-- The writes go to addresses from `low` on and below `high`. -/
def WritesInside (low high : Nat) (writes : List GuestWrite) : Prop := ∀ w ∈ writes, low ≤ w.1.toNat ∧ w.1.toNat < high

theorem writesInside_append {low high : Nat} {ws ws' : List GuestWrite} :
    WritesInside low high (ws ++ ws') ↔ WritesInside low high ws ∧ WritesInside low high ws' := by
  unfold WritesInside
  simp only [List.mem_append]
  exact ⟨fun h => ⟨fun w hw => h w (Or.inl hw), fun w hw => h w (Or.inr hw)⟩,
    fun h w hw => hw.elim (h.1 w) (h.2 w)⟩

theorem writesInside_map {low high : Nat} {ws : List GuestWrite} :
    WritesInside low high ws ↔ ∀ a ∈ ws.map Prod.fst, low ≤ a.toNat ∧ a.toNat < high := by
  unfold WritesInside
  rw [List.forall_mem_map]

theorem put32_inside {low high : Nat} {addr : UInt32} (hlow : low ≤ addr.toNat) (hhigh : addr.toNat + 4 ≤ high)
    (h : high < 2 ^ 32) (v : UInt32) : WritesInside low high (put32 addr v) := by
  rw [writesInside_map, put32_eq, List.forall_mem_map]
  exact fun k hk => span_inside hlow hhigh h (List.mem_range.mp hk)

theorem span_writesInside {low high : Nat} {a : UInt32} {n : Nat} (hlow : low ≤ a.toNat) (hhigh : a.toNat + n ≤ high)
    (h : high < 2 ^ 32) (v : Nat → UInt8) :
    WritesInside low high ((List.range n).map fun k => (a + UInt32.ofNat k, v k)) := by
  unfold WritesInside
  rw [List.forall_mem_map]
  exact fun k hk => span_inside hlow hhigh h (List.mem_range.mp hk)

/-! ## What may wrap -/

/-- The end of the next word wraps, and what is left of it passes for the end of a word of the file. -/
def WordWraps (f : HunkFile) (r : HunkReader) : Prop := 2 ^ 32 ≤ r.pos.toNat + 4 ∧ r.pos + 4 ≤ f.size

/-- The end of a CODE or DATA block wraps so, and the segment has room for the block. -/
def CopyWraps (f : HunkFile) (c : HunkLoader) (longs : UInt32) : Prop :=
  2 ^ 32 ≤ c.reader.pos.toNat + (longs * 4).toNat ∧ c.reader.pos + longs * 4 ≤ f.size ∧
    longs * 4 ≤ c.segSize c.block.toNat

/-- The end of a segment wraps so, or the segment before it ended so close to the end that its rounding did. -/
def ReserveWraps (load limit : UInt32) (c : HunkLoader) (longs : UInt32) : Prop :=
  let bytes := (longs &&& hunkTypeMask) * 4
  (2 ^ 32 ≤ c.cursor.toNat + 8 + bytes.toNat ∨ c.cursor < load) ∧ c.cursor + segHeader + bytes ≤ limit

/-- **No sum wraps that a read or a write depends on.** -/
def SumsFit (f : HunkFile) (load limit : UInt32) (c : HunkLoader) : Prop :=
  c.readsWord f = true →
    ¬ WordWraps f c.reader ∧
    (c.phase = .code → ¬ CopyWraps f { c with reader := (rd32 f c.reader).2 } (rd32 f c.reader).1) ∧
    ∀ i, c.phase = .segment i → ¬ ReserveWraps load limit c (rd32 f c.reader).1

/-- **A skip does not lead back.** -/
def SkipsForward (f : HunkFile) (c : HunkLoader) : Prop :=
  let (v, r) := rd32 f c.reader
  match c.phase with
  | .symbol => v ≠ 0 → r.pos ≤ r.pos + (v * 4 + 4)
  | .debug => r.pos ≤ r.pos + v * 4
  | _ => True

instance (f : HunkFile) (r : HunkReader) : Decidable (WordWraps f r) := inferInstanceAs (Decidable (_ ∧ _))

instance (f : HunkFile) (c : HunkLoader) (longs : UInt32) : Decidable (CopyWraps f c longs) :=
  inferInstanceAs (Decidable (_ ∧ _ ∧ _))

instance (load limit : UInt32) (c : HunkLoader) (longs : UInt32) : Decidable (ReserveWraps load limit c longs) :=
  inferInstanceAs (Decidable (_ ∧ _))

def HunkPhase.isSegment : HunkPhase → Bool
  | .segment _ => true
  | _ => false

def HunkPhase.isDone : HunkPhase → Bool
  | .done _ => true
  | _ => false

instance (f : HunkFile) (load limit : UInt32) (c : HunkLoader) : Decidable (SumsFit f load limit c) :=
  decidable_of_iff
    (c.readsWord f = true → ¬ WordWraps f c.reader ∧
      (c.phase = .code → ¬ CopyWraps f { c with reader := (rd32 f c.reader).2 } (rd32 f c.reader).1) ∧
      (c.phase.isSegment = true → ¬ ReserveWraps load limit c (rd32 f c.reader).1)) <| by
    unfold SumsFit
    cases c.phase <;> simp [HunkPhase.isSegment]

instance (f : HunkFile) (c : HunkLoader) : Decidable (SkipsForward f c) :=
  match h : c.phase with
  | .symbol => decidable_of_iff ((rd32 f c.reader).1 ≠ 0 → _) (by unfold SkipsForward; rw [h])
  | .debug => decidable_of_iff _ (by unfold SkipsForward; rw [h])
  | .magic | .names | .tableSize | .firstHunk | .lastHunk _ | .segment _ | .seglist | .block | .code | .bss | .relocCount
  | .relocTarget _ | .relocOffset _ _ | .done _ => .isTrue (by unfold SkipsForward; rw [h]; trivial)

theorem HunkPhase.isDone_iff {phase : HunkPhase} : phase.isDone = true ↔ ∃ result, phase = .done result := by
  cases phase <;> simp [HunkPhase.isDone]

theorem sumsFit_done {f : HunkFile} {load limit : UInt32} {c : HunkLoader} (h : c.phase.isDone = true) :
    SumsFit f load limit c := by
  obtain ⟨result, h⟩ := HunkPhase.isDone_iff.mp h
  intro hreads
  unfold HunkLoader.readsWord at hreads
  rw [h] at hreads
  exact absurd hreads Bool.false_ne_true

theorem skipsForward_done {f : HunkFile} {c : HunkLoader} (h : c.phase.isDone = true) : SkipsForward f c := by
  obtain ⟨result, h⟩ := HunkPhase.isDone_iff.mp h
  unfold SkipsForward
  rw [h]
  trivial

/-! ## Reads -/

theorem rd32Reads_inside_iff (f : HunkFile) (r : HunkReader) :
    (∀ o ∈ rd32Reads f r, o < f.size.toNat) ↔ ¬ WordWraps f r := by
  rw [rd32Reads_eq]
  unfold WordWraps
  have hadd : (r.pos + 4).toNat = (r.pos.toNat + 4) % 2 ^ 32 := UInt32.toNat_add r.pos 4
  have hpos := r.pos.toNat_lt
  have hsize := f.size.toNat_lt
  by_cases hover : r.pos + 4 > f.size
  · rw [if_pos hover]
    refine iff_of_true (fun o ho => absurd ho List.not_mem_nil) fun h => ?_
    exact absurd h.2 (UInt32.not_le.mpr hover)
  · have hle := UInt32.not_lt.mp hover
    have hle' := UInt32.le_iff_toNat_le.mp hle
    rw [if_neg hover, List.forall_mem_map]
    simp only [List.mem_range, hle, and_true]
    rw [span_below_iff r.pos 4 hsize, hadd] at *
    omega

theorem hunkCopy_reads_iff (f : HunkFile) (c : HunkLoader) (longs : UInt32) :
    (∀ o ∈ (hunkCopy f c longs).reads, o < f.size.toNat) ↔ ¬ CopyWraps f c longs := by
  unfold hunkCopy CopyWraps
  simp only
  have hadd : (c.reader.pos + longs * 4).toNat = (c.reader.pos.toNat + (longs * 4).toNat) % 2 ^ 32 := UInt32.toNat_add _ _
  have hpos := c.reader.pos.toNat_lt
  have hsize := f.size.toNat_lt
  have hbytes := (longs * 4).toNat_lt
  by_cases hover : c.reader.pos + longs * 4 > f.size
  · rw [if_pos hover]
    refine iff_of_true (fun o ho => absurd ho List.not_mem_nil) fun h => ?_
    exact absurd h.2.1 (UInt32.not_le.mpr hover)
  · have hle := UInt32.not_lt.mp hover
    have hle' := UInt32.le_iff_toNat_le.mp hle
    rw [if_neg hover]
    by_cases hlong : longs * 4 > c.segSize c.block.toNat
    · rw [if_pos hlong]
      refine iff_of_true (fun o ho => absurd ho List.not_mem_nil) fun h => ?_
      exact absurd h.2.2 (UInt32.not_le.mpr hlong)
    · have hfits := UInt32.not_lt.mp hlong
      rw [if_neg hlong, List.forall_mem_map]
      simp only [List.mem_range, hle, hfits, and_true]
      rw [span_below_iff c.reader.pos _ hsize]
      omega

/-- Beside the word, only a CODE or DATA block is read. -/
theorem hunkWord_reads (f : HunkFile) (load limit : UInt32) (mem : UInt32 → UInt8) {c : HunkLoader} (v : UInt32)
    (h : c.phase ≠ .code) : (hunkWord f load limit mem c v).reads = [] := by
  unfold hunkWord
  split
  case h_8 hcode => exact absurd hcode h
  all_goals rfl

theorem hunkStep_reading {f : HunkFile} {c : HunkLoader} (h : c.readsWord f = true) (load limit : UInt32)
    (mem : UInt32 → UInt8) :
    hunkStep f load limit mem c =
      { hunkWord f load limit mem { c with reader := (rd32 f c.reader).2 } (rd32 f c.reader).1 with
        reads := rd32Reads f c.reader ++
          (hunkWord f load limit mem { c with reader := (rd32 f c.reader).2 } (rd32 f c.reader).1).reads } := by
  unfold hunkStep
  rw [if_pos h]

theorem hunkStep_resting_reads {f : HunkFile} {c : HunkLoader} (h : ¬ c.readsWord f = true) (load limit : UInt32)
    (mem : UInt32 → UInt8) : (hunkStep f load limit mem c).reads = [] := by
  unfold hunkStep
  rw [if_neg h]
  split <;> rfl

/-- **The words and the blocks that a step reads are in the file** exactly if their ends do not wrap. -/
theorem hunkStep_reads_iff (f : HunkFile) (load limit : UInt32) (mem : UInt32 → UInt8) (c : HunkLoader) :
    (∀ o ∈ (hunkStep f load limit mem c).reads, o < f.size.toNat) ↔
      (c.readsWord f = true → ¬ WordWraps f c.reader ∧
        (c.phase = .code → ¬ CopyWraps f { c with reader := (rd32 f c.reader).2 } (rd32 f c.reader).1)) := by
  by_cases hreads : c.readsWord f = true
  · rw [hunkStep_reading hreads, ← rd32Reads_inside_iff]
    simp only [List.mem_append, hreads, forall_const, or_imp, forall_and]
    refine and_congr_right fun _ => ?_
    by_cases hcode : c.phase = .code
    · simp only [hcode, forall_const]
      rw [← hunkCopy_reads_iff]
      unfold hunkWord
      simp only
    · have hnone := hunkWord_reads f load limit mem (c := { c with reader := (rd32 f c.reader).2 }) (rd32 f c.reader).1 hcode
      rw [hnone]
      exact iff_of_true (fun o ho => absurd ho List.not_mem_nil) fun h => absurd h hcode
  · rw [hunkStep_resting_reads hreads]
    exact iff_of_true (fun o ho => absurd ho List.not_mem_nil) fun h => absurd h hreads

/-! ## Writes -/

/-- The segments that are reserved. -/
def HunkLoader.reserved (c : HunkLoader) : Nat :=
  match c.phase with
  | .magic | .names | .tableSize | .firstHunk | .lastHunk _ | .done _ => 0
  | .segment i => i
  | _ => c.count.toNat

/-- The loader is inside a block. -/
def HunkLoader.inBlock (c : HunkLoader) : Bool :=
  match c.phase with
  | .code | .bss | .relocCount | .relocTarget _ | .relocOffset _ _ | .symbol | .debug => true
  | _ => false

/-- **The invariant**: what is reserved lies between the two ends of the memory. -/
structure HunkInv (load limit : UInt32) (c : HunkLoader) : Prop where
  segments : ∀ i < c.reserved, load.toNat + 8 ≤ (c.segData i).toNat ∧
    (c.segData i).toNat + (c.segSize i).toNat ≤ limit.toNat
  next : ∀ i, c.phase = .segment i → i < c.count.toNat ∧ c.count.toNat ≤ 64
  block : c.inBlock = true → c.block < c.count

theorem span_fst (a : UInt32) (n : Nat) (v : Nat → UInt8) :
    ((List.range n).map fun k => (a + UInt32.ofNat k, v k)).map Prod.fst = (List.range n).map fun k => a + UInt32.ofNat k := by
  rw [List.map_map]
  rfl

theorem uint32_add_ofNat (a b : UInt32) (k : Nat) : a + b + UInt32.ofNat k = a + UInt32.ofNat (b.toNat + k) := by
  rw [UInt32.ofNat_add, UInt32.ofNat_toNat, UInt32.add_assoc]

/-- **A segment is reserved within the memory** exactly if its end does not wrap and the one before it did not. -/
theorem hunkReserve_inside_iff (load limit : UInt32) (c : HunkLoader) (i : Nat) (longs : UInt32) :
    WritesInside load.toNat limit.toNat (hunkReserve limit c i longs).2 ↔ ¬ ReserveWraps load limit c longs := by
  unfold hunkReserve ReserveWraps
  simp only
  generalize (longs &&& hunkTypeMask) * 4 = bytes
  have hseg : segHeader.toNat = 8 := rfl
  have hadd : (c.cursor + segHeader + bytes).toNat = (c.cursor.toNat + 8 + bytes.toNat) % 2 ^ 32 := by
    rw [UInt32.toNat_add, UInt32.toNat_add, hseg, Nat.mod_add_mod]
  have hcursor := c.cursor.toNat_lt
  have hbytes := bytes.toNat_lt
  have hlimit := limit.toNat_lt
  have hload : c.cursor < load ↔ c.cursor.toNat < load.toNat := UInt32.lt_iff_toNat_lt
  by_cases hover : c.cursor + segHeader + bytes > limit
  · rw [if_pos hover]
    refine iff_of_true (fun w hw => absurd hw List.not_mem_nil) fun h => ?_
    exact absurd h.2 (UInt32.not_le.mpr hover)
  · have hle := UInt32.not_lt.mp hover
    have hle' := UInt32.le_iff_toNat_le.mp hle
    rw [if_neg hover]
    simp only [hle, and_true, not_or, hload]
    constructor
    · intro hall
      -- all addresses of the segment are written, and so is an end that wraps
      have hspan : ∀ k < 8 + bytes.toNat, (c.cursor + UInt32.ofNat k).toNat < limit.toNat := by
        intro k hk
        have hmem : c.cursor + UInt32.ofNat k ∈ (put32 c.cursor bytes ++ put32 (c.cursor + 4) 0 ++
            (List.range bytes.toNat).map fun b => (c.cursor + segHeader + UInt32.ofNat b, 0)).map Prod.fst := by
          rw [List.map_append, List.map_append, put32_eq, put32_eq, span_fst, List.mem_append, List.mem_append]
          by_cases h4 : k < 4
          · exact Or.inl (Or.inl (List.mem_map.mpr ⟨k, List.mem_range.mpr h4, rfl⟩))
          · by_cases h8 : k < 8
            · refine Or.inl (Or.inr (List.mem_map.mpr ⟨k - 4, List.mem_range.mpr (by omega), ?_⟩))
              have hk : (4 : UInt32).toNat + (k - 4) = k := by
                have h44 : (4 : UInt32).toNat = 4 := rfl
                omega
              rw [uint32_add_ofNat, hk]
            · refine Or.inr (List.mem_map.mpr ⟨k - 8, List.mem_range.mpr (by omega), ?_⟩)
              have hk : segHeader.toNat + (k - 8) = k := by omega
              rw [uint32_add_ofNat, hk]
        exact (writesInside_map.mp hall _ hmem).2
      have hbelow := (span_below_iff c.cursor (8 + bytes.toNat) hlimit).mp hspan
      have hfirst := (hall (c.cursor, (bytes >>> 24).toUInt8) (by simp [put32])).1
      simp only at hfirst
      omega
    · rintro ⟨hwrap, hlow⟩
      have hdata : (c.cursor + segHeader).toNat = c.cursor.toNat + 8 := by
        rw [UInt32.toNat_add, hseg, Nat.mod_eq_of_lt (by omega)]
      have hlink : (c.cursor + 4).toNat = c.cursor.toNat + 4 := by
        have h4 : (4 : UInt32).toNat = 4 := rfl
        rw [UInt32.toNat_add, h4, Nat.mod_eq_of_lt (by omega)]
      rw [writesInside_append, writesInside_append]
      refine ⟨⟨put32_inside (by omega) (by omega) hlimit _, put32_inside (by omega) (by omega) hlimit _⟩, ?_⟩
      exact span_writesInside (by omega) (by omega) hlimit _

section
variable {load limit : UInt32} {c : HunkLoader}

theorem HunkInv.open_ (h : HunkInv load limit c) (hblock : c.inBlock = true) :
    load.toNat + 8 ≤ (c.segData c.block.toNat).toNat ∧
      (c.segData c.block.toNat).toNat + (c.segSize c.block.toNat).toNat ≤ limit.toNat := by
  have hlt := UInt32.lt_iff_toNat_lt.mp (h.block hblock)
  have hreserved : c.reserved = c.count.toNat := by
    unfold HunkLoader.inBlock at hblock
    unfold HunkLoader.reserved
    generalize c.phase = phase at hblock
    cases phase <;> first | rfl | exact absurd hblock Bool.false_ne_true
  exact h.segments _ (by omega)

theorem hunkLinks_inside (h : ∀ i < c.count.toNat, load.toNat + 8 ≤ (c.segData i).toNat ∧
    (c.segData i).toNat + (c.segSize i).toNat ≤ limit.toNat) : WritesInside load.toNat limit.toNat (hunkLinks c) := by
  have hlimit := limit.toNat_lt
  intro w hw
  unfold hunkLinks at hw
  obtain ⟨i, hi, hwi⟩ := List.mem_flatMap.mp hw
  have hlt := List.mem_range.mp hi
  obtain ⟨hlow, hhigh⟩ := h i (by omega)
  have h4 : (4 : UInt32).toNat = 4 := rfl
  have hsub : (c.segData i - 4).toNat = (c.segData i).toNat - 4 := by
    rw [UInt32.toNat_sub_of_le _ _ (UInt32.le_iff_toNat_le.mpr (by omega)), h4]
  exact put32_inside (by omega) (by omega) hlimit _ w hwi

theorem hunkCopy_inside (h : HunkInv load limit c) (hblock : c.inBlock = true) (f : HunkFile) (longs : UInt32) :
    WritesInside load.toNat limit.toNat (hunkCopy f c longs).writes := by
  obtain ⟨hlow, hhigh⟩ := h.open_ hblock
  unfold hunkCopy
  simp only
  split
  · exact fun w hw => absurd hw List.not_mem_nil
  · split
    · exact fun w hw => absurd hw List.not_mem_nil
    · rename_i hfits
      have hle := UInt32.le_iff_toNat_le.mp (UInt32.not_lt.mp hfits)
      exact span_writesInside (by omega) (by omega) limit.toNat_lt _

/-- An offset whose end wraps is of the link before the segment's data. -/
theorem hunkRelocate_inside (h : HunkInv load limit c) (hblock : c.inBlock = true) (mem : UInt32 → UInt8)
    (n target off : UInt32) : WritesInside load.toNat limit.toNat (hunkRelocate mem c n target off).2 := by
  obtain ⟨hlow, hhigh⟩ := h.open_ hblock
  unfold hunkRelocate
  simp only
  split
  · exact fun w hw => absurd hw List.not_mem_nil
  · split
    · exact fun w hw => absurd hw List.not_mem_nil
    · rename_i hfits
      have hle := UInt32.le_iff_toNat_le.mp (UInt32.not_lt.mp hfits)
      have h4 : (4 : UInt32).toNat = 4 := rfl
      rw [UInt32.toNat_add, h4] at hle
      have hoff := off.toNat_lt
      have hdata := (c.segData c.block.toNat).toNat_lt
      have hlimit := limit.toNat_lt
      have hsum : (c.segData c.block.toNat + off).toNat = ((c.segData c.block.toNat).toNat + off.toNat) % 2 ^ 32 :=
        UInt32.toNat_add _ _
      by_cases hwrap : 2 ^ 32 ≤ off.toNat + 4
      · have hmod : (off.toNat + 4) % 2 ^ 32 = off.toNat + 4 - 2 ^ 32 := by omega
        rw [hmod] at hle
        exact put32_inside (by omega) (by omega) hlimit _
      · rw [Nat.mod_eq_of_lt (by omega)] at hle
        exact put32_inside (by omega) (by omega) hlimit _

/-- **A step writes within the memory** exactly if it does not reserve a segment whose end wraps. -/
theorem hunkStep_writes_iff (h : HunkInv load limit c) (f : HunkFile) (mem : UInt32 → UInt8) :
    WritesInside load.toNat limit.toNat (hunkStep f load limit mem c).writes ↔
      (c.readsWord f = true → ∀ i, c.phase = .segment i → ¬ ReserveWraps load limit c (rd32 f c.reader).1) := by
  have hnone : WritesInside load.toNat limit.toNat [] := fun w hw => absurd hw List.not_mem_nil
  by_cases hreads : c.readsWord f = true
  · rw [hunkStep_reading hreads]
    simp only [hreads, forall_const]
    have hinv : HunkInv load limit { c with reader := (rd32 f c.reader).2 } := ⟨h.segments, h.next, h.block⟩
    generalize (rd32 f c.reader).1 = v
    generalize (rd32 f c.reader).2 = r at hinv
    obtain ⟨reader, phase, count, segData, segSize, cursor, block⟩ := c
    cases phase with
    | segment i =>
      refine (hunkReserve_inside_iff load limit _ i v).trans ⟨fun hfit j _ => hfit, fun hfit => hfit i rfl⟩
    | code =>
      refine iff_of_true (hunkCopy_inside hinv rfl f v) fun i hi => ?_
      cases hi
    | relocOffset n target =>
      refine iff_of_true (hunkRelocate_inside hinv rfl mem n target v) fun i hi => ?_
      cases hi
    | magic | names | tableSize | firstHunk | lastHunk first | seglist | block | bss | relocCount | relocTarget n | symbol |
      debug | done result =>
      refine iff_of_true hnone fun i hi => ?_
      cases hi
  · refine iff_of_true ?_ fun hreads' => absurd hreads' hreads
    unfold hunkStep
    rw [if_neg hreads]
    split
    · rename_i hseglist
      refine hunkLinks_inside fun i hi => h.segments i ?_
      unfold HunkLoader.reserved
      rw [hseglist]
      exact hi
    · exact hnone
    · exact hnone

end

end Rigel
