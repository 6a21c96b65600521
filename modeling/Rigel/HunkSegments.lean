import Rigel.HunkMemory
import Rigel.Leads

/-!
# HunkSegments — the first pass of the loader

The header, the table of sizes and the links: at the end of the pass every segment is where the layout has it, with its size
and its link, and its data is zero.
-/

namespace Rigel

section
variable {σ : Type*} {g : HunkGuest σ} {e : HunkExecutable} {load limit : UInt32} {f : HunkFile} {phase : HunkPhase}
  {pos count reserved block : Nat} {cells : Nat → Nat → UInt8} {v : UInt32}

/-! ## The header -/

theorem hunkStart_at (ctx : σ) : HunkAt g e load .magic 0 0 0 0
    (fun i k => g.read8 ctx (UInt32.ofNat (e.start load i + k))) ⟨hunkStart load, ctx⟩ where
  loader := by
    have hzero : UInt32.ofNat (e.start load 0) = load := UInt32.ofNat_toNat
    rw [hzero]
    rfl
  segments i hi := absurd hi (Nat.not_lt_zero i)
  memory i _ k _ := rfl

theorem magic_leads (hv : f.word 0 = some hunkHeader) :
    Leads (hunkMachineStep g f load limit) (HunkAt g e load .magic 0 0 0 0 cells) (HunkAt g e load .names 4 0 0 0 cells) :=
  Leads.of_step fun _ h => h.moves hv trivial (by decide) fun _ _ _ _ => rfl

theorem names_lead : ∀ {ws : List UInt32} {pos : Nat}, (∀ w ∈ ws, w ≠ 0) → f.Holds pos (ws ++ [0]) →
    Leads (hunkMachineStep g f load limit) (HunkAt g e load .names pos 0 0 0 cells)
      (HunkAt g e load .tableSize (pos + 4 * (ws.length + 1)) 0 0 0 cells)
  | [], pos, _, hholds => Leads.of_step fun _ h => h.moves hholds.1 trivial (by decide) fun _ _ _ _ => rfl
  | w :: ws, pos, hne, hholds => by
    have hnext : Leads (hunkMachineStep g f load limit) (HunkAt g e load .names pos 0 0 0 cells)
        (HunkAt g e load .names (pos + 4) 0 0 0 cells) := by
      refine Leads.of_step fun _ h => h.moves hholds.1 trivial (by decide) fun _ _ _ _ => ?_
      simp only [hunkWord]
      rw [if_pos (hne w List.mem_cons_self)]
      rfl
    have hlen : pos + 4 * ((w :: ws).length + 1) = pos + 4 + 4 * (ws.length + 1) := by
      rw [List.length_cons]
      omega
    rw [hlen]
    exact hnext.trans (names_lead (fun w' hw' => hne w' (List.mem_cons_of_mem w hw')) hholds.2)

theorem range_leads {first : UInt32} {n : Nat} (hn : 0 < n) (h64 : n ≤ 64) (hfirst : first.toNat + n ≤ 2 ^ 32)
    (hv : f.word pos = some (first + UInt32.ofNat (n - 1))) :
    Leads (hunkMachineStep g f load limit) (HunkAt g e load (.lastHunk first) pos 0 0 0 cells)
      (HunkAt g e load (.segment 0) (pos + 4) n 0 0 cells) := by
  refine Leads.of_step fun _ h => h.moves hv trivial (by decide) fun mem segData segSize cursor => ?_
  have hlast : (first + UInt32.ofNat (n - 1)).toNat = first.toNat + (n - 1) := by
    rw [UInt32.toNat_add, toNat_ofNat_small (by omega), Nat.mod_eq_of_lt (by omega)]
  have hle : ¬ first + UInt32.ofNat (n - 1) < first := by
    rw [UInt32.not_lt, UInt32.le_iff_toNat_le, hlast]
    omega
  have hcount : first + UInt32.ofNat (n - 1) - first + 1 = UInt32.ofNat n := by
    have hsucc : UInt32.ofNat (n - 1) + 1 = UInt32.ofNat (n - 1 + 1) := (UInt32.ofNat_add (n - 1) 1).symm
    rw [UInt32.add_comm first, UInt32.add_sub_cancel, hsucc, Nat.sub_add_cancel hn]
  have hsmall := toNat_ofNat_small (by omega : n < 2 ^ 32)
  have hmany : ¬ UInt32.ofNat n > maxHunks := by
    have h64' : maxHunks.toNat = 64 := rfl
    rw [gt_iff_lt, UInt32.not_lt, UInt32.le_iff_toNat_le, hsmall, h64']
    exact h64
  have hpos : 0 < UInt32.ofNat n := by
    rw [UInt32.lt_iff_toNat_lt, hsmall]
    exact hn
  simp only [hunkWord, hunkRange, hcount]
  rw [if_neg Bool.false_ne_true, if_neg hle, if_neg hmany, if_pos hpos]

/-! ## The segments -/

/-- Rounding up to a multiple of 32, as the source does it. -/
theorem roundUp_eq (x : Nat) : (UInt32.ofNat x + 31) &&& ~~~31 = UInt32.ofNat ((x + 31) / 32 * 32) := by
  have hsum : UInt32.ofNat x + 31 = UInt32.ofNat (x + 31) := (UInt32.ofNat_add x 31).symm
  have hmask : (~~~31 : UInt32).toNat = (2 ^ 27 - 1) * 2 ^ 5 := by decide
  rw [hsum]
  generalize x + 31 = y
  apply UInt32.toNat_inj.mp
  rw [UInt32.toNat_and, hmask, UInt32.toNat_ofNat', UInt32.toNat_ofNat']
  apply Nat.eq_of_testBit_eq
  intro j
  have h32 : 32 = 2 ^ 5 := rfl
  rw [Nat.testBit_and, Nat.testBit_mod_two_pow, Nat.testBit_mul_two_pow, Nat.testBit_two_pow_sub_one, Nat.testBit_mod_two_pow,
    h32, Nat.testBit_mul_two_pow, Nat.testBit_div_two_pow]
  by_cases h5 : 5 ≤ j
  · rw [Nat.sub_add_cancel h5]
    by_cases hj : j < 32
    · have hj' : j - 5 < 27 := by omega
      simp [h5, hj, hj']
    · simp [hj]
  · simp [h5]

theorem hunkBytes_lt (size : UInt32) : hunkBytes size < 2 ^ 32 := by
  have hmask : (size &&& hunkTypeMask).toNat ≤ hunkTypeMask.toNat := by
    rw [UInt32.toNat_and]
    exact Nat.and_le_right
  have hmax : hunkTypeMask.toNat = 2 ^ 30 - 1 := rfl
  unfold hunkBytes
  omega

theorem ofNat_hunkBytes (size : UInt32) : (size &&& hunkTypeMask) * 4 = UInt32.ofNat (hunkBytes size) := by
  unfold hunkBytes
  rw [UInt32.ofNat_mul, UInt32.ofNat_toNat]
  rfl

/-- A segment as it is reserved. -/
def freshCells (e : HunkExecutable) (i : Nat) : Nat → UInt8 := segCells (UInt32.ofNat (e.size i)) 0 fun _ => 0

/-- The memory while the segments are reserved. -/
def reservedCells (e : HunkExecutable) (cells : Nat → Nat → UInt8) (i j : Nat) : Nat → UInt8 :=
  if j < i then freshCells e j else cells j

theorem HunkExecutable.size_eq {i : Nat} (hi : i < e.hunks.length) : e.size i = hunkBytes e.hunks[i].size := by
  unfold HunkExecutable.size
  rw [List.getElem?_eq_getElem hi]
  rfl

/-- The size, the link and the data of a segment make all of it. -/
theorem painted_segCells (bytes : Nat → UInt8) (size link : UInt32) (img : Nat → UInt8) {n k : Nat} (hk : k < 8 + n) :
    painted (painted (painted bytes 0 4 (longByte size)) 4 4 (longByte link)) 8 n img k = segCells size link img k := by
  unfold painted segCells
  by_cases h4 : k < 4
  · rw [if_neg (by omega), if_neg (by omega), if_pos (by omega), if_pos h4, Nat.sub_zero]
  · by_cases h8 : k < 8
    · rw [if_neg (by omega), if_pos (by omega), if_neg h4, if_pos h8]
    · rw [if_pos (by omega), if_neg h4, if_neg h8]

theorem hunkReserve_room (hfits : e.Fits load limit) {i : Nat} (hi : i < e.hunks.length) (segData segSize : Nat → UInt32) :
    hunkReserve limit ⟨⟨UInt32.ofNat pos, false⟩, .segment i, UInt32.ofNat e.hunks.length, segData, segSize,
        UInt32.ofNat (e.start load i), UInt32.ofNat 0⟩ i e.hunks[i].size =
      (⟨⟨UInt32.ofNat pos, false⟩, if i + 1 < e.hunks.length then .segment (i + 1) else .seglist,
          UInt32.ofNat e.hunks.length, Function.update segData i (e.dataAddr load i),
          Function.update segSize i (UInt32.ofNat (e.size i)), UInt32.ofNat (e.start load (i + 1)), UInt32.ofNat 0⟩,
        span (UInt32.ofNat (e.start load i + 0)) 4 (longByte (UInt32.ofNat (e.size i))) ++
          span (UInt32.ofNat (e.start load i + 4)) 4 (longByte 0) ++
          span (UInt32.ofNat (e.start load i + 8)) (e.size i) fun _ => 0) := by
  have hend := hfits i hi
  have hlimit := limit.toNat_lt
  have hn := toNat_ofNat_small (Nat.lt_of_le_of_lt e.few (by decide))
  have hbytes : (e.hunks[i].size &&& hunkTypeMask) * 4 = UInt32.ofNat (e.size i) := by
    rw [e.size_eq hi]
    exact ofNat_hunkBytes _
  have hdata : UInt32.ofNat (e.start load i) + segHeader = UInt32.ofNat (e.start load i + 8) :=
    (UInt32.ofNat_add (e.start load i) 8).symm
  have hsum : UInt32.ofNat (e.start load i + 8) + UInt32.ofNat (e.size i) =
      UInt32.ofNat (e.start load i + 8 + e.size i) := (UInt32.ofNat_add _ _).symm
  have hroom : ¬ UInt32.ofNat (e.start load i + 8 + e.size i) > limit := by
    rw [gt_iff_lt, UInt32.not_lt, UInt32.le_iff_toNat_le, toNat_ofNat_small (by omega)]
    exact hend
  have hsize : (UInt32.ofNat (e.size i)).toNat = e.size i := by
    rw [e.size_eq hi]
    exact toNat_ofNat_small (hunkBytes_lt _)
  unfold hunkReserve
  simp only [hbytes, hsum, hdata, hn, put32_span, ofNat_add_four, roundUp_eq, hsize]
  rw [if_neg hroom]
  by_cases hmore : i + 1 < e.hunks.length
  · rw [if_pos hmore, if_pos hmore]
    rfl
  · rw [if_neg hmore, if_neg hmore, if_neg Bool.false_ne_true]
    rfl

/-- **A segment is reserved** where the layout has it. -/
theorem segment_leads (hram : RamOn g load limit) (hfits : e.Fits load limit) {i : Nat} (hi : i < e.hunks.length)
    (hv : f.word pos = some e.hunks[i].size) :
    Leads (hunkMachineStep g f load limit)
      (HunkAt g e load (.segment i) pos e.hunks.length i 0 (reservedCells e cells i))
      (HunkAt g e load (if i + 1 < e.hunks.length then .segment (i + 1) else .seglist) (pos + 4) e.hunks.length (i + 1) 0
        (reservedCells e cells (i + 1))) := by
  refine Leads.of_step fun s h => ?_
  have hcount : e.hunks.length < 2 ^ 32 := Nat.lt_of_le_of_lt e.few (by decide)
  rw [h.step hv trivial hcount]
  simp only [hunkWord, hunkReserve_room hfits hi]
  refine ⟨rfl, fun j hj => ?_, ?_⟩
  · rcases Nat.lt_succ_iff_lt_or_eq.mp hj with hlt | rfl
    · simp only [Function.update_of_ne (Nat.ne_of_lt hlt)]
      exact h.segments j hlt
    · simp only [Function.update_self]
      exact ⟨trivial, trivial⟩
  · have h0 := h.memory.span hram hfits hi (by omega : 0 + 4 ≤ 8 + e.size i)
      (longByte (UInt32.ofNat (e.size i)))
    have h4 := h0.span hram hfits hi (by omega : 4 + 4 ≤ 8 + e.size i) (longByte 0)
    have h8 := h4.span hram hfits hi (Nat.le_refl (8 + e.size i)) fun _ => 0
    simp only [apply_append]
    refine h8.congr fun j hj k hk => ?_
    simp only [Function.update_self, Function.update_idem]
    unfold reservedCells
    rcases Nat.lt_trichotomy j i with hlt | rfl | hlt
    · rw [Function.update_of_ne (Nat.ne_of_lt hlt), if_pos hlt, if_pos (Nat.lt_succ_of_lt hlt)]
    · rw [Function.update_self, if_pos (Nat.lt_succ_self j)]
      exact painted_segCells _ _ _ _ hk
    · rw [Function.update_of_ne (Nat.ne_of_gt hlt), if_neg (Nat.not_lt_of_gt hlt), if_neg (by omega)]

theorem table_leads (hram : RamOn g load limit) (hfits : e.Fits load limit) (hholds : f.Holds pos (e.hunks.map Hunk.size)) :
    Leads (hunkMachineStep g f load limit) (HunkAt g e load (.segment 0) pos e.hunks.length 0 0 cells)
      (HunkAt g e load .seglist (pos + 4 * e.hunks.length) e.hunks.length e.hunks.length 0 fun j => freshCells e j) := by
  have hpos : 0 < e.hunks.length := List.length_pos_of_ne_nil e.nonempty
  have hloop := Leads.rounds (n := e.hunks.length) (I := fun i =>
    HunkAt g e load (if i < e.hunks.length then .segment i else .seglist) (pos + 4 * i) e.hunks.length i 0
      (reservedCells e cells i)) fun i hi => by
    have hword : f.word (pos + 4 * i) = some e.hunks[i].size := by
      have hget := holds_get hholds (by rw [List.length_map]; exact hi)
      rw [List.getElem_map] at hget
      exact hget
    rw [if_pos hi]
    exact segment_leads hram hfits hi hword
  refine (Leads.of_imp fun s h => ?_).trans (hloop.trans (Leads.of_imp fun s h => ?_))
  · rw [if_pos hpos]
    exact ⟨h.loader, h.segments, h.memory.congr fun j _ k _ => by rw [reservedCells, if_neg (Nat.not_lt_zero j)]⟩
  · rw [if_neg (Nat.lt_irrefl _)] at h
    exact ⟨h.loader, h.segments, h.memory.congr fun j hj k _ => by rw [reservedCells, if_pos hj]⟩

/-! ## The links -/

/-- The segments of which the first are linked. -/
def linkedCells (e : HunkExecutable) (load : UInt32) (m j : Nat) : Nat → UInt8 :=
  segCells (UInt32.ofNat (e.size j)) (if j < m then UInt32.ofNat (e.start load (j + 1) + 4) else 0) fun _ => 0

/-- A link that is written into a segment. -/
theorem painted_link (size link link' : UInt32) (img : Nat → UInt8) :
    painted (segCells size link img) 4 4 (longByte link') = segCells size link' img := by
  funext k
  unfold painted segCells
  by_cases h4 : k < 4
  · rw [if_neg (by omega), if_pos h4, if_pos h4]
  · by_cases h8 : k < 8
    · rw [if_pos (by omega), if_neg h4, if_pos h8]
    · rw [if_neg (by omega), if_neg h4, if_neg h4, if_neg h8, if_neg h8]

/-- **The segments are linked** in their order. -/
theorem links_written (hram : RamOn g load limit) (hfits : e.Fits load limit) {ctx : σ}
    (h : InCells g e load (fun j => freshCells e j) ctx) {m : Nat} (hm : m < e.hunks.length) :
    InCells g e load (fun j => linkedCells e load m j) (g.apply ctx ((List.range m).flatMap fun i =>
      put32 (e.dataAddr load i - 4) (e.dataAddr load (i + 1) - 4))) := by
  have hlink : ∀ i, e.dataAddr load i - 4 = UInt32.ofNat (e.start load i + 4) := by
    intro i
    have hadd : e.dataAddr load i = UInt32.ofNat (e.start load i + 4) + 4 := (UInt32.ofNat_add (e.start load i + 4) 4)
    rw [hadd, UInt32.add_sub_cancel]
  induction m with
  | zero => exact h
  | succ m ih =>
    have hstep := (ih (Nat.lt_of_succ_lt hm)).span hram hfits (Nat.lt_of_succ_lt hm) (by omega : 4 + 4 ≤ 8 + e.size m)
      (longByte (UInt32.ofNat (e.start load (m + 1) + 4)))
    rw [List.range_succ, List.flatMap_append, apply_append]
    simp only [List.flatMap_cons, List.flatMap_nil, List.append_nil, hlink, put32_span] at hstep ⊢
    refine hstep.congr fun j hj k hk => ?_
    unfold linkedCells
    rcases Nat.lt_trichotomy j m with hlt | rfl | hlt
    · rw [Function.update_of_ne (Nat.ne_of_lt hlt), if_pos hlt, if_pos (Nat.lt_succ_of_lt hlt)]
    · rw [Function.update_self, if_pos (Nat.lt_succ_self j), painted_link]
    · rw [Function.update_of_ne (Nat.ne_of_gt hlt), if_neg (Nat.not_lt_of_gt hlt), if_neg (by omega)]

/-- The data of a hunk's segment in the end. -/
def HunkExecutable.image (e : HunkExecutable) (load : UInt32) (i : Nat) : Nat → UInt8 :=
  ((e.hunks[i]?).map fun hunk => hunk.image (e.dataAddr load)).getD fun _ => 0

/-- The memory in the second pass: the hunks before this one are placed, and of this one there is what `img` says. -/
def passCells (e : HunkExecutable) (load : UInt32) (block : Nat) (img : Nat → UInt8) (j : Nat) : Nat → UInt8 :=
  segCells (UInt32.ofNat (e.size j)) (e.link load j)
    (if j < block then e.image load j else if j = block then img else fun _ => 0)

theorem seglist_leads (hram : RamOn g load limit) (hfits : e.Fits load limit) :
    Leads (hunkMachineStep g f load limit)
      (HunkAt g e load .seglist pos e.hunks.length e.hunks.length 0 fun j => freshCells e j)
      (HunkAt g e load .block pos e.hunks.length e.hunks.length 0 (passCells e load 0 fun _ => 0)) := by
  refine Leads.of_step fun s h => ?_
  have hpos : 0 < e.hunks.length := List.length_pos_of_ne_nil e.nonempty
  have hn := toNat_ofNat_small (Nat.lt_of_le_of_lt e.few (by decide))
  have hcount : s.loader.count.toNat = e.hunks.length := by
    rw [h.loader]
    exact hn
  have hlinks : hunkLinks s.loader = (List.range (e.hunks.length - 1)).flatMap fun i =>
      put32 (e.dataAddr load i - 4) (e.dataAddr load (i + 1) - 4) := by
    unfold hunkLinks
    rw [hcount]
    refine List.flatMap_congr fun i hi => ?_
    have hlt := List.mem_range.mp hi
    rw [(h.segments i (by omega)).1, (h.segments (i + 1) (by omega)).1]
  have hphase : s.loader.phase = .seglist := by rw [h.loader]
  have hstep : hunkMachineStep g f load limit s = ⟨s.loader.to .block, g.apply s.ctx (hunkLinks s.loader)⟩ := by
    unfold hunkMachineStep HunkMachine.effect hunkStep HunkLoader.readsWord
    simp only [hphase, Bool.false_eq_true, if_false]
  rw [hstep, hlinks]
  refine ⟨?_, h.segments, ?_⟩
  · simp only [HunkLoader.to]
    rw [h.loader]
  · refine (links_written hram hfits h.memory (by omega)).congr fun j hj k _ => ?_
    unfold linkedCells passCells HunkExecutable.link
    have hmore : (j < e.hunks.length - 1) = (j + 1 < e.hunks.length) := propext (by omega)
    rw [if_neg (Nat.not_lt_zero j), ite_self]
    simp only [hmore]

end

end Rigel
