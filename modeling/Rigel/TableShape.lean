import Rigel.SlotTable

/-!
# TableShape — what a rebuild can put into a slot

`buildSlotTables` lays fills over each other, and a property of owners that holds of every fill holds of the table. From
it: no slot of a table belongs to a channel whose DMACON bits are off, and none to copper or blitter, which take theirs
at the time of the step.
-/

namespace Rigel

section
variable {P : Nat → SlotOwner → Prop}

theorem fillSlot_all {t : SlotTables} (ht : ∀ i, P i (t.owner i)) (h : Nat) {o : SlotOwner} (ho : P h o) (i : Nat) :
    P i ((fillSlot t h o).owner i) := by
  unfold fillSlot
  split
  · by_cases hi : i = h
    · subst hi
      simpa using ho
    · simpa [Function.update_of_ne hi] using ht i
  · exact ht i

theorem foldl_fillSlot_all : ∀ (fills : List (Nat × SlotOwner)) {t : SlotTables}, (∀ i, P i (t.owner i)) →
    (∀ f ∈ fills, P f.1 f.2) → ∀ i, P i ((fills.foldl (fun t f => fillSlot t f.1 f.2) t).owner i)
  | [], _, ht, _ => ht
  | f :: fills, _, ht, hf =>
    foldl_fillSlot_all fills (fillSlot_all ht f.1 (hf f List.mem_cons_self))
      fun f' hf' => hf f' (List.mem_cons_of_mem _ hf')

theorem fillWhen_all {b : Bool} {fills : List (Nat × SlotOwner)} {t : SlotTables} (ht : ∀ i, P i (t.owner i))
    (hf : b = true → ∀ f ∈ fills, P f.1 f.2) : ∀ i, P i ((fillWhen b fills t).owner i) := by
  unfold fillWhen
  split
  · rename_i hb
    exact foldl_fillSlot_all fills ht (hf hb)
  · exact ht

theorem fillBitplaneSlot_all {t : SlotTables} (ht : ∀ i, P i (t.owner i)) {h : Nat} (hb : P h .bitplane)
    (index : UInt16) (i : Nat) : P i ((fillBitplaneSlot t h index).owner i) := by
  unfold fillBitplaneSlot
  split
  · by_cases hi : i = h
    · subst hi
      simpa using hb
    · simpa [Function.update_of_ne hi] using ht i
  · exact ht i

theorem hiresFill_all (target : UInt16) (hb : ∀ i, P i .bitplane) : ∀ (fuel h : Nat) (t : SlotTables),
    (∀ i, P i (t.owner i)) → ∀ i, P i ((hiresFill target fuel h t).owner i)
  | 0, _, _, ht => ht
  | fuel + 1, h, t, ht => by
    unfold hiresFill
    split
    · exact hiresFill_all target hb fuel (h + 1) _ (fillBitplaneSlot_all ht (hb h) _)
    · exact ht

theorem loresFill_all (start words depth : Nat) (hb : ∀ i, P i .bitplane) {t : SlotTables}
    (ht : ∀ i, P i (t.owner i)) : ∀ i, P i ((loresFill start words depth t).owner i) := by
  unfold loresFill
  refine List.foldlRecOn (motive := fun t : SlotTables => ∀ i, P i (t.owner i)) _ _ ht fun t ht word _ => ?_
  exact List.foldlRecOn (motive := fun t : SlotTables => ∀ i, P i (t.owner i)) _ _ ht fun t ht plane _ =>
    fillBitplaneSlot_all ht (hb _) _

theorem bitplaneFill_all {s : SlotInputs} (vpos : UInt16) (hb : dmaconBplenOn s.dmacon = true → ∀ i, P i .bitplane)
    {t : SlotTables} (ht : ∀ i, P i (t.owner i)) : ∀ i, P i ((bitplaneFill s vpos t).owner i) := by
  unfold bitplaneFill
  split
  · rename_i hon
    simp only [Bool.and_eq_true] at hon
    split
    · exact hiresFill_all _ (hb hon.2) _ _ _ ht
    · exact loresFill_all _ _ _ (hb hon.2) ht
  · exact ht

end

/-- The owners that a rebuild gives a slot, with the DMACON bits that each needs. -/
def staticEnabled (dmacon : UInt16) : SlotOwner → Bool
  | .free => dmaconMaster dmacon
  | .cpu => !dmaconMaster dmacon
  | .refresh => true
  | .disk => dmaconDskenOn dmacon
  | .audio ch => dmaconAuden dmacon ch.val
  | .sprite _ => dmaconSprenOn dmacon
  | .bitplane => dmaconBplenOn dmacon
  | .copper => false
  | .blitter => false

/-- An owner as the fills leave it, before the CPU's slots become free ones. -/
def filledEnabled (dmacon : UInt16) (o : SlotOwner) : Prop := o = .cpu ∨ (staticEnabled dmacon o = true ∧ o ≠ .free)

theorem spriteFills_owner : ∀ f ∈ spriteFills, ∃ sp, f.2 = .sprite sp := by
  intro f hf
  simp only [spriteFills, List.mem_flatMap, List.mem_cons, List.not_mem_nil, or_false] at hf
  obtain ⟨sp, -, rfl | rfl⟩ := hf
  · exact ⟨sp, rfl⟩
  · exact ⟨sp, rfl⟩

theorem filledEnabled_single {dmacon : UInt16} {o : SlotOwner} (h : Nat) (ho : staticEnabled dmacon o = true)
    (hne : o ≠ .free) : ∀ f ∈ [(h, o)], filledEnabled dmacon f.2 := by
  intro f hf
  rw [List.mem_singleton.1 hf]
  exact .inr ⟨ho, hne⟩

theorem buildSlotTables_owner (s : SlotInputs) (vpos : UInt16) (refresh : RefreshDmaState) (i : Nat) :
    (buildSlotTables s vpos refresh).owner i =
      if (bitplaneFill s vpos (slotUnderlay s refresh)).owner i = .cpu ∧ dmaconMaster s.dmacon then .free
      else (bitplaneFill s vpos (slotUnderlay s refresh)).owner i := rfl

theorem slotUnderlay_enabled (s : SlotInputs) (refresh : RefreshDmaState) :
    ∀ i, filledEnabled s.dmacon ((slotUnderlay s refresh).owner i) := by
  refine fillWhen_all (P := fun _ o => filledEnabled s.dmacon o) ?_ fun hon f hf => ?_
  · refine fillWhen_all ?_ fun hon => filledEnabled_single _ hon SlotOwner.noConfusion
    refine fillWhen_all ?_ fun hon => filledEnabled_single _ hon SlotOwner.noConfusion
    refine fillWhen_all ?_ fun hon => filledEnabled_single _ hon SlotOwner.noConfusion
    refine fillWhen_all ?_ fun hon => filledEnabled_single _ hon SlotOwner.noConfusion
    refine fillWhen_all ?_ fun hon f hf => ?_
    · intro i
      simp only
      split
      · exact .inr ⟨rfl, SlotOwner.noConfusion⟩
      · exact .inl rfl
    · simp only [List.mem_cons, List.not_mem_nil, or_false] at hf
      rcases hf with rfl | rfl
      · exact .inr ⟨hon, SlotOwner.noConfusion⟩
      · exact .inr ⟨hon, SlotOwner.noConfusion⟩
  · obtain ⟨sp, hsp⟩ := spriteFills_owner f hf
    rw [hsp]
    exact .inr ⟨hon, SlotOwner.noConfusion⟩

/-- **No slot of a table belongs to a channel that is off.** -/
theorem buildSlotTables_enabled (s : SlotInputs) (vpos : UInt16) (refresh : RefreshDmaState) (i : Nat) :
    staticEnabled s.dmacon ((buildSlotTables s vpos refresh).owner i) = true := by
  have hfilled : ∀ i, filledEnabled s.dmacon ((bitplaneFill s vpos (slotUnderlay s refresh)).owner i) :=
    bitplaneFill_all (P := fun _ o => filledEnabled s.dmacon o) vpos
      (fun hon _ => .inr ⟨hon, SlotOwner.noConfusion⟩) (slotUnderlay_enabled s refresh)
  rw [buildSlotTables_owner]
  rcases hfilled i with hcpu | ⟨hon, -⟩
  · cases hm : dmaconMaster s.dmacon with
    | true => simp [hcpu, hm, staticEnabled]
    | false => simp [hcpu, hm, staticEnabled]
  · split
    · rename_i hc
      rw [hc.1] at hon
      simp [staticEnabled, hc.2] at hon
    · exact hon

/-! ## Sprite slots -/

/-- The A-slot of a sprite. -/
def spriteSlotA (sp : Fin 8) : Nat := 0x15 + 4 * sp.val

/-- The B-slot of a sprite. -/
def spriteSlotB (sp : Fin 8) : Nat := 0x17 + 4 * sp.val

/-- An owner at a slot that is not a sprite's unless the slot is. -/
def SpritePlaced (i : Nat) (o : SlotOwner) : Prop := ∀ sp, o = .sprite sp → i = spriteSlotA sp ∨ i = spriteSlotB sp

theorem spriteFills_placed : ∀ f ∈ spriteFills, SpritePlaced f.1 f.2 := by
  intro f hf sp hsp
  simp only [spriteFills, List.mem_flatMap, List.mem_cons, List.not_mem_nil, or_false] at hf
  obtain ⟨sp', -, rfl | rfl⟩ := hf
  · cases hsp
    exact .inl rfl
  · cases hsp
    exact .inr rfl

theorem slotUnderlay_placed (s : SlotInputs) (refresh : RefreshDmaState) :
    ∀ i, SpritePlaced i ((slotUnderlay s refresh).owner i) := by
  have hone : ∀ {o : SlotOwner} (h : Nat), (∀ sp, o ≠ .sprite sp) → ∀ f ∈ [(h, o)], SpritePlaced f.1 f.2 := by
    intro o h ho f hf sp hsp
    rw [List.mem_singleton.1 hf] at hsp
    exact absurd hsp (ho sp)
  refine fillWhen_all ?_ fun _ => spriteFills_placed
  refine fillWhen_all ?_ fun _ => hone _ fun _ => SlotOwner.noConfusion
  refine fillWhen_all ?_ fun _ => hone _ fun _ => SlotOwner.noConfusion
  refine fillWhen_all ?_ fun _ => hone _ fun _ => SlotOwner.noConfusion
  refine fillWhen_all ?_ fun _ => hone _ fun _ => SlotOwner.noConfusion
  refine fillWhen_all ?_ fun _ f hf sp hsp => ?_
  · intro i sp hsp
    simp only at hsp
    split at hsp
    · cases hsp
    · cases hsp
  · simp only [List.mem_cons, List.not_mem_nil, or_false] at hf
    rcases hf with rfl | rfl <;> cases hsp

/-- **A sprite's entry stands on one of its two slots.** -/
theorem buildSlotTables_sprite {s : SlotInputs} {vpos : UInt16} {refresh : RefreshDmaState} {i : Nat} {sp : Fin 8}
    (h : (buildSlotTables s vpos refresh).owner i = .sprite sp) : i = spriteSlotA sp ∨ i = spriteSlotB sp := by
  have hplaced := bitplaneFill_all (P := SpritePlaced) (s := s) vpos (fun _ _ sp hsp => SlotOwner.noConfusion hsp)
    (slotUnderlay_placed s refresh) i
  rw [buildSlotTables_owner] at h
  split at h
  · cases h
  · exact hplaced sp h

theorem spriteFills_at (t : SlotTables) : ∀ sp : Fin 8,
    (spriteFills.foldl (fun t f => fillSlot t f.1 f.2) t).owner (spriteSlotA sp) = .sprite sp ∧
      (spriteFills.foldl (fun t f => fillSlot t f.1 f.2) t).owner (spriteSlotB sp) = .sprite sp
  | 0 => ⟨rfl, rfl⟩
  | 1 => ⟨rfl, rfl⟩
  | 2 => ⟨rfl, rfl⟩
  | 3 => ⟨rfl, rfl⟩
  | 4 => ⟨rfl, rfl⟩
  | 5 => ⟨rfl, rfl⟩
  | 6 => ⟨rfl, rfl⟩
  | 7 => ⟨rfl, rfl⟩

/-- With sprite DMA on, only the bitplane fetch takes a sprite's slot in the table. -/
theorem buildSlotTables_spriteSlot {s : SlotInputs} (hon : dmaconSprenOn s.dmacon = true) (vpos : UInt16)
    (refresh : RefreshDmaState) {i : Nat} {sp : Fin 8} (hi : i = spriteSlotA sp ∨ i = spriteSlotB sp) :
    (buildSlotTables s vpos refresh).owner i = .sprite sp ∨ (buildSlotTables s vpos refresh).owner i = .bitplane := by
  have hunder : (slotUnderlay s refresh).owner i = .sprite sp := by
    unfold slotUnderlay
    simp only
    generalize fillWhen (dmaconAuden s.dmacon 3) _ _ = t
    rw [fillWhen, if_pos hon]
    rcases hi with rfl | rfl
    · exact (spriteFills_at t sp).1
    · exact (spriteFills_at t sp).2
  have hfill : (bitplaneFill s vpos (slotUnderlay s refresh)).owner i = (slotUnderlay s refresh).owner i ∨
      (bitplaneFill s vpos (slotUnderlay s refresh)).owner i = .bitplane :=
    bitplaneFill_all (P := fun i o => o = (slotUnderlay s refresh).owner i ∨ o = .bitplane) vpos
      (fun _ _ => .inr rfl) (fun _ => .inl rfl) i
  rw [buildSlotTables_owner]
  rcases hfill with h | h
  · rw [h, hunder]
    exact .inl rfl
  · rw [h]
    exact .inr rfl

/-! ## Bitplane slots -/

/-- The vertical gate of the scheduler. -/
def fetchGate (s : SlotInputs) (vpos : UInt16) : Bool :=
  !agnusInVblZone vpos && vpos ≥ s.vstrt && dmaconBplenOn s.dmacon

/-- The slot of a word of a plane: in the order of the eight-clock unit in lores, one after the other in hires. -/
def fetchSlot (s : SlotInputs) (word plane : Nat) : Nat :=
  if s.hires then s.ddfstrt.toNat + word * (s.depth &&& 0x7).toNat + plane
  else s.ddfstrt.toNat + 8 * word + loresPlaneOrder plane

/-- The positions `pos 0` to `pos (n - 1)` carry their numbers, those inside the line; every other slot is as before. -/
structure FetchFilled (pos : Nat → Nat) (n : Nat) (t t' : SlotTables) : Prop where
  filled : ∀ k < n, pos k < agnusSlotsPerLine → t'.owner (pos k) = .bitplane ∧ t'.index (pos k) = UInt16.ofNat k
  kept : ∀ i, (∀ k < n, i = pos k → agnusSlotsPerLine ≤ i) → t'.owner i = t.owner i ∧ t'.index i = t.index i

section
variable {pos : Nat → Nat} {n : Nat} {t t' : SlotTables}

theorem fillBitplaneSlot_at (t : SlotTables) {h : Nat} (hpos : h < agnusSlotsPerLine) (index : UInt16) :
    (fillBitplaneSlot t h index).owner h = .bitplane ∧ (fillBitplaneSlot t h index).index h = index := by
  unfold fillBitplaneSlot
  rw [if_pos hpos]
  exact ⟨Function.update_self .., Function.update_self ..⟩

theorem fillBitplaneSlot_other (t : SlotTables) {h i : Nat} (hi : i = h → agnusSlotsPerLine ≤ i) (index : UInt16) :
    (fillBitplaneSlot t h index).owner i = t.owner i ∧ (fillBitplaneSlot t h index).index i = t.index i := by
  unfold fillBitplaneSlot
  split
  · rename_i hpos
    have hne : i ≠ h := by
      rintro rfl
      exact Nat.not_lt.mpr (hi rfl) hpos
    exact ⟨Function.update_of_ne hne .., Function.update_of_ne hne ..⟩
  · exact ⟨rfl, rfl⟩

theorem FetchFilled.zero (pos : Nat → Nat) (t : SlotTables) : FetchFilled pos 0 t t :=
  ⟨fun k hk => absurd hk (Nat.not_lt_zero k), fun _ _ => ⟨rfl, rfl⟩⟩

/-- One more fill, of a position that is still as it was. -/
theorem FetchFilled.step (h : FetchFilled pos n t t') (hslots : t'.bitplaneSlots = UInt16.ofNat n)
    (hfresh : ∀ k < n, pos k ≠ pos n) :
    FetchFilled pos (n + 1) t
      { fillBitplaneSlot t' (pos n) t'.bitplaneSlots with bitplaneSlots := t'.bitplaneSlots + 1 } := by
  refine ⟨fun k hk hin => ?_, fun i hi => ?_⟩
  · rcases Nat.lt_succ_iff_lt_or_eq.mp hk with hlt | rfl
    · obtain ⟨howner, hindex⟩ := fillBitplaneSlot_other t' (h := pos n) (fun e => absurd e (hfresh k hlt)) t'.bitplaneSlots
      obtain ⟨hbitplane, hnumber⟩ := h.filled k hlt hin
      exact ⟨howner.trans hbitplane, hindex.trans hnumber⟩
    · obtain ⟨howner, hindex⟩ := fillBitplaneSlot_at t' hin t'.bitplaneSlots
      exact ⟨howner, hindex.trans hslots⟩
  · obtain ⟨howner, hindex⟩ := fillBitplaneSlot_other t' (hi n n.lt_succ_self) t'.bitplaneSlots
    obtain ⟨howner', hindex'⟩ := h.kept i fun k hk => hi k (Nat.lt_succ_of_lt hk)
    exact ⟨howner.trans howner', hindex.trans hindex'⟩

/-- What lies behind the end of the line may be counted as filled. -/
theorem FetchFilled.beyond {m : Nat} (h : FetchFilled pos n t t') (hle : n ≤ m)
    (hout : ∀ k, n ≤ k → agnusSlotsPerLine ≤ pos k) : FetchFilled pos m t t' := by
  refine ⟨fun k _ hin => ?_, fun i hi => h.kept i fun k hk => hi k (Nat.lt_of_lt_of_le hk hle)⟩
  by_cases hk : k < n
  · exact h.filled k hk hin
  · exact absurd hin (Nat.not_lt.mpr (hout k (Nat.le_of_not_lt hk)))

theorem FetchFilled.congr {pos' : Nat → Nat} (h : FetchFilled pos n t t') (he : ∀ k < n, pos' k = pos k) :
    FetchFilled pos' n t t' := by
  refine ⟨fun k hk hin => ?_, fun i hi => h.kept i fun k hk e => hi k hk (e.trans (he k hk).symm)⟩
  rw [he k hk] at hin ⊢
  exact h.filled k hk hin

/-- The hires loop fills the slots from DDFSTRT on, as many as it wants and the line has. -/
theorem hiresFill_filled (start : Nat) (target : UInt16) : ∀ (fuel k : Nat) {t' : SlotTables},
    FetchFilled (fun j => start + j) k t t' → t'.bitplaneSlots = UInt16.ofNat k → k ≤ target.toNat →
    agnusSlotsPerLine ≤ start + k + fuel →
    FetchFilled (fun j => start + j) target.toNat t (hiresFill target fuel (start + k) t')
  | 0, k, _, h, _, hle, hend => h.beyond hle fun j hj => by omega
  | fuel + 1, k, t', h, hslots, hle, hend => by
    have hsmall : target.toNat < 65536 := target.toNat_lt
    have hcount : t'.bitplaneSlots.toNat = k := by
      rw [hslots, UInt16.toNat_ofNat_of_lt' (by simp only [UInt16.size]; omega)]
    unfold hiresFill
    split
    · rename_i hgo
      have hlt : k < target.toNat := by
        rw [← hcount]
        exact UInt16.lt_iff_toNat_lt.mp hgo.2
      have hnext := h.step hslots fun j hj => by omega
      refine hiresFill_filled start target fuel (k + 1) hnext ?_ hlt (by omega)
      rw [UInt16.ofNat_add, ← hslots]
      rfl
    · rename_i hstop
      by_cases hin : start + k < agnusSlotsPerLine
      · have hge : target.toNat ≤ k := by
          rw [← hcount]
          exact Nat.le_of_not_lt fun hlt => hstop ⟨hin, UInt16.lt_iff_toNat_lt.mpr hlt⟩
        rw [Nat.le_antisymm hge hle]
        exact h
      · exact h.beyond hle fun j hj => by omega

theorem loresUnit_filled (unit : Nat → Nat) {k : Nat} (h : FetchFilled pos k t t')
    (hslots : t'.bitplaneSlots = UInt16.ofNat k) : ∀ depth : Nat, (∀ p < depth, pos (k + p) = unit p) →
    (∀ i j, i < j → j < k + depth → pos i ≠ pos j) →
    FetchFilled pos (k + depth) t ((List.range depth).foldl (fun t plane =>
      { fillBitplaneSlot t (unit plane) t.bitplaneSlots with bitplaneSlots := t.bitplaneSlots + 1 }) t') ∧
    ((List.range depth).foldl (fun t plane =>
      { fillBitplaneSlot t (unit plane) t.bitplaneSlots with bitplaneSlots := t.bitplaneSlots + 1 }) t').bitplaneSlots =
        UInt16.ofNat (k + depth)
  | 0, _, _ => ⟨h, hslots⟩
  | depth + 1, hunit, hinj => by
    obtain ⟨hfilled, hcount⟩ := loresUnit_filled unit h hslots depth (fun p hp => hunit p (Nat.lt_succ_of_lt hp))
      fun i j hij hj => hinj i j hij (by omega)
    rw [List.range_succ, List.foldl_append, List.foldl_cons, List.foldl_nil, ← hunit depth depth.lt_succ_self]
    refine ⟨hfilled.step hcount fun i hi => hinj i (k + depth) hi (by omega), ?_⟩
    rw [← Nat.add_assoc, UInt16.ofNat_add, ← hcount]
    rfl

theorem loresPlaneOrder_inj : ∀ p < 8, ∀ q < 8, loresPlaneOrder p = loresPlaneOrder q → p = q := by decide

theorem loresPlaneOrder_lt : ∀ p < 8, loresPlaneOrder p < 8 := by decide

/-- The word and the plane of a lores slot can be read off it. -/
theorem loresSlot_inj {start word word' plane plane' : Nat} (hp : plane < 8) (hp' : plane' < 8)
    (he : start + 8 * word + loresPlaneOrder plane = start + 8 * word' + loresPlaneOrder plane') :
    word = word' ∧ plane = plane' := by
  have hlt := loresPlaneOrder_lt plane hp
  have hlt' := loresPlaneOrder_lt plane' hp'
  exact ⟨by omega, loresPlaneOrder_inj plane hp plane' hp' (by omega)⟩

theorem loresFill_filled (start : Nat) {depth : Nat} (hdepth : depth ≤ 8) (hslots : t.bitplaneSlots = 0) :
    ∀ words : Nat,
      FetchFilled (fun k => start + 8 * (k / depth) + loresPlaneOrder (k % depth)) (words * depth) t
        (loresFill start words depth t) ∧
      (loresFill start words depth t).bitplaneSlots = UInt16.ofNat (words * depth)
  | 0 => by
    rw [Nat.zero_mul]
    exact ⟨.zero _ t, hslots⟩
  | words + 1 => by
    obtain ⟨hfilled, hcount⟩ := loresFill_filled start hdepth hslots words
    have hunit : loresFill start (words + 1) depth t =
        (List.range depth).foldl (fun t plane =>
          { fillBitplaneSlot t (start + words * 8 + loresPlaneOrder plane) t.bitplaneSlots with
            bitplaneSlots := t.bitplaneSlots + 1 }) (loresFill start words depth t) := by
      unfold loresFill
      rw [List.range_succ, List.foldl_append, List.foldl_cons, List.foldl_nil]
    rw [hunit, Nat.succ_mul]
    refine loresUnit_filled (fun plane => start + words * 8 + loresPlaneOrder plane) hfilled hcount depth ?_ ?_
    · intro p hp
      rw [Nat.mul_comm words depth, Nat.mul_add_div (by omega), Nat.mul_add_mod, Nat.div_eq_of_lt hp, Nat.mod_eq_of_lt hp]
      omega
    · intro i j hij hj he
      have hpos : 0 < depth := by
        rcases Nat.eq_zero_or_pos depth with rfl | hpos
        · omega
        · exact hpos
      obtain ⟨hw, hp⟩ := loresSlot_inj (Nat.lt_of_lt_of_le (Nat.mod_lt i hpos) hdepth)
        (Nat.lt_of_lt_of_le (Nat.mod_lt j hpos) hdepth) he
      have hi := Nat.div_add_mod i depth
      rw [hw, hp, Nat.div_add_mod] at hi
      omega

end

theorem bitplaneWords_le (s : SlotInputs) : bitplaneWordsPerPlane s ≤ deniseMaxPlaneWords := by
  unfold bitplaneWordsPerPlane
  cases s.hires with
  | true =>
    simp only [if_true]
    repeat' split
    all_goals first | exact Nat.min_le_right _ _ | decide
  | false =>
    simp only [Bool.false_eq_true, if_false]
    repeat' split
    all_goals first | exact Nat.min_le_right _ _ | decide

theorem bitplaneDepth_le (s : SlotInputs) : (s.depth &&& 0x7).toNat ≤ 7 := by
  rw [UInt16.toNat_and]
  exact Nat.and_le_right

/-- The planes of a fetch that has words. -/
theorem bitplaneDepth_of_words {s : SlotInputs} (h : bitplaneWordsPerPlane s ≠ 0) :
    0 < (s.depth &&& 0x7).toNat ∧ (s.depth &&& 0x7).toNat ≤ 6 := by
  unfold bitplaneWordsPerPlane at h
  simp only at h
  split at h
  · exact absurd rfl h
  · rename_i hd
    rw [not_or] at hd
    refine ⟨Nat.pos_of_ne_zero fun e => hd.1 (UInt16.toNat_inj.mp e), ?_⟩
    exact UInt16.le_iff_toNat_le.mp (UInt16.not_lt.mp hd.2)

theorem slotUnderlay_noBitplane (s : SlotInputs) (refresh : RefreshDmaState) (i : Nat) :
    (slotUnderlay s refresh).owner i ≠ .bitplane := by
  have hone : ∀ {o : SlotOwner} (h : Nat), o ≠ .bitplane → ∀ f ∈ [(h, o)], f.2 ≠ .bitplane := by
    intro o h ho f hf
    rw [List.mem_singleton.1 hf]
    exact ho
  refine fillWhen_all (P := fun _ o => o ≠ .bitplane) ?_ (fun _ f hf => ?_) i
  · refine fillWhen_all (P := fun _ o => o ≠ .bitplane) ?_ fun _ => hone _ SlotOwner.noConfusion
    refine fillWhen_all (P := fun _ o => o ≠ .bitplane) ?_ fun _ => hone _ SlotOwner.noConfusion
    refine fillWhen_all (P := fun _ o => o ≠ .bitplane) ?_ fun _ => hone _ SlotOwner.noConfusion
    refine fillWhen_all (P := fun _ o => o ≠ .bitplane) ?_ fun _ => hone _ SlotOwner.noConfusion
    refine fillWhen_all (P := fun _ o => o ≠ .bitplane) ?_ fun _ f hf => ?_
    · intro i
      simp only
      split <;> exact SlotOwner.noConfusion
    · simp only [List.mem_cons, List.not_mem_nil, or_false] at hf
      rcases hf with rfl | rfl <;> exact SlotOwner.noConfusion
  · obtain ⟨sp, hsp⟩ := spriteFills_owner f hf
    rw [hsp]
    exact SlotOwner.noConfusion

theorem fillWhen_slots (b : Bool) (fills : List (Nat × SlotOwner)) (t : SlotTables) :
    (fillWhen b fills t).bitplaneSlots = t.bitplaneSlots := by
  unfold fillWhen
  split
  · refine List.foldlRecOn (motive := fun t' : SlotTables => t'.bitplaneSlots = t.bitplaneSlots) _ _ rfl fun t' ht f _ => ?_
    unfold fillSlot
    split <;> exact ht
  · rfl

theorem slotUnderlay_slots (s : SlotInputs) (refresh : RefreshDmaState) : (slotUnderlay s refresh).bitplaneSlots = 0 := by
  unfold slotUnderlay
  simp only [fillWhen_slots]

/-- **What the fetch fills** on a line where it runs. -/
theorem bitplaneFill_filled (s : SlotInputs) {vpos : UInt16} (refresh : RefreshDmaState)
    (hgate : fetchGate s vpos = true) :
    FetchFilled (fun k => fetchSlot s (k / (s.depth &&& 0x7).toNat) (k % (s.depth &&& 0x7).toNat))
      (bitplaneWordsPerPlane s * (s.depth &&& 0x7).toNat) (slotUnderlay s refresh)
      (bitplaneFill s vpos (slotUnderlay s refresh)) := by
  have hwords : bitplaneWordsPerPlane s ≤ 64 := bitplaneWords_le s
  have hdepth := bitplaneDepth_le s
  have hslots := slotUnderlay_slots s refresh
  unfold fetchGate at hgate
  unfold bitplaneFill fetchSlot
  rw [if_pos hgate]
  cases s.hires with
  | true =>
    have hsmall : bitplaneWordsPerPlane s * (s.depth &&& 0x7).toNat ≤ 64 * 7 := Nat.mul_le_mul hwords hdepth
    have htarget : (UInt16.ofNat (bitplaneWordsPerPlane s) * (s.depth &&& 0x7)).toNat =
        bitplaneWordsPerPlane s * (s.depth &&& 0x7).toNat := by
      rw [UInt16.toNat_mul, UInt16.toNat_ofNat_of_lt' (by simp only [UInt16.size]; omega)]
      exact Nat.mod_eq_of_lt (by omega)
    simp only [if_true]
    rw [← htarget]
    have hrow := hiresFill_filled s.ddfstrt.toNat (UInt16.ofNat (bitplaneWordsPerPlane s) * (s.depth &&& 0x7))
      agnusSlotsPerLine 0 (.zero _ (slotUnderlay s refresh)) hslots (Nat.zero_le _) (Nat.le_add_left _ _)
    refine hrow.congr fun k _ => ?_
    rw [Nat.add_assoc, Nat.mul_comm, Nat.div_add_mod]
  | false =>
    simp only [Bool.false_eq_true, if_false]
    exact (loresFill_filled s.ddfstrt.toNat (Nat.le_succ_of_le hdepth) hslots _).1

/-- Words are numbered word by word, plane by plane. -/
theorem wordNumber {words depth word plane : Nat} (hword : word < words) (hplane : plane < depth) :
    word * depth + plane < words * depth ∧ (word * depth + plane) / depth = word ∧ (word * depth + plane) % depth = plane := by
  have hdepth : 0 < depth := Nat.lt_of_le_of_lt (Nat.zero_le plane) hplane
  have hdiv : (word * depth + plane) / depth = word := by
    rw [Nat.mul_comm, Nat.mul_add_div hdepth, Nat.div_eq_of_lt hplane, Nat.add_zero]
  refine ⟨(Nat.div_lt_iff_lt_mul hdepth).mp (by rwa [hdiv]), hdiv, ?_⟩
  rw [Nat.mul_comm, Nat.mul_add_mod, Nat.mod_eq_of_lt hplane]

theorem wordNumber_inj {depth word word' plane plane' : Nat} (hp : plane < depth) (hp' : plane' < depth)
    (he : word * depth + plane = word' * depth + plane') : word = word' ∧ plane = plane' := by
  obtain ⟨-, hdiv, hmod⟩ := wordNumber word.lt_succ_self hp
  obtain ⟨-, hdiv', hmod'⟩ := wordNumber word'.lt_succ_self hp'
  rw [he] at hdiv hmod
  exact ⟨hdiv.symm.trans hdiv', hmod.symm.trans hmod'⟩

/-- CPU slots that become free ones are no bitplane's. -/
theorem buildSlotTables_bitplane (s : SlotInputs) (vpos : UInt16) (refresh : RefreshDmaState) (i : Nat) :
    (buildSlotTables s vpos refresh).owner i = .bitplane ↔
      (bitplaneFill s vpos (slotUnderlay s refresh)).owner i = .bitplane := by
  rw [buildSlotTables_owner]
  split
  · rename_i hc
    rw [hc.1]
    exact iff_of_false SlotOwner.noConfusion SlotOwner.noConfusion
  · exact Iff.rfl

/-- **The bitplane slots of a table** are those of the words of its planes, as far as they lie inside the line. -/
theorem buildSlotTables_bitplane_iff {s : SlotInputs} {vpos : UInt16} (refresh : RefreshDmaState)
    (hgate : fetchGate s vpos = true) (i : Nat) :
    (buildSlotTables s vpos refresh).owner i = .bitplane ↔
      i < agnusSlotsPerLine ∧ ∃ word < bitplaneWordsPerPlane s, ∃ plane < (s.depth &&& 0x7).toNat,
        i = fetchSlot s word plane := by
  have hfill := bitplaneFill_filled s refresh hgate
  rw [buildSlotTables_bitplane]
  constructor
  · intro hb
    by_contra hnone
    have hkept := (hfill.kept i fun k hk he => Nat.le_of_not_lt fun hin => ?_).1
    · exact slotUnderlay_noBitplane s refresh i (hkept.symm.trans hb)
    · have hdepth : 0 < (s.depth &&& 0x7).toNat := by
        rcases Nat.eq_zero_or_pos (s.depth &&& 0x7).toNat with h0 | hpos
        · rw [h0] at hk
          exact absurd hk (Nat.not_lt_zero k)
        · exact hpos
      refine hnone ⟨hin, k / (s.depth &&& 0x7).toNat, ?_, k % (s.depth &&& 0x7).toNat, Nat.mod_lt k hdepth, he⟩
      exact (Nat.div_lt_iff_lt_mul hdepth).mpr hk
  · rintro ⟨hin, word, hword, plane, hplane, rfl⟩
    obtain ⟨hlt, hdiv, hmod⟩ := wordNumber hword hplane
    have hat := (hfill.filled (word * (s.depth &&& 0x7).toNat + plane) hlt (by rwa [hdiv, hmod])).1
    rwa [hdiv, hmod] at hat

theorem buildSlotTables_gateClosed {s : SlotInputs} {vpos : UInt16} (refresh : RefreshDmaState)
    (hgate : ¬ fetchGate s vpos = true) (i : Nat) : (buildSlotTables s vpos refresh).owner i ≠ .bitplane := by
  unfold fetchGate at hgate
  rw [Ne, buildSlotTables_bitplane, bitplaneFill, if_neg hgate]
  exact slotUnderlay_noBitplane s refresh i

/-- **A word inside the line is scheduled**, under its number. -/
theorem buildSlotTables_scheduled {s : SlotInputs} {vpos : UInt16} (refresh : RefreshDmaState)
    (hgate : fetchGate s vpos = true) {word plane : Nat}
    (hword : word < bitplaneWordsPerPlane s) (hplane : plane < (s.depth &&& 0x7).toNat)
    (hin : fetchSlot s word plane < agnusSlotsPerLine) :
    (buildSlotTables s vpos refresh).owner (fetchSlot s word plane) = .bitplane ∧
      ((buildSlotTables s vpos refresh).index (fetchSlot s word plane)).toNat = word * (s.depth &&& 0x7).toNat + plane := by
  have hwords : bitplaneWordsPerPlane s ≤ 64 := bitplaneWords_le s
  have hdepth := bitplaneDepth_le s
  have hsmall : bitplaneWordsPerPlane s * (s.depth &&& 0x7).toNat ≤ 64 * 7 := Nat.mul_le_mul hwords hdepth
  obtain ⟨hlt, hdiv, hmod⟩ := wordNumber hword hplane
  obtain ⟨howner, hindex⟩ := (bitplaneFill_filled s refresh hgate).filled _ hlt (by rwa [hdiv, hmod])
  rw [hdiv, hmod] at howner hindex
  refine ⟨(buildSlotTables_bitplane s vpos refresh _).mpr howner, ?_⟩
  have hnumber : ((buildSlotTables s vpos refresh).index (fetchSlot s word plane)).toNat =
      (UInt16.ofNat (word * (s.depth &&& 0x7).toNat + plane)).toNat := congrArg UInt16.toNat hindex
  rw [hnumber, UInt16.toNat_ofNat_of_lt' (by simp only [UInt16.size]; omega)]

/-- **A bitplane slot of the table fetches a word of the line**: its index is below the words of all planes. -/
theorem buildSlotTables_index {s : SlotInputs} {vpos : UInt16} {refresh : RefreshDmaState} {i : Nat}
    (h : (buildSlotTables s vpos refresh).owner i = .bitplane) :
    ((buildSlotTables s vpos refresh).index i).toNat < bitplaneWordsPerPlane s * (s.depth &&& 0x7).toNat := by
  by_cases hgate : fetchGate s vpos = true
  · obtain ⟨hin, word, hword, plane, hplane, rfl⟩ := (buildSlotTables_bitplane_iff refresh hgate i).mp h
    rw [(buildSlotTables_scheduled refresh hgate hword hplane hin).2]
    exact (wordNumber hword hplane).1
  · exact absurd h (buildSlotTables_gateClosed refresh hgate i)

/-- **The last word of a lores line has a slot**, if its slots lie inside the line. -/
theorem buildSlotTables_lastWord (s : SlotInputs) (vpos : UInt16) (refresh : RefreshDmaState) (words depth : Nat)
    (hgate : fetchGate s vpos = true) (hlores : s.hires = false)
    (hwords : bitplaneWordsPerPlane s = words + 1) (hdepth : (s.depth &&& 0x7).toNat = depth + 1)
    (hpos : s.ddfstrt.toNat + words * 8 + loresPlaneOrder depth < agnusSlotsPerLine) :
    (buildSlotTables s vpos refresh).owner (s.ddfstrt.toNat + words * 8 + loresPlaneOrder depth) = .bitplane ∧
      ((buildSlotTables s vpos refresh).index (s.ddfstrt.toNat + words * 8 + loresPlaneOrder depth)).toNat =
        words * (depth + 1) + depth := by
  have hslot : fetchSlot s words depth = s.ddfstrt.toNat + words * 8 + loresPlaneOrder depth := by
    simp only [fetchSlot, hlores, Bool.false_eq_true, if_false]
    omega
  rw [← hslot] at hpos ⊢
  rw [← hdepth]
  exact buildSlotTables_scheduled refresh hgate (by omega) (by omega) hpos

end Rigel
