import Rigel.PixelFormats
import Rigel.Run

/-!
# PaletteRun — the palette along a run

A colour register and its entry of the palette are written together, by the CPU as by the copper, and nothing else writes
either of them, but for a reset, which clears the palette and leaves the registers. A run keeps the two together exactly if
all colours are black whenever it resets.
-/

namespace Rigel

/-- COLOR00 and the registers after it. -/
def colorReg (i : Nat) : UInt32 := 0x180 + 2 * UInt32.ofNat i

/-- **The palette shows the colour registers**, as they are read. -/
def PaletteCoherent (ctx : RigelContext) : Prop :=
  ∀ i < 32, ctx.denise.palette.rgb32 i = rigelDeniseColorExpand12bit (customRegsRead16 ctx (colorReg i)).2

/-- A reset finds all colours black. -/
def ResetsDark (ctx : RigelContext) (c : HostCall) : Prop :=
  c = .reset → ∀ i < 32, (customRegsRead16 ctx (colorReg i)).2 &&& 0x0FFF = 0

/-! ## A colour register -/

theorem colorReg_valid : ∀ i < 32, rigelCustomIsValidReg (colorReg i) = true ∧
    rigelCustomDomainForReg (colorReg i) = .denise ∧ colorReg i ≥ 0x180 ∧ colorReg i ≤ 0x1BE ∧
      colorIndex (colorReg i) = i := by
  decide

theorem customRegsRead16_color (ctx : RigelContext) {i : Nat} (hi : i < 32) :
    (customRegsRead16 ctx (colorReg i)).2 = ctx.denise.regs.color i := by
  obtain ⟨hvalid, hdomain, hlow, hhigh, hindex⟩ := colorReg_valid i hi
  unfold customRegsRead16
  rw [hvalid, hdomain]
  simp only [Bool.not_true, Bool.false_eq_true, if_false]
  unfold rigelDeniseRegistersRead
  rw [if_pos ⟨hlow, hhigh⟩, hindex]

/-- Three nibbles make black only if all are 0. -/
theorem nibbles_black : ∀ r g b : Fin 16,
    (UInt32.ofNat r.val <<< 20) ||| (UInt32.ofNat r.val <<< 16) ||| (UInt32.ofNat g.val <<< 12) |||
        (UInt32.ofNat g.val <<< 8) ||| (UInt32.ofNat b.val <<< 4) ||| UInt32.ofNat b.val = 0 →
      r = 0 ∧ g = 0 ∧ b = 0 := by
  decide +kernel

theorem nibbles_clear (v : UInt16) :
    v &&& 0x0FFF = 0 ↔ (v >>> 8) &&& 0x0F = 0 ∧ (v >>> 4) &&& 0x0F = 0 ∧ v &&& 0x0F = 0 := by
  have hmask : ∀ x : UInt16, (x &&& 0x0F).toNat = x.toNat % 16 := fun x => Nat.and_two_pow_sub_one_eq_mod _ 4
  have hlow : (v &&& 0x0FFF).toNat = v.toNat % 4096 := Nat.and_two_pow_sub_one_eq_mod _ 12
  have hr : (v >>> 8).toNat = v.toNat / 256 := Nat.shiftRight_eq_div_pow _ 8
  have hg : (v >>> 4).toNat = v.toNat / 16 := Nat.shiftRight_eq_div_pow _ 4
  simp only [← UInt16.toNat_inj, hmask, hlow, hr, hg, UInt16.toNat_zero]
  omega

/-- **A colour is black** exactly if its twelve bits are clear. -/
theorem colorExpand_eq_zero (v : UInt16) : rigelDeniseColorExpand12bit v = 0 ↔ v &&& 0x0FFF = 0 := by
  obtain ⟨r, hr, hr'⟩ := nibble_cases (v >>> 8)
  obtain ⟨g, hg, hg'⟩ := nibble_cases (v >>> 4)
  obtain ⟨b, hb, hb'⟩ := nibble_cases v
  rw [nibbles_clear, hr, hg, hb]
  simp only [rigelDeniseColorExpand12bit, hr', hg', hb']
  constructor
  · intro h
    obtain ⟨rfl, rfl, rfl⟩ := nibbles_black r g b h
    exact ⟨rfl, rfl, rfl⟩
  · rintro ⟨h₁, h₂, h₃⟩
    have hzero : ∀ n : Fin 16, UInt16.ofNat n.val = 0 → UInt32.ofNat n.val = 0 := by decide
    simp only [hzero r h₁, hzero g h₂, hzero b h₃]
    rfl

/-! ## Denise -/

/-- The palette shows what the colour registers hold. -/
def PaletteFollows (d : RigelDenise) : Prop := ∀ i < 32, d.palette.rgb32 i = rigelDeniseColorExpand12bit (d.regs.color i)

theorem paletteCoherent_iff (ctx : RigelContext) : PaletteCoherent ctx ↔ PaletteFollows ctx.denise :=
  forall₂_congr fun i hi => by rw [customRegsRead16_color ctx hi]

theorem PaletteFollows.colorWrite {d : RigelDenise} (h : PaletteFollows d) (addr : UInt32) (value : UInt16) :
    PaletteFollows (rigelDeniseColorRegsWrite d addr value) := by
  intro i hi
  simp only [rigelDeniseColorRegsWrite]
  by_cases hwritten : i = colorIndex addr
  · rw [hwritten, Function.update_self, Function.update_self]
  · rw [Function.update_of_ne hwritten, Function.update_of_ne hwritten]
    exact h i hi

/-- A control register leaves the colours alone. -/
theorem deniseControlWrite_color (d : RigelDenise) (addr : UInt32) (value : UInt16) :
    (rigelDeniseControlWrite d addr value).regs.color = d.regs.color := by
  unfold rigelDeniseControlWrite
  repeat' split
  all_goals first
    | rfl
    | rw [(displayWindowUpdate_frame _).1]

theorem PaletteFollows.of_same {d d' : RigelDenise} (h : PaletteFollows d) (hpalette : d'.palette = d.palette)
    (hcolor : d'.regs.color = d.regs.color) : PaletteFollows d' := by
  unfold PaletteFollows
  rw [hpalette, hcolor]
  exact h

theorem PaletteFollows.deniseWrite {d : RigelDenise} (h : PaletteFollows d) (addr : UInt32) (value : UInt16) :
    PaletteFollows (rigelDeniseRegistersWrite d addr value) := by
  unfold rigelDeniseRegistersWrite
  split
  · exact h.colorWrite addr value
  split
  · exact h
  · exact h.of_same (deniseControlWrite_frame d addr value).1 (deniseControlWrite_color d addr value)

/-- **Everything but a reset keeps the palette with the registers.** -/
theorem paletteFollows_kept : DisplayKept fun _ d => PaletteFollows d where
  write {a d} addr value h := by
    unfold deniseAfterWrite
    cases rigelCustomDomainForReg addr with
    | agnus =>
      rw [deniseAfterMmio_eq]
      exact h.of_same rfl rfl
    | denise => exact h.deniseWrite addr value
    | paula => exact h
    | unknown => exact h
  still {a a' d d'} h hs := h.of_same hs.palette (congrArg DeniseRegisterFile.color hs.regs)

/-! ## Reset -/

theorem rigelReset_colors (ctx : RigelContext) :
    (rigelReset ctx).denise.palette.rgb32 = (fun _ => 0) ∧ (rigelReset ctx).denise.regs.color = ctx.denise.regs.color := by
  have hpalette : (rigelReset ctx).denise.palette = ⟨fun _ => 0, fun _ => 0⟩ := displayWindowUpdate_palette _
  have hregs : (rigelReset ctx).denise.regs = (rigelDeniseReset ctx.denise).regs := (displayWindowUpdate_frame _).1
  rw [hpalette, hregs]
  exact ⟨rfl, rfl⟩

theorem paletteFollows_reset_iff (ctx : RigelContext) : PaletteFollows (rigelReset ctx).denise ↔
    ∀ i < 32, ctx.denise.regs.color i &&& 0x0FFF = 0 := by
  obtain ⟨hpalette, hcolor⟩ := rigelReset_colors ctx
  unfold PaletteFollows
  rw [hpalette, hcolor]
  exact forall₂_congr fun i _ => eq_comm.trans (colorExpand_eq_zero _)

/-! ## A run -/

theorem paletteCoherent_create (config : RigelConfig) (ram : ChipRam) : PaletteCoherent (rigelCreate config ram) :=
  (paletteCoherent_iff _).mpr ((paletteFollows_reset_iff _).mpr fun _ _ => (rfl : (0 : UInt16) &&& 0x0FFF = 0))

/-- **One call.** -/
theorem paletteCoherent_call_iff {ctx : RigelContext} (h : PaletteCoherent ctx) (c : HostCall) :
    PaletteCoherent (hostCall ctx c) ↔ ResetsDark ctx c := by
  rw [paletteCoherent_iff] at h ⊢
  by_cases hc : c = .reset
  · subst hc
    refine (paletteFollows_reset_iff ctx).trans ?_
    simp only [ResetsDark, true_imp_iff]
    exact forall₂_congr fun i hi => by rw [customRegsRead16_color ctx hi]
  · exact iff_of_true (paletteFollows_kept.hostCall h hc) fun hreset => absurd hreset hc

/-- **When the palette and the colour registers stay together.** They are together in every state of a run exactly if all
colours are black whenever the run resets. -/
theorem paletteCoherent_run_iff (config : RigelConfig) (ram : ChipRam) (calls : List HostCall) :
    (∀ pre, pre <+: calls → PaletteCoherent (pre.foldl hostCall (rigelCreate config ram))) ↔
      AlongRun hostCall ResetsDark (rigelCreate config ram) calls := by
  have hcreate := paletteCoherent_create config ram
  have hsteps := @alongRun_iff _ _ hostCall (fun ctx c => PaletteCoherent (hostCall ctx c)) ResetsDark PaletteCoherent
    (fun _ c h => paletteCoherent_call_iff h c) (fun _ c h hdark => (paletteCoherent_call_iff h c).mpr hdark) calls _ hcreate
  rw [forall_prefix_iff, hsteps]
  exact and_iff_right hcreate

/-- An orange border, and a reset: COLOR00 still reads orange, and the palette is black. -/
theorem orangeReset_incoherent :
    ¬ PaletteCoherent ([.customWrite 0x180 0x0F83, .reset].foldl hostCall palMachine) := by
  intro h
  have hcolor := h 0 (by decide)
  exact absurd hcolor (by decide +kernel)

/-- **After a reset a colour comes back unseen.** Its own value written once more is no change of the register, so that the
palette changes without a redraw. -/
theorem colorRewrite_unseen (d : RigelDenise) {i : Nat} (hi : i < 32) :
    let d' := rigelDeniseColorRegsWrite (rigelDeniseReset d) (colorReg i) (d.regs.color i)
    d'.palette.rgb32 i = rigelDeniseColorExpand12bit (d.regs.color i) ∧ d'.output.pendingFullRedraw = false := by
  obtain ⟨-, -, -, -, hindex⟩ := colorReg_valid i hi
  simp only [rigelDeniseColorRegsWrite, hindex, Function.update_self]
  refine ⟨trivial, ?_⟩
  simp [rigelDeniseReset, rigelDeniseFramebufferReset]

end Rigel
