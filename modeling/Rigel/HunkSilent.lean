import Rigel.HunkComplete

/-!
# HunkSilent — a silent end is taken for a load

Every branch that ends a file silently comes to the last line of the loader, which returns true.
-/

namespace Rigel

theorem rd32_overrun {f : HunkFile} {r : HunkReader} (h : r.overrun = true) : (rd32 f r).2.overrun = true := by
  unfold rd32
  split
  · rfl
  · exact h

/-- A word sets the flag only if it is missing. -/
theorem rd32_overran {f : HunkFile} {r : HunkReader} (h : r.overrun = false) (hover : (rd32 f r).2.overrun = true) :
    f.size < r.pos + 4 ∧ rd32 f r = (0, { r with overrun := true }) := by
  unfold rd32 at hover ⊢
  by_cases hend : r.pos + 4 > f.size
  · rw [if_pos hend]
    exact ⟨hend, rfl⟩
  · rw [if_neg hend] at hover
    exact absurd (h.symm.trans hover) Bool.false_ne_true

/-- Where the reader is, when the flag or the size of a block depends on it. -/
def ReaderInside (f : HunkFile) (c : HunkLoader) : Prop :=
  match c.phase with
  | .magic | .names | .tableSize | .firstHunk | .lastHunk _ => c.reader.overrun = true → f.size < c.reader.pos + 4
  | .code => c.reader.pos ≤ f.size
  | _ => True

section
variable {f : HunkFile} {load limit : UInt32} {mem : UInt32 → UInt8} {c : HunkLoader}

/-- **The reader stays where the loader relies on it.** -/
theorem hunkStep_reader (h : ReaderInside f c) : ReaderInside f (hunkStep f load limit mem c).next := by
  by_cases hreads : c.readsWord f = true
  · have hover : (c.reader.overrun = true → f.size < c.reader.pos + 4) → (rd32 f c.reader).2.overrun = true →
        f.size < (rd32 f c.reader).2.pos + 4 := by
      intro hbefore hafter
      unfold rd32 at hafter ⊢
      by_cases hend : c.reader.pos + 4 > f.size
      · rw [if_pos hend]
        exact hend
      · rw [if_neg hend] at hafter
        exact absurd (hbefore hafter) hend
    have hinside : (rd32 f c.reader).2.overrun = false → (rd32 f c.reader).2.pos ≤ f.size := by
      intro hafter
      unfold rd32 at hafter ⊢
      by_cases hend : c.reader.pos + 4 > f.size
      · rw [if_pos hend] at hafter
        cases hafter
      · rw [if_neg hend]
        exact UInt32.not_lt.mp hend
    rw [hunkStep_reading hreads]
    unfold ReaderInside at h
    generalize rd32 f c.reader = word at hover hinside ⊢
    obtain ⟨v, ⟨pos, overrun⟩⟩ := word
    obtain ⟨reader, phase, count, segData, segSize, cursor, block⟩ := c
    cases phase with
    | magic | names | tableSize | firstHunk =>
      simp only [hunkWord]
      repeat' split
      all_goals first
        | exact hover h
        | trivial
    | block =>
      simp only [hunkWord, hunkBlock]
      by_cases hflag : overrun = true
      · rw [if_pos hflag]
        trivial
      · rw [if_neg hflag]
        repeat' split
        all_goals first
          | exact hinside (Bool.eq_false_of_not_eq_true hflag)
          | trivial
    | seglist | done result => exact absurd hreads Bool.false_ne_true
    | lastHunk first | segment i | code | bss | relocCount | relocTarget n | relocOffset n target | symbol | debug =>
      simp only [hunkWord, hunkRange, hunkReserve, hunkCopy, hunkRelocate]
      repeat' split
      all_goals trivial
  · unfold hunkStep
    rw [if_neg hreads]
    split
    · trivial
    · trivial
    · exact h

/-- Nothing of the file is left for the loader, or no hunk. -/
def Ending (f : HunkFile) (c : HunkLoader) : Prop :=
  c.phase = .block ∧ (c.reader.overrun = true ∨ f.size ≤ c.reader.pos ∨ c.count ≤ c.block)

theorem hunkStep_ending (load limit : UInt32) (mem : UInt32 → UInt8) (h : Ending f c) : ∃ image, (hunkStep f load limit mem c).next.phase = .done (.ok image) := by
  obtain ⟨hphase, hwhy⟩ := h
  by_cases hreads : c.readsWord f = true
  · have hover : c.reader.overrun = true := by
      unfold HunkLoader.readsWord at hreads
      simp only [hphase, Bool.and_eq_true, decide_eq_true_eq] at hreads
      obtain hover | hend | hclosed := hwhy
      · exact hover
      · exact absurd hreads.1 (UInt32.not_lt.mpr hend)
      · exact absurd hreads.2 (UInt32.not_lt.mpr hclosed)
    rw [hunkStep_reading hreads]
    simp only [hunkWord, hphase, hunkBlock, rd32_overrun hover, if_true]
    exact ⟨_, rfl⟩
  · unfold hunkStep
    rw [if_neg hreads, hphase]
    exact ⟨_, rfl⟩

/-- What a silent end leaves: the loader has returned true, or it is at its end, or no hunk was announced. -/
def Silenced (f : HunkFile) (c : HunkLoader) : Prop :=
  (∃ image, c.phase = .done (.ok image)) ∨ Ending f c ∨ (c.phase = .seglist ∧ c.count = 0)

/-- The count of the hunks wraps to zero, and the header is there. -/
theorem silenced_range {first : UInt32} (hphase : c.phase = .lastHunk first) (hreader : ReaderInside f c)
    (hfirst : first = 0) (hlast : (rd32 f c.reader).1 = 0xFFFFFFFF) :
    Silenced f (hunkStep f load limit mem c).next := by
  subst hfirst
  have hmissing : ¬ (0 : UInt32) = 0xFFFFFFFF := by decide
  have hlt : ¬ (0xFFFFFFFF : UInt32) < 0 := by decide
  have hmany : ¬ (0xFFFFFFFF : UInt32) - 0 + 1 > maxHunks := by decide
  have hzero : ¬ (0 : UInt32) < 0xFFFFFFFF - 0 + 1 := by decide
  have hcount : (0xFFFFFFFF : UInt32) - 0 + 1 = 0 := by decide
  have hreads : c.readsWord f = true := by
    unfold HunkLoader.readsWord
    rw [hphase]
  have hflag : ¬ (rd32 f c.reader).2.overrun = true := by
    unfold ReaderInside at hreader
    rw [hphase] at hreader
    unfold rd32 at hlast ⊢
    by_cases hend : c.reader.pos + 4 > f.size
    · rw [if_pos hend] at hlast
      exact absurd hlast hmissing
    · rw [if_neg hend]
      exact fun hover => hend (hreader hover)
  rw [hunkStep_reading hreads, hlast]
  simp only [hunkWord, hphase, hunkRange]
  rw [if_neg hflag, if_neg hlt, if_neg hmany, if_neg hzero]
  exact Or.inr (Or.inr ⟨rfl, hcount⟩)

/-- The file is at its end, or the type of a block is missing or unknown. -/
theorem silenced_block (hphase : c.phase = .block) (hwhy : f.size ≤ c.reader.pos ∨ (rd32 f c.reader).2.overrun = true ∨
    ¬ KnownType ((rd32 f c.reader).1 &&& hunkTypeMask)) : Silenced f (hunkStep f load limit mem c).next := by
  by_cases hreads : c.readsWord f = true
  · rw [hunkStep_reading hreads]
    simp only [hunkWord, hphase]
    by_cases hover : (rd32 f c.reader).2.overrun = true
    · unfold hunkBlock
      simp only [hover, if_true]
      exact Or.inl ⟨_, rfl⟩
    · have hunknown : ¬ KnownType ((rd32 f c.reader).1 &&& hunkTypeMask) := by
        rcases hwhy with hend | hover' | hunknown
        · unfold HunkLoader.readsWord at hreads
          simp only [hphase, Bool.and_eq_true, decide_eq_true_eq] at hreads
          exact absurd hreads.1 (UInt32.not_lt.mpr hend)
        · exact absurd hover' hover
        · exact hunknown
      unfold KnownType at hunknown
      simp only [not_or] at hunknown
      obtain ⟨hcode, hdata, hbss, hreloc, hclose, hsymbol, hdebug⟩ := hunknown
      unfold hunkBlock
      simp only [hover, hcode, hdata, hbss, hreloc, hclose, hsymbol, hdebug, or_false, if_false]
      exact Or.inr (Or.inl ⟨rfl, Or.inr (Or.inl (UInt32.le_refl _))⟩)
  · unfold hunkStep
    rw [if_neg hreads, hphase]
    exact Or.inl ⟨_, rfl⟩

/-- The length of a block that is copied is missing: it counts as zero. -/
theorem silenced_code (hphase : c.phase = .code) (hinside : c.reader.pos ≤ f.size)
    (hmissing : rd32 f c.reader = (0, { c.reader with overrun := true })) :
    Silenced f (hunkStep f load limit mem c).next := by
  have hreads : c.readsWord f = true := by
    unfold HunkLoader.readsWord
    rw [hphase]
  have hend : ¬ c.reader.pos + 0 * 4 > f.size := by
    rw [UInt32.zero_mul, UInt32.add_zero]
    exact UInt32.not_lt.mpr hinside
  have hlong : ¬ (0 : UInt32) * 4 > c.segSize c.block.toNat := by
    rw [UInt32.zero_mul]
    exact UInt32.not_lt.mpr (UInt32.le_iff_toNat_le.mpr (Nat.zero_le _))
  rw [hunkStep_reading hreads, hmissing]
  simp only [hunkWord, hphase, hunkCopy]
  rw [if_neg hend, if_neg hlong]
  exact Or.inr (Or.inl ⟨rfl, Or.inl rfl⟩)

/-- **A silent end rejects nothing**: what it leaves for the loader is the end. -/
theorem hunkStep_silent (load limit : UInt32) (mem : UInt32 → UInt8) (horder : HunkOrder c) (hreader : ReaderInside f c)
    (h : SilentEnd f c) : Silenced f (hunkStep f load limit mem c).next := by
  unfold HunkOrder at horder
  unfold SilentEnd at h
  cases hphase : c.phase with
  | lastHunk first =>
    rw [hphase] at h
    exact silenced_range hphase hreader h.1 h.2
  | block =>
    rw [hphase] at h
    exact silenced_block hphase h.2
  | code =>
    simp only [hphase] at h horder
    unfold ReaderInside at hreader
    rw [hphase] at hreader
    exact silenced_code hphase hreader (rd32_overran horder.2 h).2
  | bss | relocCount | symbol | debug =>
    simp only [hphase] at h horder
    have hreads : c.readsWord f = true := by
      unfold HunkLoader.readsWord
      rw [hphase]
    rw [hunkStep_reading hreads, (rd32_overran horder.2 h).2]
    simp only [hunkWord, hphase, true_or, if_true]
    exact Or.inr (Or.inl ⟨rfl, Or.inl rfl⟩)
  | magic | names | tableSize | firstHunk | segment i | seglist | relocTarget n | relocOffset n target | done result =>
    rw [hphase] at h
    exact h.elim

end

section
variable {σ : Type*} {g : HunkGuest σ} {f : HunkFile} {load limit : UInt32} {ctx : σ}

theorem hunkRun_reader (n : Nat) : ReaderInside f (hunkRun g f load limit ctx n).loader := by
  induction n with
  | zero => exact fun hover => absurd hover Bool.false_ne_true
  | succ n ih =>
    rw [hunkRun_succ]
    exact hunkStep_reader ih

/-- **A file that is ended silently is loaded.** -/
theorem silentEnd_loads {n : Nat} (h : SilentEnd f (hunkRun g f load limit ctx n).loader) :
    ∃ image, HunkReturns g f load limit ctx (.ok image) := by
  -- up to the first silent end, the loader keeps its order
  induction n using Nat.strong_induction_on with
  | h n ih =>
    by_cases hbefore : ∃ k < n, SilentEnd f (hunkRun g f load limit ctx k).loader
    · obtain ⟨k, hk, hsilent⟩ := hbefore
      exact ih k hk hsilent
    · have horder := hunkRun_order (n := n) fun k hk hsilent => hbefore ⟨k, hk, hsilent⟩
      have hending : ∀ m, Ending f (hunkRun g f load limit ctx m).loader →
          ∃ image, HunkReturns g f load limit ctx (.ok image) := by
        intro m hm
        obtain ⟨image, himage⟩ := hunkStep_ending load limit (g.read8 (hunkRun g f load limit ctx m).ctx) hm
        exact ⟨image, m + 1, by rw [hunkRun_succ]; exact himage⟩
      have hnext := hunkStep_silent load limit (g.read8 (hunkRun g f load limit ctx n).ctx) horder (hunkRun_reader n) h
      have hstep : (hunkStep f load limit (g.read8 (hunkRun g f load limit ctx n).ctx)
          (hunkRun g f load limit ctx n).loader).next = (hunkRun g f load limit ctx (n + 1)).loader := by
        rw [hunkRun_succ]
        rfl
      rw [hstep] at hnext
      rcases hnext with ⟨image, himage⟩ | hend | ⟨hphase, hcount⟩
      · exact ⟨image, n + 1, himage⟩
      · exact hending _ hend
      · refine hending (n + 2) ?_
        rw [hunkRun_succ]
        unfold hunkMachineStep HunkMachine.effect hunkStep HunkLoader.readsWord
        simp only [hphase]
        refine ⟨rfl, Or.inr (Or.inr ?_)⟩
        unfold HunkLoader.to
        simp only [hcount]
        exact UInt32.le_iff_toNat_le.mpr (Nat.zero_le _)

end

end Rigel
