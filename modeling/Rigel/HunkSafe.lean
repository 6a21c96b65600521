import Rigel.HunkBounds

/-!
# HunkSafe — the loader over any file

As long as no sum wraps, what is reserved stays within the memory, and the loader returns. A sum that wraps in a skip over a
name or a debug block moves the reader backwards, and the loader may then read the same blocks for ever.
-/

namespace Rigel

section
variable {load limit : UInt32} {c : HunkLoader}

/-! ## The invariant -/

theorem HunkInv.moves (h : HunkInv load limit c) {phase : HunkPhase} (r : HunkReader)
    (hreserved : (c.to phase).reserved ≤ c.reserved) (hnext : ∀ i, phase ≠ .segment i)
    (hblock : (c.to phase).inBlock = true → c.block < c.count) :
    HunkInv load limit { c with reader := r, phase := phase } where
  segments := fun i hi => h.segments i (Nat.lt_of_lt_of_le hi hreserved)
  next := fun i hi => absurd hi (hnext i)
  block := hblock

theorem hunkRange_inv (h : HunkInv load limit c) (first last : UInt32) : HunkInv load limit (hunkRange c first last) := by
  have hfail : ∀ e, HunkInv load limit (c.fail e) := fun e =>
    h.moves _ (Nat.zero_le _) (fun i hi => by cases hi) fun hblock => absurd hblock Bool.false_ne_true
  unfold hunkRange
  simp only
  split
  · exact hfail _
  · split
    · exact hfail _
    · split
      · exact hfail _
      · rename_i hmany
        have hcount := UInt32.le_iff_toNat_le.mp (UInt32.not_lt.mp hmany)
        have h64 : maxHunks.toNat = 64 := rfl
        split
        · rename_i hpos
          have hpos' := UInt32.lt_iff_toNat_lt.mp hpos
          rw [UInt32.toNat_zero] at hpos'
          refine ⟨fun i hi => absurd hi (Nat.not_lt_zero i), fun i hi => ?_, fun hblock => absurd hblock Bool.false_ne_true⟩
          cases hi
          exact ⟨hpos', by rw [← h64]; exact hcount⟩
        · rename_i hpos
          have hzero := UInt32.le_iff_toNat_le.mp (UInt32.not_lt.mp hpos)
          rw [UInt32.toNat_zero] at hzero
          refine ⟨fun i hi => ?_, (fun i hi => by cases hi), fun hblock => absurd hblock Bool.false_ne_true⟩
          have hlt : i < (last - first + 1).toNat := hi
          omega

theorem hunkReserve_inv {i : Nat} (h : HunkInv load limit c) (hphase : c.phase = .segment i) {longs : UInt32}
    (hfit : ¬ ReserveWraps load limit c longs) : HunkInv load limit (hunkReserve limit c i longs).1 := by
  obtain ⟨hlt, h64⟩ := h.next i hphase
  have hreserved : c.reserved = i := by
    unfold HunkLoader.reserved
    rw [hphase]
  unfold ReserveWraps at hfit
  unfold hunkReserve
  simp only at hfit ⊢
  generalize (longs &&& hunkTypeMask) * 4 = bytes at hfit
  have hseg : segHeader.toNat = 8 := rfl
  by_cases hover : c.cursor + segHeader + bytes > limit
  · rw [if_pos hover]
    exact h.moves _ (Nat.zero_le _) (fun i hi => by cases hi) fun hblock => absurd hblock Bool.false_ne_true
  · have hle := UInt32.not_lt.mp hover
    have hle' := UInt32.le_iff_toNat_le.mp hle
    rw [if_neg hover]
    simp only [hle, and_true, not_or] at hfit
    obtain ⟨hwrap, hlow⟩ := hfit
    have hlow' := UInt32.le_iff_toNat_le.mp (UInt32.not_lt.mp hlow)
    rw [UInt32.toNat_add, UInt32.toNat_add, hseg, Nat.mod_add_mod, Nat.mod_eq_of_lt (by omega)] at hle'
    have hdata : (c.cursor + segHeader).toNat = c.cursor.toNat + 8 := by
      rw [UInt32.toNat_add, hseg, Nat.mod_eq_of_lt (by omega)]
    have hsegments : ∀ j < i + 1, load.toNat + 8 ≤ (Function.update c.segData i (c.cursor + segHeader) j).toNat ∧
        (Function.update c.segData i (c.cursor + segHeader) j).toNat + (Function.update c.segSize i bytes j).toNat ≤
          limit.toNat := by
      intro j hj
      by_cases hji : j = i
      · subst hji
        rw [Function.update_self, Function.update_self, hdata]
        omega
      · rw [Function.update_of_ne hji, Function.update_of_ne hji]
        exact h.segments j (by omega)
    split
    · rename_i hmore
      refine ⟨hsegments, fun j hj => ?_, fun hblock => absurd hblock Bool.false_ne_true⟩
      cases hj
      exact ⟨hmore, h64⟩
    · rename_i hlast
      split
      · exact ⟨fun j hj => absurd hj (Nat.not_lt_zero j), (fun j hj => by cases hj),
          fun hblock => absurd hblock Bool.false_ne_true⟩
      · refine ⟨fun j hj => hsegments j ?_, (fun j hj => by cases hj), fun hblock => absurd hblock Bool.false_ne_true⟩
        have hcount : j < c.count.toNat := hj
        omega

/-- **A step whose sums fit keeps the invariant.** -/
theorem hunkStep_inv {f : HunkFile} (h : HunkInv load limit c) (hfit : SumsFit f load limit c) (mem : UInt32 → UInt8) :
    HunkInv load limit (hunkStep f load limit mem c).next := by
  by_cases hreads : c.readsWord f = true
  · have hfits := (hfit hreads).2.2
    rw [hunkStep_reading hreads]
    simp only
    have hinv : HunkInv load limit { c with reader := (rd32 f c.reader).2 } := ⟨h.segments, h.next, h.block⟩
    generalize (rd32 f c.reader).1 = v at hfits
    generalize (rd32 f c.reader).2 = r at hinv
    have hopen : c.phase = .block → c.block < c.count := by
      intro hblock
      unfold HunkLoader.readsWord at hreads
      rw [hblock] at hreads
      simp only [Bool.and_eq_true, decide_eq_true_eq] at hreads
      exact hreads.2
    obtain ⟨reader, phase, count, segData, segSize, cursor, block⟩ := c
    -- a step that ends the loader, and one that stays among the blocks
    have hend : ∀ r result, HunkInv load limit ⟨r, .done result, count, segData, segSize, cursor, block⟩ := fun r result =>
      hinv.moves r (Nat.zero_le _) (fun i hi => by cases hi) fun hblock => absurd hblock Bool.false_ne_true
    have hhead : ∀ (r : HunkReader) (next : HunkPhase),
        (HunkLoader.mk r next count segData segSize cursor block).reserved = 0 → (∀ i, next ≠ .segment i) →
        (HunkLoader.mk r next count segData segSize cursor block).inBlock = false →
        HunkInv load limit ⟨r, next, count, segData, segSize, cursor, block⟩ := fun r next hzero hnext hout =>
      hinv.moves r (Nat.le_trans (Nat.le_of_eq hzero) (Nat.zero_le _)) hnext fun hblock => absurd (hout.symm.trans hblock) (by decide)
    cases phase with
    | magic =>
      simp only [hunkWord]
      split
      · exact hend _ _
      · exact hhead _ _ rfl (fun i hi => by cases hi) rfl
    | names =>
      simp only [hunkWord]
      split
      · split
        · exact hend _ _
        · exact hinv
      · exact hhead _ _ rfl (fun i hi => by cases hi) rfl
    | tableSize => exact hhead _ _ rfl (fun i hi => by cases hi) rfl
    | firstHunk => exact hhead _ _ rfl (fun i hi => by cases hi) rfl
    | lastHunk first => exact hunkRange_inv hinv first v
    | segment i => exact hunkReserve_inv hinv rfl (hfits i rfl)
    | seglist | done result => exact hinv
    | block =>
      have hkeep : ∀ (r : HunkReader) (next : HunkPhase),
          (HunkLoader.mk r next count segData segSize cursor block).reserved = count.toNat → (∀ i, next ≠ .segment i) →
          HunkInv load limit ⟨r, next, count, segData, segSize, cursor, block⟩ := fun r next hall hnext =>
        hinv.moves r (Nat.le_of_eq hall) hnext fun _ => hopen rfl
      simp only [hunkWord, hunkBlock]
      repeat' split
      · exact hend _ _
      · exact hkeep _ _ rfl (fun i hi => by cases hi)
      · exact hkeep _ _ rfl (fun i hi => by cases hi)
      · exact hkeep _ _ rfl (fun i hi => by cases hi)
      · exact ⟨hinv.segments, (fun i hi => by cases hi), fun hblock => absurd hblock Bool.false_ne_true⟩
      · exact hkeep _ _ rfl (fun i hi => by cases hi)
      · exact hkeep _ _ rfl (fun i hi => by cases hi)
      · exact hkeep _ _ rfl (fun i hi => by cases hi)
    | code | bss | relocCount | relocTarget n | relocOffset n target | symbol | debug =>
      have hkeep : ∀ (r : HunkReader) (next : HunkPhase),
          (HunkLoader.mk r next count segData segSize cursor block).reserved = count.toNat → (∀ i, next ≠ .segment i) →
          HunkInv load limit ⟨r, next, count, segData, segSize, cursor, block⟩ := fun r next hall hnext =>
        hinv.moves r (Nat.le_of_eq hall) hnext fun _ => hinv.block rfl
      simp only [hunkWord, hunkCopy, hunkRelocate]
      repeat' split
      all_goals first
        | exact hend _ _
        | exact hkeep _ _ rfl (fun i hi => by cases hi)
  · unfold hunkStep
    rw [if_neg hreads]
    split
    · rename_i hseglist
      refine h.moves _ (Nat.le_of_eq ?_) (fun i hi => by cases hi) fun hblock => absurd hblock Bool.false_ne_true
      unfold HunkLoader.reserved
      rw [hseglist]
      rfl
    · exact h.moves _ (Nat.zero_le _) (fun i hi => by cases hi) fun hblock => absurd hblock Bool.false_ne_true
    · exact h

end

/-! ## Termination -/

/-- **A word of the file**, or none: then the reader stays and has overrun. -/
theorem rd32_fits {f : HunkFile} {r : HunkReader} (h : ¬ WordWraps f r) :
    (rd32 f r).2.overrun = true ∨
      ((rd32 f r).2.overrun = r.overrun ∧ (rd32 f r).2.pos.toNat = r.pos.toNat + 4 ∧ r.pos.toNat + 4 ≤ f.size.toNat) := by
  unfold WordWraps at h
  unfold rd32
  have h4 : (4 : UInt32).toNat = 4 := rfl
  by_cases hover : r.pos + 4 > f.size
  · rw [if_pos hover]
    exact Or.inl rfl
  · have hle := UInt32.not_lt.mp hover
    have hle' := UInt32.le_iff_toNat_le.mp hle
    rw [if_neg hover]
    rw [UInt32.toNat_add, h4] at hle'
    have hsmall : r.pos.toNat + 4 < 2 ^ 32 := by
      simp only [hle, and_true] at h
      omega
    rw [Nat.mod_eq_of_lt hsmall] at hle'
    refine Or.inr ⟨rfl, ?_, hle'⟩
    simp only [UInt32.toNat_add, h4, Nat.mod_eq_of_lt hsmall]

/-- How far a phase is from the end when no more words come. -/
def HunkPhase.rank : HunkPhase → Nat
  | .done _ => 0
  | .block | .relocOffset _ _ => 1
  | .seglist | .code | .bss | .relocCount | .relocTarget _ | .symbol | .debug => 2
  | .segment i => 3 + (64 - i)
  | .lastHunk _ => 68
  | .firstHunk => 69
  | .tableSize => 70
  | .names => 71
  | .magic => 72

theorem HunkPhase.rank_le (phase : HunkPhase) : phase.rank ≤ 72 := by
  cases phase <;> simp only [HunkPhase.rank] <;> omega

/-- The words that are left count for more than the phases. -/
def HunkLoader.distance (f : HunkFile) (c : HunkLoader) : Nat :=
  (if c.reader.overrun then 0 else 1 + (f.size.toNat - c.reader.pos.toNat)) * 100 + c.phase.rank

/-- Once the reader has overrun, every word brings the loader nearer to its end. -/
theorem hunkWord_rank {load limit : UInt32} {c : HunkLoader} (h : HunkInv load limit c)
    (hover : c.reader.overrun = true) (f : HunkFile) (mem : UInt32 → UInt8) (v : UInt32) (hread : c.phase ≠ .seglist ∧ ∀ result, c.phase ≠ .done result) :
    (hunkWord f load limit mem c v).next.phase.rank < c.phase.rank := by
  have hnext := h.next
  obtain ⟨⟨pos, overrun⟩, phase, count, segData, segSize, cursor, block⟩ := c
  simp only at hover
  subst hover
  cases phase with
  | seglist => exact absurd rfl hread.1
  | done result => exact absurd rfl (hread.2 result)
  | segment i =>
    obtain ⟨hlt, h64⟩ := hnext i rfl
    have hlt' : i < count.toNat := hlt
    have h64' : count.toNat ≤ 64 := h64
    simp only [hunkWord, hunkReserve]
    repeat' split
    all_goals simp only [HunkLoader.fail, HunkLoader.to, HunkPhase.rank]
    all_goals omega
  | magic | names | tableSize | firstHunk | lastHunk first | block | code | bss | relocCount | relocTarget n
  | relocOffset n target | symbol | debug =>
    simp only [hunkWord, hunkRange, hunkBlock, hunkCopy, hunkRelocate, or_true, if_true]
    repeat' split
    all_goals simp only [HunkLoader.fail, HunkLoader.to, HunkLoader.loaded, HunkPhase.rank]
    all_goals omega

/-- Only a word that is not there makes the reader overrun. -/
theorem hunkWord_overrun (f : HunkFile) (load limit : UInt32) (mem : UInt32 → UInt8) (c : HunkLoader) (v : UInt32) :
    (hunkWord f load limit mem c v).next.reader.overrun = c.reader.overrun := by
  obtain ⟨⟨pos, overrun⟩, phase, count, segData, segSize, cursor, block⟩ := c
  cases phase
  all_goals
    simp only [hunkWord, hunkRange, hunkReserve, hunkBlock, hunkCopy, hunkRelocate]
    repeat' split
  all_goals rfl

/-- Where its skips lead forward, a word leaves the reader no further back. -/
theorem hunkWord_forward {f : HunkFile} {load limit : UInt32} {c : HunkLoader} (hpos : c.reader.pos.toNat ≤ f.size.toNat)
    {v : UInt32} (hcode : c.phase = .code → ¬ CopyWraps f c v)
    (hsymbol : c.phase = .symbol → v ≠ 0 → c.reader.pos ≤ c.reader.pos + (v * 4 + 4))
    (hdebug : c.phase = .debug → c.reader.pos ≤ c.reader.pos + v * 4) (mem : UInt32 → UInt8) :
    c.reader.pos.toNat ≤ (hunkWord f load limit mem c v).next.reader.pos.toNat := by
  obtain ⟨⟨pos, overrun⟩, phase, count, segData, segSize, cursor, block⟩ := c
  have hstay : pos.toNat ≤ pos.toNat := Nat.le_refl _
  cases phase with
  | code =>
    have hcopy := hcode rfl
    unfold CopyWraps at hcopy
    simp only at hpos hcopy
    simp only [hunkWord, hunkCopy]
    split
    · exact hstay
    · rename_i hover
      split
      · exact hstay
      · rename_i hlong
        have hle := UInt32.not_lt.mp hover
        have hfits := UInt32.not_lt.mp hlong
        simp only [hle, hfits, and_true] at hcopy
        simp only
        rw [UInt32.toNat_add, Nat.mod_eq_of_lt (by omega)]
        omega
  | symbol =>
    have hskip := hsymbol rfl
    simp only at hskip
    simp only [hunkWord]
    split
    · exact hstay
    · rename_i hmore
      exact UInt32.le_iff_toNat_le.mp (hskip fun hzero => hmore (Or.inl hzero))
  | debug => exact UInt32.le_iff_toNat_le.mp (hdebug rfl)
  | block =>
    simp only [hunkWord, hunkBlock]
    repeat' split
    all_goals first
      | exact hstay
      | exact hpos
  | magic | names | tableSize | firstHunk | lastHunk first | segment i | seglist | bss | relocCount | relocTarget n
  | relocOffset n target | done result =>
    simp only [hunkWord, hunkRange, hunkReserve, hunkRelocate]
    repeat' split
    all_goals exact hstay

/-- **Every step brings the loader nearer to its end**, if its sums fit and its skips lead forward. -/
theorem hunkStep_distance {f : HunkFile} {load limit : UInt32} {c : HunkLoader} (h : HunkInv load limit c)
    (hfit : SumsFit f load limit c) (hskip : SkipsForward f c) (mem : UInt32 → UInt8)
    (hdone : ∀ result, c.phase ≠ .done result) :
    (hunkStep f load limit mem c).next.distance f < c.distance f := by
  by_cases hreads : c.readsWord f = true
  · have hresting : c.phase ≠ .seglist := by
      intro hseglist
      unfold HunkLoader.readsWord at hreads
      rw [hseglist] at hreads
      exact Bool.false_ne_true hreads
    obtain ⟨hword, hcode, -⟩ := hfit hreads
    have hinv : HunkInv load limit { c with reader := (rd32 f c.reader).2 } := ⟨h.segments, h.next, h.block⟩
    have hover := hunkWord_overrun f load limit mem { c with reader := (rd32 f c.reader).2 } (rd32 f c.reader).1
    have hrank := (hunkWord f load limit mem { c with reader := (rd32 f c.reader).2 } (rd32 f c.reader).1).next.phase.rank_le
    unfold SkipsForward at hskip
    rw [hunkStep_reading hreads]
    unfold HunkLoader.distance
    simp only [hover] at hskip ⊢
    obtain hnone | ⟨hsame, hpos, hin⟩ := rd32_fits hword
    · have hdrop := hunkWord_rank hinv hnone f mem (rd32 f c.reader).1 ⟨hresting, hdone⟩
      rw [if_pos hnone]
      simp only at hdrop ⊢
      omega
    · by_cases hbefore : c.reader.overrun = true
      · have hdrop := hunkWord_rank hinv (hsame.trans hbefore) f mem (rd32 f c.reader).1 ⟨hresting, hdone⟩
        rw [if_pos (hsame.trans hbefore)]
        simp only at hdrop ⊢
        omega
      · have hpos' : (rd32 f c.reader).2.pos.toNat ≤ f.size.toNat := by omega
        have hforward := @hunkWord_forward f load limit { c with reader := (rd32 f c.reader).2 } hpos'
          (rd32 f c.reader).1 hcode
          (fun hsymbol => by simp only at hsymbol; rw [hsymbol] at hskip; exact hskip)
          (fun hdebug => by simp only at hdebug; rw [hdebug] at hskip; exact hskip) mem
        rw [hsame, if_neg hbefore, if_neg hbefore]
        simp only at hforward
        omega
  · have hrest : (hunkStep f load limit mem c).next.reader = c.reader ∧
        (hunkStep f load limit mem c).next.phase.rank < c.phase.rank := by
      unfold hunkStep
      rw [if_neg hreads]
      split
      · rename_i hseglist
        rw [hseglist]
        exact ⟨rfl, Nat.lt_succ_self 1⟩
      · rename_i hblock
        rw [hblock]
        exact ⟨rfl, Nat.lt_succ_self 0⟩
      · rename_i hseglist hblock
        unfold HunkLoader.readsWord at hreads
        split at hreads
        · rename_i hphase
          exact absurd hphase hseglist
        · rename_i result hphase
          exact absurd hphase (hdone result)
        · rename_i hphase
          exact absurd hphase hblock
        · exact absurd rfl hreads
    unfold HunkLoader.distance
    rw [hrest.1]
    have hdrop := hrest.2
    omega

/-! ## Runs -/

section
variable {σ : Type*} (g : HunkGuest σ) (f : HunkFile) (load limit : UInt32) (ctx : σ)

/-- **What a loader owes to every file**: it returns, it reads of the file only, and it writes within the memory only. -/
structure HunkSafe : Prop where
  returns : ∃ result, HunkReturns g f load limit ctx result
  reads : ∀ n, ∀ o ∈ ((hunkRun g f load limit ctx n).effect g f load limit).reads, o < f.size.toNat
  writes : ∀ n, WritesInside load.toNat limit.toNat ((hunkRun g f load limit ctx n).effect g f load limit).writes

theorem hunkStart_inv : HunkInv load limit (hunkStart load) :=
  ⟨fun i hi => absurd hi (Nat.not_lt_zero i), (fun i hi => by cases hi), fun hblock => absurd hblock Bool.false_ne_true⟩

variable {g f load limit ctx}

/-- As long as the sums fit, the invariant holds. -/
theorem hunkRun_inv {n : Nat} (h : ∀ k < n, SumsFit f load limit (hunkRun g f load limit ctx k).loader) :
    HunkInv load limit (hunkRun g f load limit ctx n).loader := by
  induction n with
  | zero => exact hunkStart_inv load limit
  | succ n ih =>
    rw [hunkRun_succ]
    exact hunkStep_inv (ih fun k hk => h k (Nat.lt_succ_of_lt hk)) (h n (Nat.lt_succ_self n)) _

/-- **The loader returns**, if its sums fit and its skips lead forward. -/
theorem hunkRun_returns (hfit : ∀ n, SumsFit f load limit (hunkRun g f load limit ctx n).loader)
    (hskip : ∀ n, SkipsForward f (hunkRun g f load limit ctx n).loader) :
    ∃ result, HunkReturns g f load limit ctx result := by
  have hdown : ∀ d n, (hunkRun g f load limit ctx n).loader.distance f ≤ d →
      ∃ result, HunkReturns g f load limit ctx result := by
    intro d
    induction d with
    | zero =>
      intro n hn
      by_contra hnever
      have hdrop := hunkStep_distance (hunkRun_inv fun k _ => hfit k) (hfit n) (hskip n)
        (g.read8 (hunkRun g f load limit ctx n).ctx) fun result hresult => hnever ⟨result, n, hresult⟩
      omega
    | succ d ih =>
      intro n hn
      by_cases hdone : ∃ result, (hunkRun g f load limit ctx n).loader.phase = .done result
      · obtain ⟨result, hresult⟩ := hdone
        exact ⟨result, n, hresult⟩
      · have hdrop := hunkStep_distance (hunkRun_inv fun k _ => hfit k) (hfit n) (hskip n)
          (g.read8 (hunkRun g f load limit ctx n).ctx) fun result hresult => hdone ⟨result, hresult⟩
        refine ih (n + 1) ?_
        rw [hunkRun_succ]
        exact Nat.le_of_lt_succ (Nat.lt_of_lt_of_le hdrop hn)
  exact hdown _ 0 (Nat.le_refl _)

/-- The sums of a step fit exactly if what it reads and writes is inside. -/
theorem sumsFit_iff {c : HunkLoader} (h : HunkInv load limit c) (mem : UInt32 → UInt8) : SumsFit f load limit c ↔
    (∀ o ∈ (hunkStep f load limit mem c).reads, o < f.size.toNat) ∧
      WritesInside load.toNat limit.toNat (hunkStep f load limit mem c).writes := by
  rw [hunkStep_reads_iff, hunkStep_writes_iff h]
  unfold SumsFit
  constructor
  · intro hfit
    exact ⟨fun hreads => ⟨(hfit hreads).1, (hfit hreads).2.1⟩, fun hreads => (hfit hreads).2.2⟩
  · rintro ⟨hreads, hwrites⟩ hreading
    exact ⟨(hreads hreading).1, (hreads hreading).2, hwrites hreading⟩

/-- **When the loader is safe.** Where no skip leads back, it returns and keeps to the file and the memory exactly if no sum
wraps that a read or a write depends on. -/
theorem hunkLoad_safe_iff (hskip : ∀ n, SkipsForward f (hunkRun g f load limit ctx n).loader) :
    HunkSafe g f load limit ctx ↔ ∀ n, SumsFit f load limit (hunkRun g f load limit ctx n).loader := by
  constructor
  · intro hsafe n
    induction n using Nat.strong_induction_on with
    | h n ih => exact (sumsFit_iff (hunkRun_inv ih) _).mpr ⟨hsafe.reads n, hsafe.writes n⟩
  · intro hfit
    have hinside := fun n => (sumsFit_iff (hunkRun_inv fun k _ => hfit k)
      (g.read8 (hunkRun g f load limit ctx n).ctx)).mp (hfit n)
    exact ⟨hunkRun_returns hfit hskip, fun n => (hinside n).1, fun n => (hinside n).2⟩

end

/-- What holds of the loader until it returns, and of every loader that has returned, holds always. -/
theorem hunkRun_forall {σ : Type*} {g : HunkGuest σ} {f : HunkFile} {load limit : UInt32} {ctx : σ} {P : HunkLoader → Prop}
    {n : Nat} (h : ∀ k < n, P (hunkRun g f load limit ctx k).loader)
    (hdone : (hunkRun g f load limit ctx n).loader.phase.isDone = true)
    (hP : ∀ c : HunkLoader, c.phase.isDone = true → P c) (k : Nat) : P (hunkRun g f load limit ctx k).loader := by
  by_cases hk : k < n
  · exact h k hk
  · obtain ⟨result, hresult⟩ := HunkPhase.isDone_iff.mp hdone
    rw [hunkRun_done g f load limit hresult (Nat.not_lt.mp hk)]
    exact hP _ hdone

/-- One CODE hunk of a longword, with a name and a relocation of the longword by its own address. -/
def smallHunkFile : HunkFile :=
  .ofWords [0x3F3, 0, 1, 0, 0, 1, 0x3E9, 1, 0x00000010, 0x3EC, 1, 0, 0, 0, 0x3F0, 1, 0x73746172, 0, 0, 0x3F2]

/-- The small file ends its loader, and nothing wraps on the way. -/
theorem smallHunkFile_run :
    (∀ n < 24, SumsFit smallHunkFile 0x1000 0x80000 (hunkRun ramGuest smallHunkFile 0x1000 0x80000 (fun _ => 0) n).loader ∧
      SkipsForward smallHunkFile (hunkRun ramGuest smallHunkFile 0x1000 0x80000 (fun _ => 0) n).loader) ∧
    (hunkRun ramGuest smallHunkFile 0x1000 0x80000 (fun _ => 0) 24).loader.phase.isDone = true := by
  decide +kernel

/-- The loader of the small file is safe. -/
theorem smallHunkFile_safe : HunkSafe ramGuest smallHunkFile 0x1000 0x80000 fun _ => 0 :=
  (hunkLoad_safe_iff (hunkRun_forall (fun n hn => (smallHunkFile_run.1 n hn).2) smallHunkFile_run.2
    fun _ => skipsForward_done)).mpr (hunkRun_forall (fun n hn => (smallHunkFile_run.1 n hn).1) smallHunkFile_run.2
      fun _ => sumsFit_done)

/-- A file whose name is so long that it leads to the last word of the addresses. -/
def longNameFile : HunkFile := .ofWords [0x3F3, 0, 1, 0, 0, 0, 0x3F0, 0x3FFFFFF6]

/-- The word there is read, though the file has 32 bytes. -/
theorem longNameFile_unsafe : ¬ HunkSafe ramGuest longNameFile 0x1000 0x80000 fun _ => 0 := fun h =>
  absurd (h.reads 9 4294967292 (by decide +kernel)) (by decide)

/-- A file whose debug block leads back to its own type. -/
def endlessFile : HunkFile := .ofWords [0x3F3, 0, 1, 0, 0, 0, 0x3F1, 0x3FFFFFFE]

/-- At the debug block, two steps change nothing. -/
theorem endlessFile_again {s : HunkMachine (UInt32 → UInt8)} (hreader : s.loader.reader = ⟨24, false⟩)
    (hphase : s.loader.phase = .block) (hcount : s.loader.count = 1) (hblock : s.loader.block = 0) :
    hunkMachineStep ramGuest endlessFile 0x1000 0x80000 (hunkMachineStep ramGuest endlessFile 0x1000 0x80000 s) = s := by
  obtain ⟨⟨reader, phase, count, segData, segSize, cursor, block⟩, ctx⟩ := s
  cases hreader
  cases hphase
  cases hcount
  cases hblock
  have htype : rd32 endlessFile ⟨24, false⟩ = (0x3F1, ⟨28, false⟩) := by decide +kernel
  have hlength : rd32 endlessFile ⟨28, false⟩ = (0x3FFFFFFE, ⟨32, false⟩) := by decide +kernel
  have hin : (24 : UInt32) < endlessFile.size := by decide +kernel
  have hmask : (0x3F1 : UInt32) &&& 0x3FFFFFFF = 0x3F1 := by decide
  simp [hmask, hunkMachineStep, HunkMachine.effect, hunkStep, HunkLoader.readsWord, htype, hlength, hin, hunkWord, hunkBlock,
    hunkTypeMask, hunkCode, hunkData, hunkBss, hunkReloc32, hunkEnd, hunkSymbol, hunkDebug, HunkLoader.to, HunkGuest.apply]

/-- **A skip that leads back** keeps the loader from returning. -/
theorem endlessFile_never :
    ¬ ∃ result, HunkReturns ramGuest endlessFile 0x1000 0x80000 (fun _ => 0) result := by
  have hback : ∀ n, hunkRun ramGuest endlessFile 0x1000 0x80000 (fun _ => 0) (7 + 2 * n) =
      hunkRun ramGuest endlessFile 0x1000 0x80000 (fun _ => 0) 7 := by
    intro n
    induction n with
    | zero => rfl
    | succ n ih =>
      rw [Nat.mul_succ, ← Nat.add_assoc, hunkRun_succ, hunkRun_succ, ih]
      exact endlessFile_again (by decide +kernel) (by decide +kernel) (by decide +kernel) (by decide +kernel)
  rintro ⟨result, m, hresult⟩
  have hlate := hunkRun_done _ _ _ _ hresult (k := 7 + 2 * m) (by omega)
  rw [hback] at hlate
  rw [← hlate] at hresult
  cases hresult

end Rigel
