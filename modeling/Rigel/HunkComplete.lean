import Rigel.HunkGrammar

/-!
# HunkComplete — which files are taken for complete

What the loader makes of a file that ends before its grammar does. The flag of the reader is looked at in some places only: a
word that is missing in the header, in a list of offsets or in the table of sizes rejects the file, and one that is missing
elsewhere ends it silently.
-/

namespace Rigel

/-! ## The loader on the way -/

section
variable (f : HunkFile) (c : HunkLoader)

/-- **The rest of the file is complete**, from where the loader is. -/
def Finishes : Prop :=
  let p := c.reader.pos.toNat
  let left := c.count.toNat - c.block.toNat
  c.reader.overrun = false ∧
    match c.phase with
    | .magic => f.word p = some hunkHeader ∧ ∃ q, ListEnds f nameSkip (p + 4) q ∧ FirstEnds f (q + 4)
    | .names => ∃ q, ListEnds f nameSkip p q ∧ FirstEnds f (q + 4)
    | .tableSize => FirstEnds f (p + 4)
    | .firstHunk => FirstEnds f p
    | .lastHunk first => LastEnds f first p
    | .segment i => TableEnds f left (c.count.toNat - i) p
    | .seglist | .block => HunksEnd f left p
    | .code => ∃ q, (LongsEnd f p q ∧ q ≤ f.size.toNat) ∧ HunksEnd f left q
    | .bss => (∃ longs, f.word p = some longs) ∧ HunksEnd f left (p + 4)
    | .relocCount => ∃ q, ListEnds f relocSkip p q ∧ HunksEnd f left q
    | .relocTarget n => ∃ q, ListEnds f relocSkip (p + 4 + 4 * n.toNat) q ∧ HunksEnd f left q
    | .relocOffset n _ => ∃ q, ListEnds f relocSkip (p + 4 * n.toNat) q ∧ HunksEnd f left q
    | .symbol => ∃ q, ListEnds f symbolSkip p q ∧ HunksEnd f left q
    | .debug => ∃ q, LongsEnd f p q ∧ HunksEnd f left q
    | .done _ => True

/-- The types of blocks that the loader knows. -/
def KnownType (type : UInt32) : Prop :=
  type = hunkCode ∨ type = hunkData ∨ type = hunkBss ∨ type = hunkReloc32 ∨ type = hunkEnd ∨ type = hunkSymbol ∨
    type = hunkDebug

/-- **The loader ends the file silently.** The hunks' numbers make the count wrap to zero; the file is at its end, or the
type of a block is missing or unknown, while a hunk is open; or the first longword of a block's rest is missing, or that of
an item of its list. -/
def SilentEnd : Prop :=
  match c.phase with
  | .lastHunk first => first = 0 ∧ (rd32 f c.reader).1 = 0xFFFFFFFF
  | .block => c.block < c.count ∧ (f.size ≤ c.reader.pos ∨ (rd32 f c.reader).2.overrun = true ∨
      ¬ KnownType ((rd32 f c.reader).1 &&& hunkTypeMask))
  | .code | .bss | .relocCount | .symbol | .debug => (rd32 f c.reader).2.overrun = true
  | _ => False

/-- A sum wraps: the end of a word or of a block that is copied, or that of a name or a debug block. -/
def SumWraps : Prop :=
  c.readsWord f = true ∧
    (WordWraps f c.reader ∨
      match c.phase with
      | .code => CopyWraps f { c with reader := (rd32 f c.reader).2 } (rd32 f c.reader).1
      | .symbol => (rd32 f c.reader).1 ≠ 0 ∧ 2 ^ 32 ≤ (rd32 f c.reader).2.pos.toNat + symbolSkip (rd32 f c.reader).1
      | .debug => 2 ^ 32 ≤ (rd32 f c.reader).2.pos.toNat + ((rd32 f c.reader).1 * 4).toNat
      | _ => False)

/-- **What the phases rely on.** The flag of the reader is clear where nothing looks at it: in the header and in a list of
offsets a word that is missing rejects the file. -/
def HunkOrder : Prop :=
  match c.phase with
  | .magic | .names | .tableSize | .firstHunk | .lastHunk _ => c.block = 0
  | .segment i => c.block = 0 ∧ i < c.count.toNat
  | .seglist => c.block = 0 ∧ c.reader.overrun = false
  | .block | .done (.ok _) => c.reader.overrun = false
  | .code | .bss | .relocCount | .symbol | .debug => c.block < c.count ∧ c.reader.overrun = false
  | .relocTarget n => c.block < c.count ∧ c.reader.overrun = false ∧ n ≠ 0
  | .relocOffset n _ => c.block < c.count ∧ n ≠ 0
  | .done (.error _) => True

end

section
variable {f : HunkFile} {load limit : UInt32} {mem : UInt32 → UInt8} {c : HunkLoader}

/-- The flag after a word is the one that the step leaves. -/
theorem hunkStep_order_word (h : HunkOrder c) (hsilent : ¬ SilentEnd f c) (hreads : c.readsWord f = true) :
    HunkOrder (hunkWord f load limit mem { c with reader := (rd32 f c.reader).2 } (rd32 f c.reader).1).next := by
  unfold SilentEnd at hsilent
  unfold HunkOrder at h
  generalize rd32 f c.reader = word at hsilent ⊢
  obtain ⟨v, ⟨pos, overrun⟩⟩ := word
  obtain ⟨reader, phase, count, segData, segSize, cursor, block⟩ := c
  cases phase with
  | magic | names | tableSize | firstHunk =>
    simp only [hunkWord]
    repeat' split
    all_goals trivial
  | lastHunk first =>
    simp only [hunkWord, hunkRange]
    repeat' split
    · trivial
    · trivial
    · trivial
    · rename_i hpos
      exact ⟨h, by simpa using UInt32.lt_iff_toNat_lt.mp hpos⟩
    · rename_i hflag _ _ _
      exact ⟨h, Bool.eq_false_of_not_eq_true hflag⟩
  | segment i =>
    simp only [hunkWord, hunkReserve]
    repeat' split
    all_goals first
      | trivial
      | exact ⟨h.1, ‹i + 1 < count.toNat›⟩
      | exact ⟨h.1, Bool.eq_false_of_not_eq_true ‹¬ overrun = true›⟩
  | seglist | done result => exact absurd hreads Bool.false_ne_true
  | block =>
    have hopen : block < count := by
      unfold HunkLoader.readsWord at hreads
      simp only [Bool.and_eq_true, decide_eq_true_eq] at hreads
      exact hreads.2
    have hflag : overrun = false := Bool.eq_false_of_not_eq_true fun hover => hsilent ⟨hopen, Or.inr (Or.inl hover)⟩
    simp only [hunkWord, hunkBlock]
    repeat' split
    all_goals first
      | exact hflag
      | exact ⟨hopen, hflag⟩
  | code | bss | relocCount | symbol | debug =>
    have hflag : overrun = false := Bool.eq_false_of_not_eq_true hsilent
    simp only [hunkWord, hunkCopy]
    repeat' split
    all_goals first
      | trivial
      | exact hflag
      | exact ⟨h.1, hflag⟩
      | exact ⟨h.1, hflag, fun hzero => ‹¬ _› (Or.inl hzero)⟩
  | relocTarget n =>
    simp only [hunkWord]
    split
    · trivial
    · exact ⟨h.1, h.2.2⟩
  | relocOffset n target =>
    simp only [hunkWord, hunkRelocate]
    repeat' split
    all_goals first
      | trivial
      | exact ⟨h.1, Bool.eq_false_of_not_eq_true ‹¬ overrun = true›⟩
      | exact ⟨h.1, ‹¬ n - 1 = 0›⟩

/-- **A step that does not end the file silently keeps the order.** -/
theorem hunkStep_order (h : HunkOrder c) (hsilent : ¬ SilentEnd f c) : HunkOrder (hunkStep f load limit mem c).next := by
  by_cases hreads : c.readsWord f = true
  · rw [hunkStep_reading hreads]
    exact hunkStep_order_word h hsilent hreads
  · unfold hunkStep
    rw [if_neg hreads]
    unfold HunkOrder at h
    split
    · rename_i hseglist
      rw [hseglist] at h
      exact h.2
    · rename_i hblock
      rw [hblock] at h
      exact h
    · exact h

theorem finishes_word (h : HunkOrder c) (hfin : Finishes f c) (hreads : c.readsWord f = true) :
    ∃ v, f.word c.reader.pos.toNat = some v := by
  apply HunkFile.word_some
  unfold HunkOrder at h
  unfold Finishes at hfin
  obtain ⟨-, hfin⟩ := hfin
  obtain ⟨⟨pos, overrun⟩, phase, count, segData, segSize, cursor, block⟩ := c
  cases phase with
  | magic => exact HunkFile.word_inside hfin.1
  | names | relocCount | symbol =>
    obtain ⟨q, hlist, -⟩ := hfin
    exact listEnds_word hlist
  | tableSize =>
    obtain ⟨first, hfirst, -⟩ := hfin
    have hin := HunkFile.word_inside hfirst
    simp only at hin ⊢
    omega
  | firstHunk =>
    obtain ⟨first, hfirst, -⟩ := hfin
    exact HunkFile.word_inside hfirst
  | lastHunk first =>
    obtain ⟨last, hlast, -⟩ := hfin
    exact HunkFile.word_inside hlast
  | segment i =>
    have hin := hfin.1
    have hi := h.2
    simp only at hin hi ⊢
    omega
  | seglist | done result => exact absurd hreads Bool.false_ne_true
  | block =>
    have hopen : block < count := by
      unfold HunkLoader.readsWord at hreads
      simp only [Bool.and_eq_true, decide_eq_true_eq] at hreads
      exact hreads.2
    obtain ⟨k, hk⟩ := Nat.exists_eq_add_one_of_ne_zero (Nat.sub_ne_zero_of_lt (UInt32.lt_iff_toNat_lt.mp hopen))
    simp only [hk] at hfin
    exact hunksEnd_word hfin
  | code =>
    obtain ⟨q, ⟨⟨longs, hlongs, -⟩, -⟩, -⟩ := hfin
    exact HunkFile.word_inside hlongs
  | bss =>
    obtain ⟨⟨longs, hlongs⟩, -⟩ := hfin
    exact HunkFile.word_inside hlongs
  | debug =>
    obtain ⟨q, ⟨longs, hlongs, -⟩, -⟩ := hfin
    exact HunkFile.word_inside hlongs
  | relocTarget n =>
    obtain ⟨q, hlist, -⟩ := hfin
    have hin := listEnds_word hlist
    simp only at hin ⊢
    omega
  | relocOffset n target =>
    obtain ⟨q, hlist, -⟩ := hfin
    have hin := listEnds_word hlist
    have hn : n.toNat ≠ 0 := fun hzero => h.2 (UInt32.toNat_inj.mp hzero)
    simp only at hin ⊢
    omega

theorem blockEnds_known {type : UInt32} {p q : Nat} (h : BlockEnds f type p q) : KnownType type := by
  unfold BlockEnds at h
  unfold KnownType
  split at h
  · rename_i htype
    exact htype.elim Or.inl fun hdata => Or.inr (Or.inl hdata)
  · split at h
    · exact Or.inr (Or.inr (Or.inl ‹_›))
    · split at h
      · exact Or.inr (Or.inr (Or.inr (Or.inl ‹_›)))
      · split at h
        · exact Or.inr (Or.inr (Or.inr (Or.inr (Or.inr (Or.inl ‹_›)))))
        · split at h
          · exact Or.inr (Or.inr (Or.inr (Or.inr (Or.inr (Or.inr ‹_›)))))
          · exact h.elim

/-- The step of a loader that may finish is none that ends the file silently. -/
theorem finishes_not_silent (h : HunkOrder c) (hfin : Finishes f c) : ¬ SilentEnd f c := by
  intro hsilent
  have hflag := hfin.1
  have hword := finishes_word h hfin
  have hread : c.readsWord f = true → ¬ (rd32 f c.reader).2.overrun = true := by
    intro hreads hover
    obtain ⟨v, hv⟩ := hword hreads
    rw [(rd32_word hv).1, hflag] at hover
    exact Bool.false_ne_true hover
  have hfin := hfin.2
  obtain ⟨⟨pos, overrun⟩, phase, count, segData, segSize, cursor, block⟩ := c
  cases phase with
  | lastHunk first =>
    obtain ⟨last, hlast, -, htable, -⟩ := hfin
    obtain ⟨rfl, hlast'⟩ := hsilent
    rw [(rd32_word hlast).1] at hlast'
    have hsize := f.size.toNat_lt
    have hmax : (0xFFFFFFFF : UInt32).toNat = 4294967295 := rfl
    simp only at hlast'
    rw [hlast', hmax, UInt32.toNat_zero] at htable
    omega
  | block =>
    obtain ⟨hopen, hwhy⟩ := hsilent
    obtain ⟨k, hk⟩ := Nat.exists_eq_add_one_of_ne_zero (Nat.sub_ne_zero_of_lt (UInt32.lt_iff_toNat_lt.mp hopen))
    simp only [hk] at hfin
    have hin := hunksEnd_word hfin
    have hsize : pos < f.size := UInt32.lt_iff_toNat_lt.mpr (by omega)
    have hreads : (HunkLoader.mk ⟨pos, overrun⟩ .block count segData segSize cursor block).readsWord f = true := by
      unfold HunkLoader.readsWord
      simp only [Bool.and_eq_true, decide_eq_true_eq]
      exact ⟨hsize, hopen⟩
    obtain hend | hover | hunknown := hwhy
    · exact absurd hend (UInt32.not_le.mpr hsize)
    · exact hread hreads hover
    · obtain ⟨v, hv⟩ := hword hreads
      rw [(rd32_word hv).1] at hunknown
      obtain ⟨htype, -⟩ | ⟨q, hblock, -⟩ := (hunksEnd_iff hv).mp hfin
      · exact hunknown (Or.inr (Or.inr (Or.inr (Or.inr (Or.inl htype)))))
      · exact hunknown (blockEnds_known hblock)
  | code | bss | relocCount | symbol | debug => exact hread rfl hsilent
  | magic | names | tableSize | firstHunk | segment i | seglist | relocTarget n | relocOffset n target | done result =>
    exact hsilent

/-- No sum of the step of a loader that may finish wraps. -/
theorem finishes_not_wraps (h : HunkOrder c) (hfin : Finishes f c) : ¬ SumWraps f c := by
  rintro ⟨hreads, hwraps⟩
  obtain ⟨v, hv⟩ := finishes_word h hfin hreads
  have hin := HunkFile.word_inside hv
  have hsize := f.size.toNat_lt
  obtain ⟨hrd, hnext⟩ := rd32_word hv
  rw [hrd] at hwraps
  obtain hword | hwraps := hwraps
  · have hfar := hword.1
    omega
  · have hfin := hfin.2
    unfold HunkOrder at h
    obtain ⟨⟨pos, overrun⟩, phase, count, segData, segSize, cursor, block⟩ := c
    cases phase with
    | code =>
      obtain ⟨q, ⟨⟨longs, hlongs, hq⟩, hend⟩, -⟩ := hfin
      cases hv.symm.trans hlongs
      have hfar := hwraps.1
      simp only at hfar hnext hq
      omega
    | symbol =>
      obtain ⟨q, hlist, -⟩ := hfin
      obtain ⟨hzero, -⟩ | ⟨-, hrest⟩ := (listEnds_iff hv).mp hlist
      · exact hwraps.1 hzero
      · have hfar := hwraps.2
        have hlist := listEnds_word hrest
        simp only at hfar hnext hlist
        omega
    | debug =>
      obtain ⟨q, ⟨longs, hlongs, hq⟩, hrest⟩ := hfin
      cases hv.symm.trans hlongs
      obtain ⟨k, hk⟩ := Nat.exists_eq_add_one_of_ne_zero (Nat.sub_ne_zero_of_lt (UInt32.lt_iff_toNat_lt.mp h.1))
      simp only [hk] at hrest
      have hend := hunksEnd_word hrest
      simp only at hwraps hnext hq
      omega
    | magic | names | tableSize | firstHunk | lastHunk first | segment i | seglist | block | bss | relocCount | relocTarget n
    | relocOffset n target | done result => exact hwraps

/-- The loader behind the next word. -/
def HunkLoader.behind (c : HunkLoader) : HunkLoader := { c with reader := { c.reader with pos := c.reader.pos + 4 } }

/-- The loader rejects the file. -/
def HunkLoader.Rejects (c : HunkLoader) : Prop := ∃ e, c.phase = .done (.error e)

theorem fail_rejects (c : HunkLoader) (e : HunkError) : (c.fail e).Rejects := ⟨e, rfl⟩

section
variable {v : UInt32}

/-- What a range of hunks passed that is not rejected. -/
theorem hunkRange_accepts {first : UInt32} (hok : ¬ (hunkRange c first v).Rejects) :
    c.reader.overrun = false ∧ first ≤ v ∧ hunkRange c first v =
      if 0 < v - first + 1 then { c with count := v - first + 1, phase := .segment 0 }
      else { c with count := v - first + 1, phase := .seglist } := by
  unfold hunkRange at hok ⊢
  simp only at hok ⊢
  by_cases hover : c.reader.overrun = true
  · rw [if_pos hover] at hok
    exact absurd (fail_rejects _ _) hok
  · rw [if_neg hover] at hok ⊢
    by_cases hbad : v < first
    · rw [if_pos hbad] at hok
      exact absurd (fail_rejects _ _) hok
    · rw [if_neg hbad] at hok ⊢
      by_cases hmany : v - first + 1 > maxHunks
      · rw [if_pos hmany] at hok
        exact absurd (fail_rejects _ _) hok
      · rw [if_neg hmany]
        exact ⟨Bool.eq_false_of_not_eq_true hover, UInt32.not_lt.mp hbad, rfl⟩

theorem hunkReserve_accepts {i : Nat} (hok : ¬ (hunkReserve limit c i v).1.Rejects) :
    ∃ (segData segSize : Nat → UInt32) (cursor : UInt32), ∃ phase,
      (hunkReserve limit c i v).1 = ⟨c.reader, phase, c.count, segData, segSize, cursor, c.block⟩ ∧
        (i + 1 < c.count.toNat ∧ phase = .segment (i + 1) ∨
          ¬ i + 1 < c.count.toNat ∧ c.reader.overrun = false ∧ phase = .seglist) := by
  unfold hunkReserve at hok ⊢
  simp only at hok ⊢
  by_cases hroom : c.cursor + segHeader + (v &&& hunkTypeMask) * 4 > limit
  · rw [if_pos hroom] at hok
    exact absurd (fail_rejects _ _) hok
  · rw [if_neg hroom] at hok ⊢
    simp only at hok ⊢
    by_cases hmore : i + 1 < c.count.toNat
    · rw [if_pos hmore]
      exact ⟨_, _, _, _, rfl, Or.inl ⟨hmore, rfl⟩⟩
    · rw [if_neg hmore] at hok ⊢
      by_cases hover : c.reader.overrun = true
      · rw [if_pos hover] at hok
        exact absurd (fail_rejects _ _) hok
      · rw [if_neg hover]
        exact ⟨_, _, _, _, rfl, Or.inr ⟨hmore, Bool.eq_false_of_not_eq_true hover, rfl⟩⟩

theorem hunkCopy_accepts (hok : ¬ (hunkCopy f c v).next.Rejects) :
    c.reader.pos + v * 4 ≤ f.size ∧ v * 4 ≤ c.segSize c.block.toNat ∧ (hunkCopy f c v).next =
      { c with reader := { c.reader with pos := c.reader.pos + v * 4 }, phase := .block } := by
  unfold hunkCopy at hok ⊢
  simp only at hok ⊢
  by_cases hover : c.reader.pos + v * 4 > f.size
  · rw [if_pos hover] at hok
    exact absurd (fail_rejects _ _) hok
  · rw [if_neg hover] at hok ⊢
    by_cases hlong : v * 4 > c.segSize c.block.toNat
    · rw [if_pos hlong] at hok
      exact absurd (fail_rejects _ _) hok
    · rw [if_neg hlong]
      exact ⟨UInt32.not_lt.mp hover, UInt32.not_lt.mp hlong, rfl⟩

theorem hunkRelocate_accepts {n target : UInt32} (hok : ¬ (hunkRelocate mem c n target v).1.Rejects) :
    c.reader.overrun = false ∧ (hunkRelocate mem c n target v).1 =
      c.to (if n - 1 = 0 then .relocCount else .relocOffset (n - 1) target) := by
  unfold hunkRelocate at hok ⊢
  simp only at hok ⊢
  by_cases hover : c.reader.overrun = true
  · rw [if_pos hover] at hok
    exact absurd (fail_rejects _ _) hok
  · rw [if_neg hover] at hok ⊢
    by_cases hbad : v + 4 > c.segSize c.block.toNat
    · rw [if_pos hbad] at hok
      exact absurd (fail_rejects _ _) hok
    · rw [if_neg hbad]
      exact ⟨Bool.eq_false_of_not_eq_true hover, rfl⟩

theorem finishes_magic (hphase : c.phase = .magic) (hv : f.word c.reader.pos.toNat = some v)
    (hok : ¬ (if v ≠ hunkHeader then c.behind.fail .noHeader else c.behind.to .names).Rejects) :
    Finishes f c ↔ Finishes f (if v ≠ hunkHeader then c.behind.fail .noHeader else c.behind.to .names) := by
  obtain ⟨-, hnext⟩ := rd32_word hv
  by_cases hheader : v ≠ hunkHeader
  · rw [if_pos hheader] at hok
    exact absurd (fail_rejects _ _) hok
  · rw [if_neg hheader]
    unfold Finishes HunkLoader.to HunkLoader.behind
    simp only [hphase, hnext, hv, Classical.not_not.mp hheader, true_and]

theorem finishes_names (hphase : c.phase = .names) (hv : f.word c.reader.pos.toNat = some v)
    (hok : ¬ (if v ≠ 0 then (if c.behind.reader.overrun = true then c.behind.fail .truncatedNames else c.behind)
      else c.behind.to .tableSize).Rejects) :
    Finishes f c ↔ Finishes f (if v ≠ 0 then
      (if c.behind.reader.overrun = true then c.behind.fail .truncatedNames else c.behind) else c.behind.to .tableSize) := by
  obtain ⟨-, hnext⟩ := rd32_word hv
  by_cases hlast : v ≠ 0
  · rw [if_pos hlast] at hok ⊢
    by_cases hover : c.behind.reader.overrun = true
    · rw [if_pos hover] at hok
      exact absurd (fail_rejects _ _) hok
    · rw [if_neg hover]
      unfold Finishes HunkLoader.behind
      simp only [hphase, hnext, listEnds_iff hv, hlast, false_and, false_or, ne_eq, not_false_eq_true, true_and, nameSkip,
        Nat.add_zero]
  · rw [if_neg hlast]
    unfold Finishes HunkLoader.to HunkLoader.behind
    simp only [hphase, hnext, listEnds_iff hv, Classical.not_not.mp hlast, true_and, ne_eq, not_true_eq_false, false_and,
      or_false, exists_eq_left]

/-- The hunks' numbers: a count that does not wrap is the number of the hunks that are announced. -/
theorem finishes_range {first : UInt32} (hv : f.word c.reader.pos.toNat = some v) (hphase : c.phase = .lastHunk first)
    (hblock : c.block = 0) (hsilent : ¬ (first = 0 ∧ v = 0xFFFFFFFF)) (hok : ¬ (hunkRange c.behind first v).Rejects) :
    Finishes f c ↔ Finishes f (hunkRange c.behind first v) := by
  obtain ⟨-, hnext⟩ := rd32_word hv
  obtain ⟨hflag, hle, heq⟩ := hunkRange_accepts hok
  have hleNat := UInt32.le_iff_toNat_le.mp hle
  have hvlt := v.toNat_lt
  have hsmall : v.toNat - first.toNat + 1 < 2 ^ 32 := by
    by_contra hbig
    refine hsilent ⟨UInt32.toNat_inj.mp ?_, UInt32.toNat_inj.mp ?_⟩
    · rw [UInt32.toNat_zero]
      omega
    · have hmax : (0xFFFFFFFF : UInt32).toNat = 4294967295 := rfl
      rw [hmax]
      omega
  have hcount : (v - first + 1).toNat = v.toNat - first.toNat + 1 := by
    have h1 : (1 : UInt32).toNat = 1 := rfl
    rw [UInt32.toNat_add, UInt32.toNat_sub_of_le _ _ hle, h1, Nat.mod_eq_of_lt hsmall]
  have hpos : 0 < v - first + 1 := by
    rw [UInt32.lt_iff_toNat_lt, hcount, UInt32.toNat_zero]
    omega
  rw [heq, if_pos hpos]
  unfold Finishes LastEnds HunkLoader.behind
  simp only [hphase, hblock, hv, hcount, hnext, Option.some.injEq, exists_eq_left', hle, true_and, UInt32.toNat_zero,
    Nat.sub_zero]

theorem finishes_reserve {i : Nat} (hphase : c.phase = .segment i) (hi : i < c.count.toNat)
    (hv : f.word c.reader.pos.toNat = some v) (hok : ¬ (hunkReserve limit c.behind i v).1.Rejects) :
    Finishes f c ↔ Finishes f (hunkReserve limit c.behind i v).1 := by
  obtain ⟨-, hnext⟩ := rd32_word hv
  have hin := HunkFile.word_inside hv
  obtain ⟨segData, segSize, cursor, phase, heq, ⟨hmore, rfl⟩ | ⟨hlast, -, rfl⟩⟩ := hunkReserve_accepts hok
  · have hleft : c.reader.pos.toNat + 4 * (c.count.toNat - i) =
        c.reader.pos.toNat + 4 + 4 * (c.count.toNat - (i + 1)) := by omega
    rw [heq]
    unfold Finishes TableEnds HunkLoader.behind
    simp only [hphase, hnext, hleft]
  · have hone : c.count.toNat - i = 1 := by
      have hlast' : ¬ i + 1 < c.count.toNat := hlast
      omega
    rw [heq]
    unfold Finishes TableEnds HunkLoader.behind
    simp only [hphase, hnext, hone, Nat.mul_one, and_iff_right hin]

theorem finishes_block (hphase : c.phase = .block) (hflag : c.reader.overrun = false) (hopen : c.block < c.count)
    (hv : f.word c.reader.pos.toNat = some v) (hknown : KnownType (v &&& hunkTypeMask)) :
    Finishes f c ↔ Finishes f (hunkBlock f load c.behind v) := by
  obtain ⟨-, hnext⟩ := rd32_word hv
  have hlt := UInt32.lt_iff_toNat_lt.mp hopen
  obtain ⟨k, hk⟩ := Nat.exists_eq_add_one_of_ne_zero (Nat.sub_ne_zero_of_lt hlt)
  have hrest : Finishes f c ↔ v &&& hunkTypeMask = hunkEnd ∧ HunksEnd f k (c.reader.pos.toNat + 4) ∨
      ∃ q, BlockEnds f (v &&& hunkTypeMask) (c.reader.pos.toNat + 4) q ∧ HunksEnd f (k + 1) q := by
    unfold Finishes
    simp only [hphase, hflag, hk, true_and]
    exact hunksEnd_iff hv
  -- a block that does not close the hunk
  have hinner : ∀ {type : UInt32} {P : Nat → Prop}, type ≠ hunkEnd → (∀ q, BlockEnds f type (c.reader.pos.toNat + 4) q ↔ P q) →
      ((type = hunkEnd ∧ HunksEnd f k (c.reader.pos.toNat + 4) ∨
        ∃ q, BlockEnds f type (c.reader.pos.toNat + 4) q ∧ HunksEnd f (k + 1) q) ↔ ∃ q, P q ∧ HunksEnd f (k + 1) q) := by
    intro type P htype hP
    simp only [htype, false_and, false_or, hP]
  rw [hrest]
  unfold hunkBlock HunkLoader.behind
  simp only [hflag, Bool.false_eq_true, if_false]
  generalize v &&& hunkTypeMask = type at hknown
  obtain rfl | rfl | rfl | rfl | rfl | rfl | rfl := hknown
  · rw [hinner (by decide) fun q => Iff.rfl, if_pos (Or.inl rfl)]
    unfold Finishes HunkLoader.to
    simp only [hnext, hk, true_and]
    exact Iff.rfl
  · rw [hinner (by decide) fun q => Iff.rfl, if_pos (Or.inr rfl)]
    unfold Finishes HunkLoader.to
    simp only [hnext, hk, true_and]
    exact Iff.rfl
  · rw [hinner (P := fun q => (∃ longs, f.word (c.reader.pos.toNat + 4) = some longs) ∧ q = c.reader.pos.toNat + 4 + 4)
      (by decide) fun q => Iff.rfl, if_neg (by decide), if_pos rfl]
    unfold Finishes HunkLoader.to
    simp only [hnext, hk, true_and, and_assoc, exists_and_left, exists_eq_left]
  · rw [hinner (by decide) fun q => Iff.rfl, if_neg (by decide), if_neg (by decide), if_pos rfl]
    unfold Finishes HunkLoader.to
    simp only [hnext, hk, true_and]
    exact Iff.rfl
  · have hblock : (c.block + 1).toNat = c.block.toNat + 1 := by
      have h1 : (1 : UInt32).toNat = 1 := rfl
      have hcount := c.count.toNat_lt
      rw [UInt32.toNat_add, h1, Nat.mod_eq_of_lt (by omega)]
    have hleft : c.count.toNat - (c.block.toNat + 1) = k := by omega
    have hno : ∀ q, ¬ BlockEnds f hunkEnd (c.reader.pos.toNat + 4) q := fun q h => h
    rw [if_neg (by decide), if_neg (by decide), if_neg (by decide), if_pos rfl]
    unfold Finishes
    simp only [hnext, hblock, hleft, hno, true_and, false_and, exists_false, or_false]
  · rw [hinner (by decide) fun q => Iff.rfl, if_neg (by decide), if_neg (by decide), if_neg (by decide),
      if_neg (by decide), if_pos rfl]
    unfold Finishes HunkLoader.to
    simp only [hnext, hk, true_and]
    exact Iff.rfl
  · rw [hinner (by decide) fun q => Iff.rfl, if_neg (by decide), if_neg (by decide), if_neg (by decide),
      if_neg (by decide), if_neg (by decide), if_pos rfl]
    unfold Finishes HunkLoader.to
    simp only [hnext, hk, true_and]
    exact Iff.rfl

/-- A block that is copied ends in the file, unless its end wraps. -/
theorem finishes_copy (hphase : c.phase = .code) (hv : f.word c.reader.pos.toNat = some v)
    (hwrap : ¬ CopyWraps f c.behind v) (hok : ¬ (hunkCopy f c.behind v).next.Rejects) :
    Finishes f c ↔ Finishes f (hunkCopy f c.behind v).next := by
  obtain ⟨-, hnext⟩ := rd32_word hv
  obtain ⟨hend, hroom, heq⟩ := hunkCopy_accepts hok
  have hsum : (c.reader.pos + 4 + v * 4).toNat = c.reader.pos.toNat + 4 + (v * 4).toNat := by
    unfold CopyWraps at hwrap
    simp only [hend, hroom, and_true] at hwrap
    have hsmall : c.reader.pos.toNat + 4 + (v * 4).toNat < 2 ^ 32 := by
      rw [← hnext]
      exact Nat.not_le.mp hwrap
    rw [UInt32.toNat_add, hnext, Nat.mod_eq_of_lt hsmall]
  have hend' : c.reader.pos.toNat + 4 + (v * 4).toNat ≤ f.size.toNat := by
    rw [← hsum]
    exact UInt32.le_iff_toNat_le.mp hend
  rw [heq]
  unfold Finishes LongsEnd HunkLoader.behind
  simp only [hphase, hv, hsum, Option.some.injEq, exists_eq_left']
  refine and_congr_right fun _ => ⟨?_, fun hrest => ⟨_, ⟨rfl, hend'⟩, hrest⟩⟩
  rintro ⟨q, ⟨rfl, -⟩, hrest⟩
  exact hrest

theorem finishes_debug (hphase : c.phase = .debug) (hv : f.word c.reader.pos.toNat = some v)
    (hwrap : ¬ 2 ^ 32 ≤ (c.reader.pos + 4).toNat + (v * 4).toNat) :
    Finishes f c ↔
      Finishes f { c with reader := { c.reader with pos := c.reader.pos + 4 + v * 4 }, phase := .block } := by
  obtain ⟨-, hnext⟩ := rd32_word hv
  rw [hnext] at hwrap
  have hsum : (c.reader.pos + 4 + v * 4).toNat = c.reader.pos.toNat + 4 + (v * 4).toNat := by
    rw [UInt32.toNat_add, hnext, Nat.mod_eq_of_lt (Nat.not_le.mp hwrap)]
  unfold Finishes LongsEnd
  simp only [hphase, hv, hsum, Option.some.injEq, exists_eq_left', exists_eq_left]

theorem finishes_symbol (hphase : c.phase = .symbol) (hflag : c.reader.overrun = false)
    (hv : f.word c.reader.pos.toNat = some v) (hwrap : ¬ (v ≠ 0 ∧ 2 ^ 32 ≤ (c.reader.pos + 4).toNat + symbolSkip v)) :
    Finishes f c ↔ Finishes f (if v = 0 ∨ c.behind.reader.overrun = true then c.behind.to .block
      else { c.behind with reader := { c.behind.reader with pos := c.behind.reader.pos + (v * 4 + 4) }, phase := .symbol }) := by
  obtain ⟨-, hnext⟩ := rd32_word hv
  have hflag' : ¬ c.behind.reader.overrun = true := by
    rw [Bool.not_eq_true]
    exact hflag
  by_cases hzero : v = 0
  · rw [if_pos (Or.inl hzero)]
    unfold Finishes HunkLoader.to HunkLoader.behind
    simp only [hphase, hnext, listEnds_iff hv, hzero, true_and, ne_eq, not_true_eq_false, false_and, or_false,
      exists_eq_left]
  · have hsmall : ¬ 2 ^ 32 ≤ c.reader.pos.toNat + 4 + symbolSkip v := by
      rw [← hnext]
      exact fun hfar => hwrap ⟨hzero, hfar⟩
    have hsum : (c.reader.pos + 4 + (v * 4 + 4)).toNat = c.reader.pos.toNat + 4 + symbolSkip v := by
      have h4 : (4 : UInt32).toNat = 4 := rfl
      unfold symbolSkip at hsmall ⊢
      rw [UInt32.toNat_add, UInt32.toNat_add (v * 4), hnext, h4, Nat.add_mod_mod, Nat.mod_eq_of_lt (Nat.not_le.mp hsmall)]
    rw [if_neg (not_or.mpr ⟨hzero, hflag'⟩)]
    unfold Finishes HunkLoader.behind
    simp only [hphase, hsum, listEnds_iff hv, hzero, false_and, false_or, ne_eq, not_false_eq_true, true_and]

theorem finishes_relocCount (hphase : c.phase = .relocCount) (hflag : c.reader.overrun = false)
    (hv : f.word c.reader.pos.toNat = some v) :
    Finishes f c ↔ Finishes f (if v = 0 ∨ c.behind.reader.overrun = true then c.behind.to .block
      else c.behind.to (.relocTarget v)) := by
  obtain ⟨-, hnext⟩ := rd32_word hv
  have hflag' : ¬ c.behind.reader.overrun = true := by
    rw [Bool.not_eq_true]
    exact hflag
  by_cases hzero : v = 0
  · rw [if_pos (Or.inl hzero)]
    unfold Finishes HunkLoader.to HunkLoader.behind
    simp only [hphase, hnext, listEnds_iff hv, hzero, true_and, ne_eq, not_true_eq_false, false_and, or_false,
      exists_eq_left]
  · rw [if_neg (not_or.mpr ⟨hzero, hflag'⟩)]
    unfold Finishes HunkLoader.to HunkLoader.behind
    simp only [hphase, hnext, listEnds_iff hv, hzero, false_and, false_or, ne_eq, not_false_eq_true, true_and, relocSkip,
      Nat.add_assoc]

theorem finishes_target {n : UInt32} (hphase : c.phase = .relocTarget n) (hv : f.word c.reader.pos.toNat = some v)
    (hok : ¬ (if v ≥ c.behind.count then c.behind.fail (.badTarget v) else c.behind.to (.relocOffset n v)).Rejects) :
    Finishes f c ↔
      Finishes f (if v ≥ c.behind.count then c.behind.fail (.badTarget v) else c.behind.to (.relocOffset n v)) := by
  obtain ⟨-, hnext⟩ := rd32_word hv
  by_cases hbad : v ≥ c.behind.count
  · rw [if_pos hbad] at hok
    exact absurd (fail_rejects _ _) hok
  · rw [if_neg hbad]
    unfold Finishes HunkLoader.to HunkLoader.behind
    simp only [hphase, hnext]

theorem finishes_offset {n target : UInt32} (hphase : c.phase = .relocOffset n target) (hn : n ≠ 0)
    (hv : f.word c.reader.pos.toNat = some v) :
    Finishes f c ↔ Finishes f (c.behind.to (if n - 1 = 0 then .relocCount else .relocOffset (n - 1) target)) := by
  obtain ⟨-, hnext⟩ := rd32_word hv
  have h1 : (1 : UInt32).toNat = 1 := rfl
  have hpos : n.toNat ≠ 0 := fun hzero => hn (UInt32.toNat_inj.mp hzero)
  have hle : 1 ≤ n := by
    rw [UInt32.le_iff_toNat_le, h1]
    omega
  have hsub : (n - 1).toNat = n.toNat - 1 := by
    rw [UInt32.toNat_sub_of_le _ _ hle, h1]
  by_cases hlast : n - 1 = 0
  · have hone : n.toNat = 1 := by
      rw [hlast, UInt32.toNat_zero] at hsub
      omega
    rw [if_pos hlast]
    unfold Finishes HunkLoader.to HunkLoader.behind
    simp only [hphase, hnext, hone, Nat.mul_one]
  · have hleft : c.reader.pos.toNat + 4 * n.toNat = c.reader.pos.toNat + 4 + 4 * (n.toNat - 1) := by omega
    rw [if_neg hlast]
    unfold Finishes HunkLoader.to HunkLoader.behind
    simp only [hphase, hnext, hsub, hleft]

theorem behind_phase (c : HunkLoader) : c.behind.phase = c.phase := rfl

/-- **A word of the file keeps what is left to be complete**, unless it rejects the file. -/
theorem hunkWord_finishes (h : HunkOrder c) (hsilent : ¬ SilentEnd f c) (hwrap : ¬ SumWraps f c)
    (hreads : c.readsWord f = true) (hv : f.word c.reader.pos.toNat = some v)
    (hok : ¬ (hunkWord f load limit mem c.behind v).next.Rejects) :
    Finishes f c ↔ Finishes f (hunkWord f load limit mem c.behind v).next := by
  obtain ⟨hrd, hnext⟩ := rd32_word hv
  unfold SilentEnd at hsilent
  unfold SumWraps at hwrap
  unfold HunkOrder at h
  rw [hrd] at hsilent hwrap
  cases hphase : c.phase with
  | magic =>
    simp only [hunkWord, behind_phase, hphase] at hok ⊢
    exact finishes_magic hphase hv hok
  | names =>
    simp only [hunkWord, behind_phase, hphase] at hok ⊢
    exact finishes_names hphase hv hok
  | tableSize =>
    simp only [hunkWord, behind_phase, hphase]
    unfold Finishes HunkLoader.to HunkLoader.behind
    simp only [hphase, hnext]
  | firstHunk =>
    simp only [hunkWord, behind_phase, hphase]
    unfold Finishes HunkLoader.to HunkLoader.behind FirstEnds
    simp only [hphase, hnext, hv, Option.some.injEq, exists_eq_left']
  | lastHunk first =>
    simp only [hunkWord, behind_phase, hphase] at hok h hsilent ⊢
    exact finishes_range hv hphase h hsilent hok
  | segment i =>
    simp only [hunkWord, behind_phase, hphase] at hok h ⊢
    exact finishes_reserve hphase h.2 hv hok
  | block =>
    simp only [hunkWord, behind_phase, hphase] at hok h hsilent ⊢
    have hopen : c.block < c.count := by
      unfold HunkLoader.readsWord at hreads
      simp only [hphase, Bool.and_eq_true, decide_eq_true_eq] at hreads
      exact hreads.2
    exact finishes_block hphase h hopen hv (by_contra fun hunknown => hsilent ⟨hopen, Or.inr (Or.inr hunknown)⟩)
  | code =>
    simp only [hunkWord, behind_phase, hphase, hreads, true_and, not_or] at hok hwrap ⊢
    exact finishes_copy hphase hv hwrap.2 hok
  | bss =>
    simp only [hunkWord, behind_phase, hphase]
    unfold Finishes HunkLoader.to HunkLoader.behind
    simp only [hphase, hnext, hv, Option.some.injEq, exists_eq', true_and]
  | relocCount =>
    simp only [hunkWord, behind_phase, hphase] at h ⊢
    exact finishes_relocCount hphase h.2 hv
  | relocTarget n =>
    simp only [hunkWord, behind_phase, hphase] at hok ⊢
    exact finishes_target hphase hv hok
  | relocOffset n target =>
    simp only [hunkWord, behind_phase, hphase] at hok h ⊢
    rw [(hunkRelocate_accepts hok).2]
    exact finishes_offset hphase h.2 hv
  | symbol =>
    simp only [hunkWord, behind_phase, hphase, hreads, true_and, not_or] at h hwrap ⊢
    exact finishes_symbol hphase h.2 hv hwrap.2
  | debug =>
    simp only [hunkWord, behind_phase, hphase, hreads, true_and, not_or] at hwrap ⊢
    exact finishes_debug hphase hv hwrap.2
  | seglist | done result =>
    unfold HunkLoader.readsWord at hreads
    simp only [hphase, Bool.false_eq_true] at hreads

end

/-- **A step keeps what is left to be complete**, unless it rejects the file. -/
theorem hunkStep_finishes (h : HunkOrder c) (hsilent : ¬ SilentEnd f c) (hwrap : ¬ SumWraps f c)
    (hok : ¬ (hunkStep f load limit mem c).next.Rejects) :
    Finishes f c ↔ Finishes f (hunkStep f load limit mem c).next := by
  by_cases hreads : c.readsWord f = true
  · rw [hunkStep_reading hreads] at hok ⊢
    cases hword : f.word c.reader.pos.toNat with
    | none =>
      -- a word that is missing in the header or in a list of offsets: the flag is set
      have hnowrap : ¬ WordWraps f c.reader := fun hword => hwrap ⟨hreads, Or.inl hword⟩
      have hover := hunkWord_overrun f load limit mem { c with reader := (rd32 f c.reader).2 } (rd32 f c.reader).1
      rw [rd32_missing hword hnowrap] at hover ⊢
      refine iff_of_false (fun hfin => ?_) fun hfin => ?_
      · obtain ⟨v, hv⟩ := finishes_word h hfin hreads
        rw [hword] at hv
        cases hv
      · rw [Finishes] at hfin
        exact Bool.false_ne_true (hfin.1.symm.trans hover)
    | some v =>
      rw [(rd32_word hword).1] at hok ⊢
      exact hunkWord_finishes h hsilent hwrap hreads hword hok
  · unfold hunkStep
    rw [if_neg hreads]
    unfold SilentEnd at hsilent
    split
    · rename_i hphase
      unfold Finishes HunkLoader.to
      simp only [hphase]
    · rename_i hphase
      unfold HunkLoader.readsWord at hreads
      simp only [hphase, Bool.and_eq_true, decide_eq_true_eq, not_and, not_or] at hreads hsilent
      have hclosed : c.count.toNat - c.block.toNat = 0 := by
        by_contra hopen
        have hlt : c.block < c.count := UInt32.lt_iff_toNat_lt.mpr (by omega)
        exact hreads (UInt32.not_le.mp (hsilent hlt).1) hlt
      unfold Finishes HunkLoader.loaded HunkLoader.to
      simp only [hphase, hclosed, HunksEnd.none]
    · exact Iff.rfl

end

/-! ## Runs -/

section
variable {σ : Type*} {g : HunkGuest σ} {f : HunkFile} {load limit : UInt32} {ctx : σ} {image : HunkImage}

/-- A file that is loaded is not rejected on the way. -/
theorem hunkRun_accepts (h : HunkReturns g f load limit ctx (.ok image)) (n : Nat) :
    ¬ (hunkRun g f load limit ctx n).loader.Rejects := by
  rintro ⟨e, he⟩
  obtain ⟨m, hm⟩ := h
  have hlate := hunkRun_done g f load limit he (Nat.le_max_left n m)
  have hlate' := hunkRun_done g f load limit hm (Nat.le_max_right n m)
  rw [← hlate, hlate', hm] at he
  cases he

theorem hunkRun_order {n : Nat} (h : ∀ k < n, ¬ SilentEnd f (hunkRun g f load limit ctx k).loader) :
    HunkOrder (hunkRun g f load limit ctx n).loader := by
  induction n with
  | zero => exact rfl
  | succ n ih =>
    rw [hunkRun_succ]
    exact hunkStep_order (ih fun k hk => h k (Nat.lt_succ_of_lt hk)) (h n (Nat.lt_succ_self n))

/-- A file is complete exactly if the loader may finish from its start. -/
theorem complete_iff_finishes : f.Complete ↔ Finishes f (hunkStart load) := by
  unfold HunkFile.Complete Finishes hunkStart
  simp only [UInt32.toNat_zero, Nat.zero_add, true_and]

/-- A run without a silent end and a sum that wraps keeps what is left to be complete. -/
theorem hunkRun_finishes (h : HunkReturns g f load limit ctx (.ok image)) {n : Nat}
    (hclean : ∀ k < n, ¬ SilentEnd f (hunkRun g f load limit ctx k).loader ∧
      ¬ SumWraps f (hunkRun g f load limit ctx k).loader) :
    f.Complete ↔ Finishes f (hunkRun g f load limit ctx n).loader := by
  induction n with
  | zero => exact complete_iff_finishes
  | succ n ih =>
    have hnext := hunkRun_accepts h (n + 1)
    rw [ih fun k hk => hclean k (Nat.lt_succ_of_lt hk)]
    rw [hunkRun_succ] at hnext ⊢
    exact hunkStep_finishes (hunkRun_order fun k hk => (hclean k (Nat.lt_succ_of_lt hk)).1) (hclean n (Nat.lt_succ_self n)).1
      (hclean n (Nat.lt_succ_self n)).2 hnext

end

instance (type : UInt32) : Decidable (KnownType type) := inferInstanceAs (Decidable (_ ∨ _))

instance (f : HunkFile) (c : HunkLoader) : Decidable (SilentEnd f c) :=
  match h : c.phase with
  | .lastHunk first => decidable_of_iff (first = 0 ∧ (rd32 f c.reader).1 = 0xFFFFFFFF) (by unfold SilentEnd; rw [h])
  | .block => decidable_of_iff (c.block < c.count ∧ (f.size ≤ c.reader.pos ∨ (rd32 f c.reader).2.overrun = true ∨
      ¬ KnownType ((rd32 f c.reader).1 &&& hunkTypeMask))) (by unfold SilentEnd; rw [h])
  | .code | .bss | .relocCount | .symbol | .debug =>
    decidable_of_iff ((rd32 f c.reader).2.overrun = true) (by unfold SilentEnd; rw [h])
  | .magic | .names | .tableSize | .firstHunk | .segment _ | .seglist | .relocTarget _ | .relocOffset _ _ | .done _ =>
    .isFalse (by unfold SilentEnd; rw [h]; exact id)

instance (f : HunkFile) (c : HunkLoader) : Decidable (SumWraps f c) :=
  match h : c.phase with
  | .code => decidable_of_iff (c.readsWord f = true ∧ (WordWraps f c.reader ∨
      CopyWraps f { c with reader := (rd32 f c.reader).2 } (rd32 f c.reader).1)) (by unfold SumWraps; rw [h])
  | .symbol => decidable_of_iff (c.readsWord f = true ∧ (WordWraps f c.reader ∨
      (rd32 f c.reader).1 ≠ 0 ∧ 2 ^ 32 ≤ (rd32 f c.reader).2.pos.toNat + symbolSkip (rd32 f c.reader).1))
      (by unfold SumWraps; rw [h])
  | .debug => decidable_of_iff (c.readsWord f = true ∧ (WordWraps f c.reader ∨
      2 ^ 32 ≤ (rd32 f c.reader).2.pos.toNat + ((rd32 f c.reader).1 * 4).toNat)) (by unfold SumWraps; rw [h])
  | .magic | .names | .tableSize | .firstHunk | .lastHunk _ | .segment _ | .seglist | .block | .bss | .relocCount
  | .relocTarget _ | .relocOffset _ _ | .done _ =>
    decidable_of_iff (c.readsWord f = true ∧ WordWraps f c.reader) (by unfold SumWraps; rw [h, or_false])

theorem done_clean {f : HunkFile} {c : HunkLoader} (h : c.phase.isDone = true) : ¬ SilentEnd f c ∧ ¬ SumWraps f c := by
  obtain ⟨result, h⟩ := HunkPhase.isDone_iff.mp h
  constructor
  · unfold SilentEnd
    rw [h]
    exact id
  · unfold SumWraps HunkLoader.readsWord
    rw [h]
    exact fun hwraps => Bool.false_ne_true hwraps.1

/-- A header that announces a hunk, and nothing behind it. -/
def headerFile : HunkFile := .ofWords [0x3F3, 0, 1, 0, 0, 1]

end Rigel
