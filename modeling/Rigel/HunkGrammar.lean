import Rigel.HunkSafe

/-!
# HunkGrammar — what makes a hunk file complete

The longwords of a file, and the grammar of its blocks, over offsets that do not wrap.
-/

namespace Rigel

/-! ## The longwords of a file -/

/-- The longword at an offset, if all of it is in the file. -/
def HunkFile.word (f : HunkFile) (p : Nat) : Option UInt32 :=
  if p + 4 ≤ f.size.toNat then some (beLong (f.data p) (f.data (p + 1)) (f.data (p + 2)) (f.data (p + 3))) else none

theorem HunkFile.word_inside {f : HunkFile} {p : Nat} {v : UInt32} (h : f.word p = some v) : p + 4 ≤ f.size.toNat := by
  unfold HunkFile.word at h
  split at h
  · assumption
  · cases h

theorem HunkFile.word_some {f : HunkFile} {p : Nat} (h : p + 4 ≤ f.size.toNat) : ∃ v, f.word p = some v := by
  unfold HunkFile.word
  rw [if_pos h]
  exact ⟨_, rfl⟩

/-- **A word of the file is read** as it is. -/
theorem rd32_word {f : HunkFile} {r : HunkReader} {v : UInt32} (h : f.word r.pos.toNat = some v) :
    rd32 f r = (v, { r with pos := r.pos + 4 }) ∧ (r.pos + 4).toNat = r.pos.toNat + 4 := by
  have hin := HunkFile.word_inside h
  have hsize := f.size.toNat_lt
  have hnext : ∀ k : UInt32, k.toNat ≤ 4 → (r.pos + k).toNat = r.pos.toNat + k.toNat := by
    intro k hk
    rw [UInt32.toNat_add, Nat.mod_eq_of_lt (by omega)]
  have h1 := hnext 1 (by decide)
  have h2 := hnext 2 (by decide)
  have h3 := hnext 3 (by decide)
  have h4 := hnext 4 (by decide)
  have hover : ¬ r.pos + 4 > f.size := by
    rw [gt_iff_lt, UInt32.not_lt, UInt32.le_iff_toNat_le, h4]
    exact hin
  unfold HunkFile.word at h
  rw [if_pos hin] at h
  unfold rd32
  rw [if_neg hover, h1, h2, h3]
  cases h
  exact ⟨rfl, h4⟩

/-- A word that is not of the file is not read, or its end wraps. -/
theorem rd32_missing {f : HunkFile} {r : HunkReader} (h : f.word r.pos.toNat = none) (hwrap : ¬ WordWraps f r) :
    rd32 f r = (0, { r with overrun := true }) := by
  unfold HunkFile.word at h
  split at h
  · cases h
  · rename_i hout
    have h4 : (4 : UInt32).toNat = 4 := rfl
    have hpos := r.pos.toNat_lt
    have hover : r.pos + 4 > f.size := by
      unfold WordWraps at hwrap
      by_contra hle
      have hle := UInt32.not_lt.mp hle
      have hle' := UInt32.le_iff_toNat_le.mp hle
      simp only [hle, and_true] at hwrap
      rw [UInt32.toNat_add, h4, Nat.mod_eq_of_lt (by omega)] at hle'
      exact hout hle'
    unfold rd32
    rw [if_pos hover]

/-! ## The grammar -/

section
variable (f : HunkFile)

/-- A list of items, each of which begins with a longword that is not zero and says what follows it. A zero ends the list. -/
inductive ListEnds (skip : UInt32 → Nat) : Nat → Nat → Prop where
  | last {p : Nat} (h : f.word p = some 0) : ListEnds skip p (p + 4)
  | item {p q : Nat} {v : UInt32} (h : f.word p = some v) (hv : v ≠ 0) (rest : ListEnds skip (p + 4 + skip v) q) :
    ListEnds skip p q

/-- Longwords, as many as the first of them says. -/
def LongsEnd (p q : Nat) : Prop := ∃ longs, f.word p = some longs ∧ q = p + 4 + (longs * 4).toNat

/-- What follows the longword of an item: nothing behind a library's name, the target and the offsets behind a count of
relocations, a name and its value behind the name's length. -/
def nameSkip (_ : UInt32) : Nat := 0
def relocSkip (n : UInt32) : Nat := 4 + 4 * n.toNat
def symbolSkip (n : UInt32) : Nat := (n * 4).toNat + 4

/-- A block of this type ends here, from behind its type on. -/
def BlockEnds (type : UInt32) (p q : Nat) : Prop :=
  if type = hunkCode ∨ type = hunkData then LongsEnd f p q ∧ q ≤ f.size.toNat
  else if type = hunkBss then (∃ longs, f.word p = some longs) ∧ q = p + 4
  else if type = hunkReloc32 then ListEnds f relocSkip p q
  else if type = hunkSymbol then ListEnds f symbolSkip p q
  else if type = hunkDebug then LongsEnd f p q
  else False

/-- **The next hunks are complete**: each of them is closed by an END block, and so is every block before it. -/
inductive HunksEnd : Nat → Nat → Prop where
  | none {p : Nat} : HunksEnd 0 p
  | close {k p : Nat} {v : UInt32} (h : f.word p = some v) (htype : v &&& hunkTypeMask = hunkEnd)
    (rest : HunksEnd k (p + 4)) : HunksEnd (k + 1) p
  | block {k p q : Nat} {v : UInt32} (h : f.word p = some v) (hblock : BlockEnds f (v &&& hunkTypeMask) (p + 4) q)
    (rest : HunksEnd (k + 1) q) : HunksEnd (k + 1) p

/-- The table of the sizes that are left, and the hunks. -/
def TableEnds (n left p : Nat) : Prop := p + 4 * left ≤ f.size.toNat ∧ HunksEnd f n (p + 4 * left)

/-- The rest of a file behind its first hunk's number. -/
def LastEnds (first : UInt32) (p : Nat) : Prop :=
  ∃ last, f.word p = some last ∧ first ≤ last ∧
    TableEnds f (last.toNat - first.toNat + 1) (last.toNat - first.toNat + 1) (p + 4)

def FirstEnds (p : Nat) : Prop := ∃ first, f.word p = some first ∧ LastEnds f first (p + 4)

/-- **A complete file**: a header, and all the hunks that it announces. -/
def HunkFile.Complete : Prop :=
  f.word 0 = some hunkHeader ∧ ∃ q, ListEnds f nameSkip 4 q ∧ FirstEnds f (q + 4)

end

section
variable {f : HunkFile} {p q k : Nat} {v : UInt32}

theorem listEnds_word {skip : UInt32 → Nat} (h : ListEnds f skip p q) : p + 4 ≤ f.size.toNat := by
  cases h with
  | last h => exact HunkFile.word_inside h
  | item h => exact HunkFile.word_inside h

/-- A list from its first longword on. -/
theorem listEnds_iff {skip : UInt32 → Nat} (h : f.word p = some v) :
    ListEnds f skip p q ↔ (v = 0 ∧ q = p + 4) ∨ (v ≠ 0 ∧ ListEnds f skip (p + 4 + skip v) q) := by
  constructor
  · intro hlist
    cases hlist with
    | last h' =>
      rw [h] at h'
      cases h'
      exact Or.inl ⟨rfl, rfl⟩
    | item h' hv rest =>
      rw [h] at h'
      cases h'
      exact Or.inr ⟨hv, rest⟩
  · rintro (⟨rfl, rfl⟩ | ⟨hv, rest⟩)
    · exact .last h
    · exact .item h hv rest

theorem hunksEnd_word (h : HunksEnd f (k + 1) p) : p + 4 ≤ f.size.toNat := by
  cases h with
  | close h => exact HunkFile.word_inside h
  | block h => exact HunkFile.word_inside h

theorem hunksEnd_iff (h : f.word p = some v) : HunksEnd f (k + 1) p ↔
    (v &&& hunkTypeMask = hunkEnd ∧ HunksEnd f k (p + 4)) ∨
      ∃ q, BlockEnds f (v &&& hunkTypeMask) (p + 4) q ∧ HunksEnd f (k + 1) q := by
  constructor
  · intro hhunks
    cases hhunks with
    | close h' htype rest =>
      rw [h] at h'
      cases h'
      exact Or.inl ⟨htype, rest⟩
    | block h' hblock rest =>
      rw [h] at h'
      cases h'
      exact Or.inr ⟨_, hblock, rest⟩
  · rintro (⟨htype, rest⟩ | ⟨q, hblock, rest⟩)
    · exact .close h htype rest
    · exact .block h hblock rest

end

end Rigel
