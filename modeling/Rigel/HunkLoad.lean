import Rigel.HunkSegments

/-!
# HunkLoad — a file is loaded as it says

The second pass of the loader, block by block, and the run over the file of a whole executable.
-/

namespace Rigel

section
variable {σ : Type*} {g : HunkGuest σ} {e : HunkExecutable} {load limit : UInt32} {f : HunkFile} {phase : HunkPhase}
  {pos count reserved block : Nat} {cells : Nat → Nat → UInt8} {v : UInt32}

/-! ## The blocks of a hunk -/

theorem painted_data (size link : UInt32) (img : Nat → UInt8) (off n : Nat) (v : Nat → UInt8) :
    painted (segCells size link img) (8 + off) n v = segCells size link (painted img off n v) := by
  funext k
  unfold painted segCells
  by_cases h4 : k < 4
  · rw [if_neg (by omega), if_pos h4, if_pos h4]
  · by_cases h8 : k < 8
    · rw [if_neg (by omega), if_neg h4, if_neg h4, if_pos h8, if_pos h8]
    · rw [if_neg h4, if_neg h4, if_neg h8, if_neg h8]
      beta_reduce
      by_cases hin : 8 + off ≤ k ∧ k < 8 + off + n
      · have hshift : k - (8 + off) = k - 8 - off := by omega
        rw [if_pos hin, if_pos (by omega), hshift]
      · rw [if_neg hin, if_neg (by omega)]

theorem painted_congr {n : Nat} {v v' : Nat → UInt8} (hv : ∀ k < n, v k = v' k) (img : Nat → UInt8) {off k : Nat} :
    painted img off n v k = painted img off n v' k := by
  unfold painted
  by_cases hin : off ≤ k ∧ k < off + n
  · rw [if_pos hin, if_pos hin]
    exact hv _ (by omega)
  · rw [if_neg hin, if_neg hin]

/-- The loader is in the second pass, at this hunk. -/
def InPass (g : HunkGuest σ) (e : HunkExecutable) (load : UInt32) (phase : HunkPhase) (pos block : Nat)
    (img : Nat → UInt8) : HunkMachine σ → Prop :=
  HunkAt g e load phase pos e.hunks.length e.hunks.length block (passCells e load block img)

theorem few_lt (e : HunkExecutable) : e.hunks.length < 2 ^ 32 := Nat.lt_of_le_of_lt e.few (by decide)

/-- **A span that is written into the data of this hunk's segment.** -/
theorem passCells_span (hram : RamOn g load limit) (hfits : e.Fits load limit) {b : Nat} (hb : b < e.hunks.length)
    {img : Nat → UInt8} {ctx : σ} (h : InCells g e load (passCells e load b img) ctx) {off n : Nat} (hoff : off + n ≤ e.size b)
    {v v' : Nat → UInt8} (hv : ∀ k < n, v k = v' k) :
    InCells g e load (passCells e load b (painted img off n v'))
      (g.apply ctx (span (UInt32.ofNat (e.start load b + (8 + off))) n v)) := by
  refine (h.span hram hfits hb (by omega : 8 + off + n ≤ 8 + e.size b) v).congr fun j hj k hk => ?_
  unfold passCells
  by_cases hjb : j = b
  · subst hjb
    have hlt : ¬ j < j := Nat.lt_irrefl j
    rw [Function.update_self]
    simp only [hlt, if_false, if_true]
    rw [painted_data]
    unfold segCells
    by_cases h4 : k < 4
    · rw [if_pos h4, if_pos h4]
    · by_cases h8 : k < 8
      · rw [if_neg h4, if_neg h4, if_pos h8, if_pos h8]
      · rw [if_neg h4, if_neg h4, if_neg h8, if_neg h8]
        exact painted_congr hv _
  · rw [Function.update_of_ne hjb]
    simp only [hjb, if_false]

section
variable {b : Nat} {img : Nat → UInt8}

theorem hunkBlock_masked {type : UInt32} (t : BlockType type) (c : HunkLoader) :
    hunkBlock f load c t.word = hunkBlock f load c type := by
  have hmask : type &&& hunkTypeMask = type := by
    rw [← t.masked, UInt32.and_assoc, UInt32.and_self]
  unfold hunkBlock
  rw [t.masked, hmask]

theorem type_leads (hb : b < e.hunks.length) {type : UInt32} (t : BlockType type) (hv : f.word pos = some t.word)
    (hphase : ∀ c : HunkLoader, c.reader.overrun = false → hunkBlock f load c type = c.to phase) :
    Leads (hunkMachineStep g f load limit) (InPass g e load .block pos b img) (InPass g e load phase (pos + 4) b img) :=
  Leads.of_step fun _ h => h.moves hv hb (few_lt e) fun _ _ _ _ => by
    simp only [hunkWord]
    rw [hunkBlock_masked, hphase _ rfl]
    rfl

theorem close_leads (hb : b < e.hunks.length) (type : BlockType hunkEnd) (hv : f.word pos = some type.word)
    (himg : ∀ k, img k = e.image load b k) :
    Leads (hunkMachineStep g f load limit) (InPass g e load .block pos b img)
      (InPass g e load .block (pos + 4) (b + 1) fun _ => 0) := by
  refine Leads.of_step fun s h => ?_
  have hnext : HunkAt g e load .block (pos + 4) e.hunks.length e.hunks.length (b + 1) (passCells e load b img)
      (hunkMachineStep g f load limit s) := h.moves hv hb (few_lt e) fun _ _ _ _ => by
    have hblock : UInt32.ofNat b + 1 = UInt32.ofNat (b + 1) := (UInt32.ofNat_add b 1).symm
    simp only [hunkWord, hunkBlock, type.masked, hblock]
    rfl
  refine ⟨hnext.loader, hnext.segments, hnext.memory.congr fun j _ k _ => ?_⟩
  have himg' : img = e.image load b := funext himg
  unfold passCells
  rw [himg']
  rcases Nat.lt_trichotomy j b with hlt | rfl | hlt
  · rw [if_pos hlt, if_pos (Nat.lt_succ_of_lt hlt)]
  · rw [if_neg (Nat.lt_irrefl j), if_pos rfl, if_pos (Nat.lt_succ_self j)]
  · rw [if_neg (Nat.not_lt_of_gt hlt), if_neg (Nat.ne_of_gt hlt), if_neg (by omega), ite_self]

/-- **A body is copied** to the start of the data. -/
theorem copy_leads (hram : RamOn g load limit) (hfits : e.Fits load limit) (hb : b < e.hunks.length) {longs : List UInt32}
    (hholds : f.Holds pos (UInt32.ofNat longs.length :: longs)) (hroom : longs.length * 4 ≤ e.size b) :
    Leads (hunkMachineStep g f load limit) (InPass g e load .code pos b img)
      (InPass g e load .block (pos + 4 * (longs.length + 1)) b
        (painted img 0 (longs.length * 4) fun k => (longs.flatMap beBytes).getD k 0)) := by
  refine Leads.of_step fun s h => ?_
  have hend := holds_length hholds (List.cons_ne_nil _ _)
  have hsize := f.size.toNat_lt
  rw [List.length_cons] at hend
  have hmul : UInt32.ofNat longs.length * 4 = UInt32.ofNat (longs.length * 4) := (UInt32.ofNat_mul _ _).symm
  have hbytes := toNat_ofNat_small (by omega : longs.length * 4 < 2 ^ 32)
  have hblock := toNat_ofNat_small (Nat.lt_trans hb (few_lt e))
  have hsum : UInt32.ofNat (pos + 4) + UInt32.ofNat (longs.length * 4) = UInt32.ofNat (pos + 4 * (longs.length + 1)) := by
    rw [← UInt32.ofNat_add]
    congr 1
    omega
  have hover : ¬ UInt32.ofNat (pos + 4 * (longs.length + 1)) > f.size := by
    rw [gt_iff_lt, UInt32.not_lt, UInt32.le_iff_toNat_le, toNat_ofNat_small (by omega)]
    exact hend
  have hlong : ¬ UInt32.ofNat (longs.length * 4) > UInt32.ofNat (e.size b) := by
    have hsegment := hunkBytes_lt e.hunks[b].size
    rw [← e.size_eq hb] at hsegment
    rw [gt_iff_lt, UInt32.not_lt, UInt32.le_iff_toNat_le, hbytes, toNat_ofNat_small hsegment]
    exact hroom
  have hdata : ∀ k < longs.length * 4, f.data (UInt32.ofNat (pos + 4) + UInt32.ofNat k).toNat =
      (longs.flatMap beBytes).getD k 0 := by
    intro k hk
    rw [← UInt32.ofNat_add, toNat_ofNat_small (by omega)]
    exact holds_data hholds.2 (by omega)
  rw [h.step hholds.1 trivial (few_lt e)]
  simp only [hunkWord, hunkCopy, hmul, hblock, hsum, hbytes, (h.segments b hb).1, (h.segments b hb).2]
  rw [if_neg hover, if_neg hlong]
  exact ⟨rfl, h.segments, passCells_span hram hfits hb h.memory (by omega) hdata⟩

/-- A body over zeros is padded. -/
theorem painted_padded (longs : List UInt32) :
    painted (fun _ => 0) 0 (longs.length * 4) (fun k => (longs.flatMap beBytes).getD k 0) =
      fun k => (longs.flatMap beBytes).getD k 0 := by
  funext k
  unfold painted
  by_cases hin : 0 ≤ k ∧ k < 0 + longs.length * 4
  · rw [if_pos hin, Nat.sub_zero]
  · rw [if_neg hin]
    rw [List.getD_eq_default]
    rw [beBytes_length]
    omega

theorem longs_leads (hram : RamOn g load limit) (hfits : e.Fits load limit) (hb : b < e.hunks.length) {type : UInt32}
    (t : BlockType type) {longs : List UInt32} (hholds : f.Holds pos (t.word :: UInt32.ofNat longs.length :: longs))
    (hroom : longs.length * 4 ≤ e.size b)
    (hphase : ∀ c : HunkLoader, c.reader.overrun = false → hunkBlock f load c type = c.to .code) :
    Leads (hunkMachineStep g f load limit) (InPass g e load .block pos b fun _ => 0)
      (InPass g e load .block (pos + 4 * (longs.length + 2)) b fun k => (longs.flatMap beBytes).getD k 0) := by
  have hcopy : Leads (hunkMachineStep g f load limit) (InPass g e load .code (pos + 4) b fun _ => 0) _ :=
    copy_leads hram hfits hb hholds.2 hroom
  have hlen : pos + 4 * (longs.length + 2) = pos + 4 + 4 * (longs.length + 1) := by omega
  rw [painted_padded] at hcopy
  rw [hlen]
  exact (type_leads hb t hholds.1 hphase).trans hcopy

/-- **The body of a hunk** leaves its bytes, padded. -/
theorem body_leads (hram : RamOn g load limit) (hfits : e.Fits load limit) (hb : b < e.hunks.length)
    (hholds : f.Holds pos e.hunks[b].body.words) :
    Leads (hunkMachineStep g f load limit) (InPass g e load .block pos b fun _ => 0)
      (InPass g e load .block (pos + 4 * e.hunks[b].body.words.length) b e.hunks[b].body.padded) := by
  have hsize := e.hunks[b].fits
  rw [← e.size_eq hb] at hsize
  unfold HunkBody.padded
  cases hbody : e.hunks[b].body with
  | code type longs =>
    rw [hbody] at hholds hsize
    refine longs_leads hram hfits hb type hholds hsize fun c h => ?_
    rw [hunkBlock, h]
    rfl
  | data type longs =>
    rw [hbody] at hholds hsize
    refine longs_leads hram hfits hb type hholds hsize fun c h => ?_
    rw [hunkBlock, h]
    rfl
  | bss type longs =>
    rw [hbody] at hholds
    have hsize : Leads (hunkMachineStep g f load limit) (InPass g e load .bss (pos + 4) b fun _ => 0) _ :=
      Leads.of_step fun _ h => h.moves hholds.2.1 trivial (few_lt e) fun _ _ _ _ => rfl
    refine Leads.trans (type_leads hb type hholds.1 fun c h => ?_) hsize
    rw [hunkBlock, h]
    rfl

theorem get32_bytes {mem : UInt32 → UInt8} {a : UInt32} {bytes : Nat → UInt8}
    (h : ∀ k < 4, mem (a + UInt32.ofNat k) = bytes k) : get32 mem a = longAt bytes 0 := by
  have h0 := h 0 (by decide)
  have h1 := h 1 (by decide)
  have h2 := h 2 (by decide)
  have h3 := h 3 (by decide)
  have hzero : a + UInt32.ofNat 0 = a := UInt32.add_zero a
  rw [hzero] at h0
  unfold get32 longAt
  rw [Nat.zero_add, Nat.zero_add, Nat.zero_add, ← h0, ← h1, ← h2, ← h3]
  rfl

theorem get32_pass (hb : b < e.hunks.length) {ctx : σ} (h : InCells g e load (passCells e load b img) ctx) {off : Nat}
    (hoff : off + 4 ≤ e.size b) : get32 (g.read8 ctx) (UInt32.ofNat (e.start load b + (8 + off))) = longAt img off := by
  have hread : ∀ k < 4, g.read8 ctx (UInt32.ofNat (e.start load b + (8 + off)) + UInt32.ofNat k) = img (off + k) := by
    intro k hk
    have hcell := h b hb (8 + (off + k)) (by omega)
    have haddr : e.start load b + (8 + off) + k = e.start load b + (8 + (off + k)) := by omega
    rw [← UInt32.ofNat_add, haddr, hcell]
    unfold passCells segCells
    rw [if_neg (by omega), if_neg (by omega), if_neg (Nat.lt_irrefl b), if_pos rfl, Nat.add_sub_cancel_left]
  rw [get32_bytes hread]
  rfl

/-- **One relocation.** -/
theorem offset_leads (hram : RamOn g load limit) (hfits : e.Fits load limit) (hb : b < e.hunks.length) {target off : UInt32}
    (htarget : target.toNat < e.hunks.length) (hoff : off.toNat + 4 ≤ e.size b) (hv : f.word pos = some off) (n : UInt32) :
    Leads (hunkMachineStep g f load limit) (InPass g e load (.relocOffset n target) pos b img)
      (InPass g e load (if n - 1 = 0 then .relocCount else .relocOffset (n - 1) target) (pos + 4) b
        (relocated img off.toNat (e.dataAddr load target.toNat))) := by
  refine Leads.of_step fun s h => ?_
  have hend := hfits b hb
  have hlimit := limit.toNat_lt
  have hblock := toNat_ofNat_small (Nat.lt_trans hb (few_lt e))
  have hpast : ¬ off + 4 > UInt32.ofNat (e.size b) := by
    have h4 : (4 : UInt32).toNat = 4 := rfl
    rw [gt_iff_lt, UInt32.not_lt, UInt32.le_iff_toNat_le, toNat_ofNat_small (by omega), UInt32.toNat_add, h4,
      Nat.mod_eq_of_lt (by omega)]
    exact hoff
  have haddr : e.dataAddr load b + off = UInt32.ofNat (e.start load b + (8 + off.toNat)) := by
    unfold HunkExecutable.dataAddr
    rw [← Nat.add_assoc, UInt32.ofNat_add _ off.toNat, UInt32.ofNat_toNat]
  have hget := get32_pass hb h.memory hoff
  have hwrite := passCells_span hram hfits hb h.memory hoff (fun k _ => rfl)
    (v := longByte (longAt img off.toNat + e.dataAddr load target.toNat))
  rw [h.step hv trivial (few_lt e)]
  simp only [hunkWord, hunkRelocate, hblock, (h.segments b hb).1, (h.segments b hb).2,
    (h.segments target.toNat htarget).1, haddr, hget, put32_span]
  rw [if_neg Bool.false_ne_true, if_neg hpast]
  exact ⟨rfl, h.segments, hwrite⟩

/-- The length of a list is not zero in 32 bits, if it is in the file. -/
theorem ofNat_length_ne_zero {α : Type*} {xs : List α} (hne : xs ≠ []) (h : xs.length < 2 ^ 32) :
    UInt32.ofNat xs.length ≠ 0 := by
  intro hzero
  have hzero' := congrArg UInt32.toNat hzero
  rw [toNat_ofNat_small h, UInt32.toNat_zero] at hzero'
  exact hne (List.length_eq_zero_iff.mp hzero')

/-- **The offsets of a list**, in their order. -/
theorem offsets_lead (hram : RamOn g load limit) (hfits : e.Fits load limit) (hb : b < e.hunks.length) {target : UInt32}
    (htarget : target.toNat < e.hunks.length) : ∀ {offsets : List UInt32} {pos : Nat} {img : Nat → UInt8}, offsets ≠ [] →
    (∀ off ∈ offsets, off.toNat + 4 ≤ e.size b) → f.Holds pos offsets →
    Leads (hunkMachineStep g f load limit)
      (InPass g e load (.relocOffset (UInt32.ofNat offsets.length) target) pos b img)
      (InPass g e load .relocCount (pos + 4 * offsets.length) b
        (offsets.foldl (fun bytes off => relocated bytes off.toNat (e.dataAddr load target.toNat)) img))
  | [off], pos, img, _, hin, hholds => offset_leads hram hfits hb htarget (hin off List.mem_cons_self) hholds.1 1
  | off :: off' :: offsets, pos, img, _, hin, hholds => by
    have hsize := f.size.toNat_lt
    have hend := holds_length hholds (List.cons_ne_nil _ _)
    have hless : UInt32.ofNat (off :: off' :: offsets).length - 1 = UInt32.ofNat (off' :: offsets).length := by
      rw [List.length_cons, UInt32.ofNat_add]
      exact UInt32.add_sub_cancel _ _
    have hmore : ¬ UInt32.ofNat (off' :: offsets).length = 0 :=
      ofNat_length_ne_zero (List.cons_ne_nil _ _) (by rw [List.length_cons] at hend; omega)
    have hlen : pos + 4 * (off :: off' :: offsets).length = pos + 4 + 4 * (off' :: offsets).length := by
      simp only [List.length_cons]
      omega
    have hstep : Leads (hunkMachineStep g f load limit)
        (InPass g e load (.relocOffset (UInt32.ofNat (off :: off' :: offsets).length) target) pos b img) _ :=
      offset_leads hram hfits hb htarget (hin off List.mem_cons_self) hholds.1 _
    rw [hless, if_neg hmore] at hstep
    rw [hlen, List.foldl_cons]
    exact hstep.trans (offsets_lead hram hfits hb htarget (List.cons_ne_nil _ _)
      (fun o ho => hin o (List.mem_cons_of_mem off ho)) hholds.2)

/-- **The lists of a RELOC32 block**, up to the zero that ends them. -/
theorem lists_lead (hram : RamOn g load limit) (hfits : e.Fits load limit) (hb : b < e.hunks.length) :
    ∀ {lists : List RelocList} {pos : Nat} {img : Nat → UInt8}, (∀ list ∈ lists, list.target.toNat < e.hunks.length) →
    (∀ list ∈ lists, ∀ off ∈ list.offsets, off.toNat + 4 ≤ e.size b) → f.Holds pos (lists.flatMap RelocList.words ++ [0]) →
    Leads (hunkMachineStep g f load limit) (InPass g e load .relocCount pos b img)
      (InPass g e load .block (pos + 4 * (lists.flatMap RelocList.words ++ [0]).length) b
        (lists.foldl (RelocList.image (e.dataAddr load)) img))
  | [], pos, img, _, _, hholds => Leads.of_step fun _ h => h.moves hholds.1 trivial (few_lt e) fun _ _ _ _ => rfl
  | list :: lists, pos, img, htarget, hin, hholds => by
    have hsize := f.size.toNat_lt
    rw [List.flatMap_cons, List.append_assoc] at hholds ⊢
    obtain ⟨hlist, hrest⟩ := holds_append.mp hholds
    have hend := holds_length hlist (List.cons_ne_nil _ _)
    unfold RelocList.words at hlist
    have hne := ofNat_length_ne_zero list.nonempty (by
      simp only [RelocList.words, List.length_cons] at hend
      omega)
    have htargets := htarget list List.mem_cons_self
    have hcount : Leads (hunkMachineStep g f load limit) (InPass g e load .relocCount pos b img)
        (InPass g e load (.relocTarget (UInt32.ofNat list.offsets.length)) (pos + 4) b img) :=
      Leads.of_step fun _ h => h.moves hlist.1 trivial (few_lt e) fun _ _ _ _ => by
        simp only [hunkWord, hne, false_or, Bool.false_eq_true, if_false]
        rfl
    have hbelow : ¬ list.target ≥ UInt32.ofNat e.hunks.length := by
      rw [ge_iff_le, UInt32.not_le, UInt32.lt_iff_toNat_lt, toNat_ofNat_small (few_lt e)]
      exact htargets
    have htarget' : Leads (hunkMachineStep g f load limit)
        (InPass g e load (.relocTarget (UInt32.ofNat list.offsets.length)) (pos + 4) b img)
        (InPass g e load (.relocOffset (UInt32.ofNat list.offsets.length) list.target) (pos + 4 + 4) b img) :=
      Leads.of_step fun _ h => h.moves hlist.2.1 trivial (few_lt e) fun _ _ _ _ => by
        simp only [hunkWord]
        rw [if_neg hbelow]
        rfl
    have hoffsets : Leads (hunkMachineStep g f load limit)
        (InPass g e load (.relocOffset (UInt32.ofNat list.offsets.length) list.target) (pos + 4 + 4) b img) _ :=
      offsets_lead hram hfits hb htargets list.nonempty (hin list List.mem_cons_self) hlist.2.2
    have hpos : pos + 4 + 4 + 4 * list.offsets.length = pos + 4 * list.words.length := by
      simp only [RelocList.words, List.length_cons]
      omega
    rw [hpos] at hoffsets
    have hlen : pos + 4 * (list.words ++ (lists.flatMap RelocList.words ++ [0])).length =
        pos + 4 * list.words.length + 4 * (lists.flatMap RelocList.words ++ [0]).length := by
      rw [List.length_append]
      omega
    rw [hlen, List.foldl_cons]
    exact ((hcount.trans htarget').trans hoffsets).trans (lists_lead hram hfits hb
      (fun l hl => htarget l (List.mem_cons_of_mem list hl)) (fun l hl => hin l (List.mem_cons_of_mem list hl)) hrest)

theorem symbols_lead : ∀ {names : List HunkName} {pos : Nat}, f.Holds pos (names.flatMap HunkName.words ++ [0]) →
    Leads (hunkMachineStep g f load limit) (InPass g e load .symbol pos b img)
      (InPass g e load .block (pos + 4 * (names.flatMap HunkName.words ++ [0]).length) b img)
  | [], pos, hholds => Leads.of_step fun _ h => h.moves hholds.1 trivial (few_lt e) fun _ _ _ _ => rfl
  | name :: names, pos, hholds => by
    have hsize := f.size.toNat_lt
    rw [List.flatMap_cons, List.append_assoc] at hholds ⊢
    obtain ⟨hname, hrest⟩ := holds_append.mp hholds
    have hend := holds_length hname (List.cons_ne_nil _ _)
    have hwords : name.words.length = name.name.length + 2 := by
      unfold HunkName.words
      rw [List.length_cons, List.length_append]
      rfl
    have hne := ofNat_length_ne_zero name.nonempty (by omega)
    have hskip : UInt32.ofNat (pos + 4) + (UInt32.ofNat name.name.length * 4 + 4) =
        UInt32.ofNat (pos + 4 * name.words.length) := by
      have hmul : UInt32.ofNat name.name.length * 4 = UInt32.ofNat (name.name.length * 4) := (UInt32.ofNat_mul _ _).symm
      rw [hmul, ofNat_add_four, ← UInt32.ofNat_add, hwords]
      congr 1
      omega
    have hstep : Leads (hunkMachineStep g f load limit) (InPass g e load .symbol pos b img)
        (InPass g e load .symbol (pos + 4 * name.words.length) b img) :=
      Leads.of_step fun _ h => h.moves hname.1 trivial (few_lt e) fun _ _ _ _ => by
        simp only [hunkWord, hne, false_or, Bool.false_eq_true, if_false, hskip]
    have hlen : pos + 4 * (name.words ++ (names.flatMap HunkName.words ++ [0])).length =
        pos + 4 * name.words.length + 4 * (names.flatMap HunkName.words ++ [0]).length := by
      rw [List.length_append]
      omega
    rw [hlen]
    exact hstep.trans (symbols_lead hrest)

/-- **A block behind the body** makes its relocations, if it has any. -/
theorem block_leads (hram : RamOn g load limit) (hfits : e.Fits load limit) (hb : b < e.hunks.length) {block : HunkBlock}
    (htarget : ∀ list ∈ block.lists, list.target.toNat < e.hunks.length)
    (hin : ∀ list ∈ block.lists, ∀ off ∈ list.offsets, off.toNat + 4 ≤ e.size b) (hholds : f.Holds pos block.words) :
    Leads (hunkMachineStep g f load limit) (InPass g e load .block pos b img)
      (InPass g e load .block (pos + 4 * block.words.length) b (block.image (e.dataAddr load) img)) := by
  have hlen : ∀ (w : UInt32) (ws : List UInt32), pos + 4 * (w :: ws).length = pos + 4 + 4 * ws.length := by
    intro w ws
    rw [List.length_cons]
    omega
  cases block with
  | reloc32 type lists =>
    unfold HunkBlock.words at hholds ⊢
    rw [hlen]
    refine Leads.trans (type_leads hb type hholds.1 fun c h => ?_) (lists_lead hram hfits hb htarget hin hholds.2)
    rw [hunkBlock, h]
    rfl
  | symbol type names =>
    unfold HunkBlock.words at hholds ⊢
    rw [hlen]
    refine Leads.trans (type_leads hb type hholds.1 fun c h => ?_) (symbols_lead hholds.2)
    rw [hunkBlock, h]
    rfl
  | debug type longs =>
    unfold HunkBlock.words at hholds ⊢
    have hskip : UInt32.ofNat (pos + 4 + 4) + UInt32.ofNat longs.length * 4 =
        UInt32.ofNat (pos + 4 * (type.word :: UInt32.ofNat longs.length :: longs).length) := by
      have hmul : UInt32.ofNat longs.length * 4 = UInt32.ofNat (longs.length * 4) := (UInt32.ofNat_mul _ _).symm
      rw [hmul, ← UInt32.ofNat_add, List.length_cons, List.length_cons]
      congr 1
      omega
    have hlength : Leads (hunkMachineStep g f load limit) (InPass g e load .debug (pos + 4) b img)
        (InPass g e load .block (pos + 4 * (type.word :: UInt32.ofNat longs.length :: longs).length) b img) :=
      Leads.of_step fun _ h => h.moves hholds.2.1 trivial (few_lt e) fun _ _ _ _ => by
        simp only [hunkWord, hskip]
    refine Leads.trans (type_leads hb type hholds.1 fun c h => ?_) hlength
    rw [hunkBlock, h]
    rfl

theorem blocks_lead (hram : RamOn g load limit) (hfits : e.Fits load limit) (hb : b < e.hunks.length) :
    ∀ {blocks : List HunkBlock} {pos : Nat} {img : Nat → UInt8},
    (∀ block ∈ blocks, ∀ list ∈ block.lists, list.target.toNat < e.hunks.length) →
    (∀ block ∈ blocks, ∀ list ∈ block.lists, ∀ off ∈ list.offsets, off.toNat + 4 ≤ e.size b) →
    f.Holds pos (blocks.flatMap HunkBlock.words) →
    Leads (hunkMachineStep g f load limit) (InPass g e load .block pos b img)
      (InPass g e load .block (pos + 4 * (blocks.flatMap HunkBlock.words).length) b
        (blocks.foldl (HunkBlock.image (e.dataAddr load)) img))
  | [], pos, img, _, _, _ => Leads.refl
  | block :: blocks, pos, img, htarget, hin, hholds => by
    rw [List.flatMap_cons] at hholds ⊢
    obtain ⟨hblock, hrest⟩ := holds_append.mp hholds
    have hlen : pos + 4 * (block.words ++ blocks.flatMap HunkBlock.words).length =
        pos + 4 * block.words.length + 4 * (blocks.flatMap HunkBlock.words).length := by
      rw [List.length_append]
      omega
    rw [hlen, List.foldl_cons]
    exact (block_leads hram hfits hb (htarget block List.mem_cons_self) (hin block List.mem_cons_self) hblock).trans
      (blocks_lead hram hfits hb (fun x hx => htarget x (List.mem_cons_of_mem block hx))
        (fun x hx => hin x (List.mem_cons_of_mem block hx)) hrest)

/-- **A hunk**: its segment holds its image in the end. -/
theorem hunk_leads (hram : RamOn g load limit) (hfits : e.Fits load limit) (hb : b < e.hunks.length)
    (hholds : f.Holds pos e.hunks[b].words) :
    Leads (hunkMachineStep g f load limit) (InPass g e load .block pos b fun _ => 0)
      (InPass g e load .block (pos + 4 * e.hunks[b].words.length) (b + 1) fun _ => 0) := by
  have hmem := List.getElem_mem hb
  have hin := e.hunks[b].inside
  rw [← e.size_eq hb] at hin
  unfold Hunk.words at hholds ⊢
  obtain ⟨hbody, hrest⟩ := holds_append.mp hholds
  obtain ⟨hblocks, hclose⟩ := holds_append.mp hrest
  have himg : ∀ k, e.hunks[b].image (e.dataAddr load) k = e.image load b k := by
    intro k
    unfold HunkExecutable.image
    rw [List.getElem?_eq_getElem hb]
    rfl
  have hend := (blocks_lead hram hfits hb (e.targets _ hmem) hin hblocks).trans
    (close_leads hb e.hunks[b].close hclose.1 himg)
  have hlen : pos + 4 * (e.hunks[b].body.words ++
      (e.hunks[b].blocks.flatMap HunkBlock.words ++ [e.hunks[b].close.word])).length =
        pos + 4 * e.hunks[b].body.words.length + 4 * (e.hunks[b].blocks.flatMap HunkBlock.words).length + 4 := by
    rw [List.length_append, List.length_append, List.length_singleton]
    omega
  rw [hlen]
  exact (body_leads hram hfits hb hbody).trans hend

end

/-! ## The whole file -/

/-- **The header**, up to the table of sizes. -/
theorem header_leads (hfile : f.Holds 0 e.words) (cells : Nat → Nat → UInt8) : ∃ pos,
    f.Holds pos (e.hunks.map Hunk.size ++ e.hunks.flatMap Hunk.words) ∧
    Leads (hunkMachineStep g f load limit) (HunkAt g e load .magic 0 0 0 0 cells)
      (HunkAt g e load (.segment 0) pos e.hunks.length 0 0 cells) := by
  obtain ⟨hmagic, hrest⟩ := hfile
  rw [List.append_cons] at hrest
  obtain ⟨hnames, htable, hfirst, hlast, hbody⟩ := holds_append.mp hrest
  have hlen : (e.names ++ [0]).length = e.names.length + 1 := by rw [List.length_append, List.length_singleton]
  rw [hlen] at htable hfirst hlast hbody
  have hsize : Leads (hunkMachineStep g f load limit)
      (HunkAt g e load .tableSize (0 + 4 + 4 * (e.names.length + 1)) 0 0 0 cells) (HunkAt g e load .firstHunk _ 0 0 0 cells) :=
    Leads.of_step fun _ h => h.moves htable trivial (by decide) fun _ _ _ _ => rfl
  have hnumber : Leads (hunkMachineStep g f load limit)
      (HunkAt g e load .firstHunk (0 + 4 + 4 * (e.names.length + 1) + 4) 0 0 0 cells)
      (HunkAt g e load (.lastHunk e.first) _ 0 0 0 cells) :=
    Leads.of_step fun _ h => h.moves hfirst trivial (by decide) fun _ _ _ _ => rfl
  refine ⟨_, hbody, ((((magic_leads hmagic).trans (names_lead e.named hnames)).trans hsize).trans hnumber).trans ?_⟩
  exact range_leads (List.length_pos_of_ne_nil e.nonempty) e.few e.numbered hlast

theorem hunks_lead (hram : RamOn g load limit) (hfits : e.Fits load limit) (hholds : f.Holds pos (e.hunks.flatMap Hunk.words)) :
    Leads (hunkMachineStep g f load limit) (InPass g e load .block pos 0 fun _ => 0)
      (InPass g e load .block (pos + 4 * (e.hunks.flatMap Hunk.words).length) e.hunks.length fun _ => 0) := by
  have hloop := Leads.rounds (n := e.hunks.length) (I := fun i =>
    InPass g e load .block (pos + 4 * ((e.hunks.take i).flatMap Hunk.words).length) i fun _ => 0) fun i hi => by
      have hsplit : e.hunks.flatMap Hunk.words = (e.hunks.take i).flatMap Hunk.words ++
          (e.hunks[i].words ++ (e.hunks.drop (i + 1)).flatMap Hunk.words) := by
        rw [← List.flatMap_cons, ← List.drop_eq_getElem_cons hi, ← List.flatMap_append, List.take_append_drop]
      rw [hsplit] at hholds
      have hhunk := (holds_append.mp (holds_append.mp hholds).2).1
      have hnext : pos + 4 * ((e.hunks.take (i + 1)).flatMap Hunk.words).length =
          pos + 4 * ((e.hunks.take i).flatMap Hunk.words).length + 4 * e.hunks[i].words.length := by
        rw [List.take_succ_eq_append_getElem hi, List.flatMap_append, List.length_append, List.flatMap_singleton]
        omega
      rw [hnext]
      exact hunk_leads hram hfits hi hhunk
  rw [List.take_length] at hloop
  exact hloop

/-- When all hunks are closed, the loader returns true. -/
theorem end_leads : Leads (hunkMachineStep g f load limit) (InPass g e load .block pos e.hunks.length fun _ => 0)
    (InPass g e load (.done (.ok ⟨e.dataAddr load 0, load, UInt32.ofNat (e.start load e.hunks.length),
      UInt32.ofNat e.hunks.length⟩)) pos e.hunks.length fun _ => 0) := by
  refine Leads.of_step fun s h => ?_
  have hpos : 0 < e.hunks.length := List.length_pos_of_ne_nil e.nonempty
  have hclosed : ¬ s.loader.block < s.loader.count := by
    rw [h.loader]
    exact UInt32.lt_irrefl _
  have hphase : s.loader.phase = .block := by rw [h.loader]
  have hstep : hunkMachineStep g f load limit s = ⟨s.loader.loaded load, s.ctx⟩ := by
    unfold hunkMachineStep HunkMachine.effect hunkStep HunkLoader.readsWord
    simp only [hphase, hclosed, decide_false, Bool.and_false, Bool.false_eq_true, if_false]
    rfl
  rw [hstep]
  refine ⟨?_, h.segments, h.memory⟩
  have hentry := (h.segments 0 hpos).1
  have hloader := h.loader
  unfold HunkLoader.loaded HunkLoader.to
  simp only [hentry]
  rw [hloader]

/-- **The memory in the end** is the executable's. -/
theorem passCells_loaded {mem : UInt32 → UInt8} (h : ∀ i < e.hunks.length, ∀ k < 8 + e.size i,
    mem (UInt32.ofNat (e.start load i + k)) = passCells e load e.hunks.length (fun _ => 0) i k) : e.LoadedIn load mem where
  size i hi := by
    refine (get32_bytes fun k hk => ?_).trans (longAt_longByte (UInt32.ofNat (e.size i)))
    rw [← UInt32.ofNat_add, h i hi k (by omega)]
    unfold passCells segCells
    rw [if_pos hk]
  link i hi := by
    refine (get32_bytes fun k hk => ?_).trans (longAt_longByte (e.link load i))
    rw [← UInt32.ofNat_add, Nat.add_assoc, h i hi (4 + k) (by omega)]
    unfold passCells segCells
    rw [if_neg (by omega), if_pos (by omega), Nat.add_sub_cancel_left]
  data i hi k hk := by
    unfold HunkExecutable.dataAddr
    rw [← UInt32.ofNat_add, Nat.add_assoc, h i hi (8 + k) (by omega)]
    unfold passCells segCells HunkExecutable.image
    rw [if_neg (by omega), if_neg (by omega), if_pos hi, Nat.add_sub_cancel_left, List.getElem?_eq_getElem hi]
    rfl

/-- **A file is loaded as it says.** The loader returns true with the first hunk's data as the entry; the memory holds all
segments, relocated; and no segment overlaps another. -/
theorem hunkLoad_loads (hram : RamOn g load limit) (hfits : e.Fits load limit) (hfile : f.Holds 0 e.words) (ctx : σ) :
    (∃ n, (hunkRun g f load limit ctx n).loader.phase =
        .done (.ok ⟨e.dataAddr load 0, load, UInt32.ofNat (e.start load e.hunks.length), UInt32.ofNat e.hunks.length⟩) ∧
      e.LoadedIn load (g.read8 (hunkRun g f load limit ctx n).ctx)) ∧
    ∀ i j, i < j → e.start load i + 8 + e.size i ≤ e.start load j := by
  refine ⟨?_, fun i j hij => e.start_apart load hij⟩
  obtain ⟨pos, hbody, hheader⟩ := header_leads hfile fun i k => g.read8 ctx (UInt32.ofNat (e.start load i + k))
  obtain ⟨hsizes, hhunks⟩ := holds_append.mp hbody
  rw [List.length_map] at hhunks
  have hreserved := (hheader.trans (table_leads hram hfits hsizes)).trans (seglist_leads hram hfits)
  obtain ⟨n, hn⟩ := ((hreserved.trans (hunks_lead hram hfits hhunks)).trans end_leads) _ (hunkStart_at ctx)
  refine ⟨n, ?_, passCells_loaded hn.memory⟩
  have hloader := congrArg HunkLoader.phase hn.loader
  exact hloader

end

/-! ## A file of two hunks -/

theorem ramGuest_ramOn (load limit : UInt32) : RamOn ramGuest load limit := by
  intro ctx a b v _ _ _ _
  by_cases hab : b = a
  · rw [if_pos hab, hab]
    exact Function.update_self a v ctx
  · rw [if_neg hab]
    exact Function.update_of_ne hab v ctx

theorem ofWords_data (ws : List UInt32) (i : Nat) : (HunkFile.ofWords ws).data i = (ws.flatMap beBytes).getD i 0 := rfl

theorem ofWords_size {ws : List UInt32} (h : 4 * ws.length < 2 ^ 32) : (HunkFile.ofWords ws).size.toNat = 4 * ws.length := by
  unfold HunkFile.ofWords HunkFile.ofBytes
  rw [beBytes_length, toNat_ofNat_small (by omega), Nat.mul_comm]

theorem ofWords_byte (done : List UInt32) (w : UInt32) (left : List UInt32) {k : Nat} (hk : k < 4) :
    (HunkFile.ofWords (done ++ w :: left)).data (4 * done.length + k) = longByte w k := by
  have hlen := beBytes_length done
  have hw : (beBytes w).length = 4 := rfl
  have hshift : 4 * done.length + k - done.length * 4 = k := by omega
  rw [ofWords_data, List.flatMap_append, List.getD_append_right _ _ _ _ (by omega), hlen, hshift, List.flatMap_cons,
    List.getD_append _ _ _ _ (by omega)]
  rfl

/-- **A file of longwords holds them.** -/
theorem ofWords_holds {ws : List UInt32} (h : 4 * ws.length < 2 ^ 32) : (HunkFile.ofWords ws).Holds 0 ws := by
  have hsize := ofWords_size h
  have hrest : ∀ done left : List UInt32, ws = done ++ left → (HunkFile.ofWords ws).Holds (4 * done.length) left := by
    intro done left
    induction left generalizing done with
    | nil => exact fun _ => trivial
    | cons w left ih =>
      intro hws
      have hnext := ih (done ++ [w]) (by rw [hws, List.append_assoc]; rfl)
      have hpos : 4 * (done ++ [w]).length = 4 * done.length + 4 := by
        rw [List.length_append, List.length_singleton]
        omega
      have hin : 4 * done.length + 4 ≤ (HunkFile.ofWords ws).size.toNat := by
        rw [hsize, hws, List.length_append, List.length_cons]
        omega
      rw [hpos] at hnext
      refine ⟨?_, hnext⟩
      have h0 := ofWords_byte done w left (by decide : 0 < 4)
      rw [Nat.add_zero] at h0
      unfold HunkFile.word
      rw [if_pos hin, hws, h0, ofWords_byte done w left (by decide : 1 < 4), ofWords_byte done w left (by decide : 2 < 4),
        ofWords_byte done w left (by decide : 3 < 4), longAt_longByte]
  exact hrest [] ws rfl

/-- Two longwords of code, of which the first is relocated twice by the hunk behind it, and a BSS hunk. -/
def twoHunks : HunkExecutable where
  names := []
  tableSize := 2
  first := 0
  hunks := [
    { size := 3
      body := .code ⟨0x3E9, rfl⟩ [0x10, 0x4E754E75]
      blocks := [.reloc32 ⟨0x3EC, rfl⟩ [⟨1, [0, 0], by decide⟩], .symbol ⟨0x3F0, rfl⟩ [⟨[0x73746172], 0, by decide⟩]]
      close := ⟨0x3F2, rfl⟩
      fits := by decide
      inside := by
        have hbytes : hunkBytes 3 = 12 := by decide
        simp [HunkBlock.lists, hbytes] },
    { size := 0x40000001
      body := .bss ⟨0x3EB, rfl⟩ 1
      blocks := []
      close := ⟨0x3F2, rfl⟩
      fits := by decide
      inside := fun _ hblock => absurd hblock List.not_mem_nil }]
  named := fun _ hw => absurd hw List.not_mem_nil
  nonempty := by decide
  few := by decide
  numbered := by decide
  targets := by decide

/-- The two hunks are loaded, the second 32 bytes behind the first. -/
theorem twoHunks_loaded : ∃ n, (hunkRun ramGuest (.ofWords twoHunks.words) 0x1000 0x80000 (fun _ => 0) n).loader.phase =
      .done (.ok ⟨0x1008, 0x1000, 0x1040, 2⟩) ∧
    twoHunks.LoadedIn 0x1000 (hunkRun ramGuest (.ofWords twoHunks.words) 0x1000 0x80000 (fun _ => 0) n).ctx :=
  (hunkLoad_loads (ramGuest_ramOn 0x1000 0x80000) (by unfold HunkExecutable.Fits; decide +kernel)
    (ofWords_holds (by decide)) fun _ => 0).1

example : longAt (twoHunks.image 0x1000 0) 0 = 0x10 + 0x1028 + 0x1028 := by decide +kernel

end Rigel
