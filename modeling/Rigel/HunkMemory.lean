import Rigel.HunkExecutable
import Rigel.HunkGrammar

/-!
# HunkMemory — the loader over a file, and the memory that it leaves

Where the loader is in its file, and what the guest's memory holds, segment by segment: a span that is written into one
segment changes that segment only.
-/

namespace Rigel

/-! ## The guest -/

/-- Consecutive writes. -/
def span (a : UInt32) (n : Nat) (v : Nat → UInt8) : List GuestWrite := (List.range n).map fun k => (a + UInt32.ofNat k, v k)

theorem put32_span (a v : UInt32) : put32 a v = span a 4 (longByte v) := by
  have h0 : a + UInt32.ofNat 0 = a := UInt32.add_zero _
  have hrange : List.range 4 = [0, 1, 2, 3] := rfl
  unfold span
  rw [hrange, List.map_cons, h0]
  rfl

theorem span_succ (a : UInt32) (n : Nat) (v : Nat → UInt8) :
    span a (n + 1) v = span a n v ++ [(a + UInt32.ofNat n, v n)] := by
  unfold span
  rw [List.range_succ, List.map_append]
  rfl

theorem ofNat_add_four (pos : Nat) : UInt32.ofNat pos + 4 = UInt32.ofNat (pos + 4) := by
  rw [UInt32.ofNat_add]
  rfl

theorem toNat_ofNat_small {n : Nat} (h : n < 2 ^ 32) : (UInt32.ofNat n).toNat = n := UInt32.toNat_ofNat_of_lt' h

section
variable {σ : Type*} (g : HunkGuest σ) (load limit : UInt32)

/-- The guest's memory is RAM from `load` on and below the limit: a byte that is written there is read, and the others
stay. -/
def RamOn : Prop := ∀ (ctx : σ) (a b : UInt32) (v : UInt8), load ≤ a → a < limit → load ≤ b → b < limit →
  g.read8 (g.write8 ctx a v) b = if b = a then v else g.read8 ctx b

variable {g load limit}

/-- **A span that is written** is read, and the rest stays. -/
theorem apply_span (hram : RamOn g load limit) {a n b : Nat} (hlow : load.toNat ≤ a) (hhigh : a + n ≤ limit.toNat)
    (hlow' : load.toNat ≤ b) (hhigh' : b < limit.toNat) (ctx : σ) (v : Nat → UInt8) :
    g.read8 (g.apply ctx (span (UInt32.ofNat a) n v)) (UInt32.ofNat b) =
      painted (fun k => g.read8 ctx (UInt32.ofNat k)) a n v b := by
  have hlimit := limit.toNat_lt
  have hb := toNat_ofNat_small (by omega : b < 2 ^ 32)
  induction n with
  | zero =>
    rw [painted_out (by omega)]
    rfl
  | succ n ih =>
    have hlast : UInt32.ofNat a + UInt32.ofNat n = UInt32.ofNat (a + n) := (UInt32.ofNat_add a n).symm
    have han := toNat_ofNat_small (by omega : a + n < 2 ^ 32)
    have happly : g.apply ctx (span (UInt32.ofNat a) (n + 1) v) =
        g.write8 (g.apply ctx (span (UInt32.ofNat a) n v)) (UInt32.ofNat (a + n)) (v n) := by
      unfold HunkGuest.apply
      rw [span_succ, List.foldl_append, hlast]
      rfl
    rw [happly, hram _ _ _ _ (by rw [UInt32.le_iff_toNat_le, han]; omega) (by rw [UInt32.lt_iff_toNat_lt, han]; omega)
      (by rw [UInt32.le_iff_toNat_le, hb]; omega) (by rw [UInt32.lt_iff_toNat_lt, hb]; omega)]
    by_cases hhit : b = a + n
    · rw [if_pos (by rw [hhit]), hhit, painted_in (Nat.lt_succ_self n)]
    · have hne : UInt32.ofNat b ≠ UInt32.ofNat (a + n) := by
        intro h
        have h' := congrArg UInt32.toNat h
        rw [hb, han] at h'
        exact hhit h'
      rw [if_neg hne, ih (by omega)]
      unfold painted
      by_cases hin : a ≤ b ∧ b < a + n
      · rw [if_pos hin, if_pos (by omega)]
      · rw [if_neg hin, if_neg (by omega)]

end

/-! ## The file -/

/-- The file has these longwords from an offset on. -/
def HunkFile.Holds (f : HunkFile) : Nat → List UInt32 → Prop
  | _, [] => True
  | p, w :: ws => f.word p = some w ∧ f.Holds (p + 4) ws

section
variable {f : HunkFile}

theorem holds_append : ∀ {p : Nat} {ws ws' : List UInt32},
    f.Holds p (ws ++ ws') ↔ f.Holds p ws ∧ f.Holds (p + 4 * ws.length) ws'
  | _, [], _ => (true_and _).symm.to_iff
  | p, w :: ws, ws' => by
    have hlen : p + 4 * (w :: ws).length = p + 4 + 4 * ws.length := by
      rw [List.length_cons]
      omega
    rw [hlen, List.cons_append, HunkFile.Holds, HunkFile.Holds, holds_append, and_assoc]

theorem holds_length : ∀ {p : Nat} {ws : List UInt32}, f.Holds p ws → ws ≠ [] → p + 4 * ws.length ≤ f.size.toNat
  | p, [w], h, _ => HunkFile.word_inside h.1
  | p, w :: w' :: ws, h, _ => by
    have hrest := holds_length h.2 (List.cons_ne_nil w' ws)
    rw [List.length_cons]
    omega

theorem holds_get : ∀ {p i : Nat} {ws : List UInt32}, f.Holds p ws → (hi : i < ws.length) → f.word (p + 4 * i) = some ws[i]
  | p, i, [], _, hi => absurd hi (Nat.not_lt_zero i)
  | p, 0, w :: ws, h, _ => h.1
  | p, i + 1, w :: ws, h, hi => by
    have hrest := holds_get h.2 (Nat.lt_of_succ_lt_succ hi)
    have hpos : p + 4 + 4 * i = p + 4 * (i + 1) := by omega
    rw [hpos] at hrest
    exact hrest

/-- The bytes of a file are those of its longwords. -/
theorem holds_data : ∀ {p k : Nat} {ws : List UInt32}, f.Holds p ws → k < 4 * ws.length →
    f.data (p + k) = (ws.flatMap beBytes).getD k 0
  | p, k, [], _, hk => absurd hk (Nat.not_lt_zero k)
  | p, k, w :: ws, h, hk => by
    have hword := h.1
    unfold HunkFile.word at hword
    rw [if_pos (HunkFile.word_inside h.1)] at hword
    cases hword
    rw [List.flatMap_cons, beBytes_beLong]
    by_cases h4 : k < 4
    · rw [List.getD_append _ _ _ _ (by simpa using h4)]
      rcases k with _ | _ | _ | _ | k
      · rfl
      · rfl
      · rfl
      · rfl
      · exact absurd h4 (by omega)
    · rw [List.getD_append_right _ _ _ _ (by simpa using h4)]
      rw [List.length_cons] at hk
      have hrest := holds_data h.2 (by omega : k - 4 < 4 * ws.length)
      have hk' : p + 4 + (k - 4) = p + k := by omega
      rw [hk'] at hrest
      exact hrest

end

/-! ## The segments in the memory -/

/-- A segment from its size on: the size, the link and the data. -/
def segCells (size link : UInt32) (img : Nat → UInt8) (k : Nat) : UInt8 :=
  if k < 4 then longByte size k else if k < 8 then longByte link (k - 4) else img (k - 8)

section
variable {σ : Type*} (g : HunkGuest σ) (e : HunkExecutable) (load limit : UInt32)

/-- The guest's memory holds these bytes, segment by segment. -/
def InCells (cells : Nat → Nat → UInt8) (ctx : σ) : Prop :=
  ∀ i < e.hunks.length, ∀ k < 8 + e.size i, g.read8 ctx (UInt32.ofNat (e.start load i + k)) = cells i k

variable {g e load limit}

theorem InCells.congr {cells cells' : Nat → Nat → UInt8} {ctx : σ} (h : InCells g e load cells ctx)
    (hsame : ∀ i < e.hunks.length, ∀ k < 8 + e.size i, cells i k = cells' i k) : InCells g e load cells' ctx :=
  fun i hi k hk => (h i hi k hk).trans (hsame i hi k hk)

/-- **A span in one segment changes that segment only.** -/
theorem InCells.span (hram : RamOn g load limit) (hfits : e.Fits load limit) {cells : Nat → Nat → UInt8} {ctx : σ}
    (h : InCells g e load cells ctx) {i off n : Nat} (hi : i < e.hunks.length) (hoff : off + n ≤ 8 + e.size i)
    (v : Nat → UInt8) :
    InCells g e load (Function.update cells i (painted (cells i) off n v))
      (g.apply ctx (span (UInt32.ofNat (e.start load i + off)) n v)) := by
  intro j hj k hk
  have hend := hfits i hi
  have hend' := hfits j hj
  have hlow := e.le_start load i
  have hlow' := e.le_start load j
  rw [apply_span hram (by omega) (by omega) (by omega) (by omega)]
  rcases Nat.lt_trichotomy j i with hlt | rfl | hlt
  · have hapart := e.start_apart load hlt
    rw [painted_out (by omega), Function.update_of_ne (Nat.ne_of_lt hlt)]
    exact h j hj k hk
  · rw [Function.update_self]
    unfold painted
    by_cases hin : off ≤ k ∧ k < off + n
    · have hshift : e.start load j + k - (e.start load j + off) = k - off := by omega
      rw [if_pos (by omega), if_pos hin, hshift]
    · rw [if_neg (by omega), if_neg hin]
      exact h j hj k hk
  · have hapart := e.start_apart load hlt
    rw [painted_out (by omega), Function.update_of_ne (Nat.ne_of_gt hlt)]
    exact h j hj k hk

theorem apply_append (ctx : σ) (ws ws' : List GuestWrite) : g.apply ctx (ws ++ ws') = g.apply (g.apply ctx ws) ws' :=
  List.foldl_append

/-- Where the loader is in the file, and what the memory holds. -/
structure HunkAt (g : HunkGuest σ) (e : HunkExecutable) (load : UInt32) (phase : HunkPhase)
    (pos count reserved block : Nat) (cells : Nat → Nat → UInt8) (s : HunkMachine σ) : Prop where
  loader : s.loader = ⟨⟨UInt32.ofNat pos, false⟩, phase, UInt32.ofNat count, s.loader.segData, s.loader.segSize,
    UInt32.ofNat (e.start load reserved), UInt32.ofNat block⟩
  segments : ∀ i < reserved, s.loader.segData i = e.dataAddr load i ∧ s.loader.segSize i = UInt32.ofNat (e.size i)
  memory : InCells g e load cells s.ctx

variable {f : HunkFile} {phase : HunkPhase} {pos count reserved block : Nat} {cells : Nat → Nat → UInt8} {s : HunkMachine σ}
  {v : UInt32}

/-- The phases whose next step reads a word. -/
def HunkPhase.Reading (phase : HunkPhase) (block count : Nat) : Prop :=
  match phase with
  | .seglist | .done _ => False
  | .block => block < count
  | _ => True

theorem HunkAt.readsWord (h : HunkAt g e load phase pos count reserved block cells s) (hv : f.word pos = some v)
    (hreading : phase.Reading block count) (hcount : count < 2 ^ 32) : s.loader.readsWord f = true := by
  have hin := HunkFile.word_inside hv
  have hsize := f.size.toNat_lt
  rw [h.loader]
  unfold HunkLoader.readsWord
  unfold HunkPhase.Reading at hreading
  cases phase with
  | seglist | done result => exact hreading.elim
  | block =>
    simp only [Bool.and_eq_true, decide_eq_true_eq, UInt32.lt_iff_toNat_lt]
    simp only at hreading
    rw [toNat_ofNat_small (by omega), toNat_ofNat_small (by omega), toNat_ofNat_small (by omega)]
    exact ⟨by omega, hreading⟩
  | magic | names | tableSize | firstHunk | lastHunk first | segment i | code | bss | relocCount | relocTarget n
  | relocOffset n target | symbol | debug => rfl

/-- **A step of the loader over a word of the file.** -/
theorem HunkAt.step (h : HunkAt g e load phase pos count reserved block cells s) (hv : f.word pos = some v)
    (hreading : phase.Reading block count) (hcount : count < 2 ^ 32) :
    hunkMachineStep g f load limit s =
      let next := hunkWord f load limit (g.read8 s.ctx) ⟨⟨UInt32.ofNat (pos + 4), false⟩, phase, UInt32.ofNat count,
        s.loader.segData, s.loader.segSize, UInt32.ofNat (e.start load reserved), UInt32.ofNat block⟩ v
      ⟨next.next, g.apply s.ctx next.writes⟩ := by
  have hin := HunkFile.word_inside hv
  have hsize := f.size.toNat_lt
  have hpos := toNat_ofNat_small (by omega : pos < 2 ^ 32)
  have hreads := h.readsWord hv hreading hcount
  have hword : f.word s.loader.reader.pos.toNat = some v := by
    rw [h.loader, hpos]
    exact hv
  unfold hunkMachineStep HunkMachine.effect
  rw [hunkStep_reading hreads, (rd32_word hword).1]
  have hloader := h.loader
  generalize s.loader = c at hloader
  rw [hloader]
  simp only [ofNat_add_four]

/-- **A step that writes nothing** moves the loader in the file. -/
theorem HunkAt.moves (h : HunkAt g e load phase pos count reserved block cells s) (hv : f.word pos = some v)
    (hreading : phase.Reading block count) (hcount : count < 2 ^ 32) {phase' : HunkPhase} {pos' count' block' : Nat}
    (hnext : ∀ mem segData segSize cursor, hunkWord f load limit mem ⟨⟨UInt32.ofNat (pos + 4), false⟩, phase,
      UInt32.ofNat count, segData, segSize, cursor, UInt32.ofNat block⟩ v =
        ⟨⟨⟨UInt32.ofNat pos', false⟩, phase', UInt32.ofNat count', segData, segSize, cursor, UInt32.ofNat block'⟩, [], []⟩) :
    HunkAt g e load phase' pos' count' reserved block' cells (hunkMachineStep g f load limit s) := by
  rw [h.step hv hreading hcount, hnext]
  exact ⟨rfl, h.segments, h.memory⟩

end

end Rigel
