import Mathlib.Algebra.Ring.Nat
import Rigel.SpriteBands

/-!
# SpriteLines — the bands of a sprite over the lines of a frame

A channel that gets both its slots on every line reads one pair a line or none. The first pair is a control pair; it
says on which lines the band's data pairs follow and, with them, where the next control pair is due, until a pair of
zeros ends the list. Here the slots of a channel are run line after line, and the addresses that they read are kept.
-/

namespace Rigel

/-! ## A slot and the memory -/

/-- The word that a channel's next slot reads. -/
def spriteSlotReads (s : SpriteDmaState) (sp : Fin 8) (vpos : UInt16) : Option UInt32 :=
  if spriteActive (s.sp sp) vpos then some (s.sp sp).ptr else none

/-- A slot sees of the memory only the word that it reads. -/
theorem spriteDmaSlot_reads (s : SpriteDmaState) (sp : Fin 8) (vpos : UInt16) (isB : Bool) {mem mem' : ChipRam}
    (h : ∀ addr ∈ spriteSlotReads s sp vpos, chipRamRead16 mem addr = chipRamRead16 mem' addr) :
    spriteDmaSlot s sp.val vpos isB mem = spriteDmaSlot s sp.val vpos isB mem' := by
  have hsp : ¬ sp.val ≥ spriteDmaChannels := Nat.not_le.mpr sp.isLt
  unfold spriteDmaSlot
  rw [if_neg hsp, if_neg hsp]
  cases hidle : (s.sp sp).terminated || ((s.sp sp).armed && decide (vpos < (s.sp sp).vstart)) with
  | true => rfl
  | false =>
    have hword : chipRamRead16 mem (s.sp sp).ptr = chipRamRead16 mem' (s.sp sp).ptr := by
      refine h _ ?_
      unfold spriteSlotReads spriteActive
      rw [hidle]
      rfl
    unfold spriteDmaSlotA spriteDmaSlotB
    rw [hword]

/-! ## A line -/

/-- A channel's two slots on a line, the A-slot first. -/
def spriteLine (s : SpriteDmaState) (sp : Fin 8) (vpos : UInt16) (mem : ChipRam) :
    SpriteDmaState × Option (UInt16 × UInt16 × Bool) :=
  spriteDmaSlot (spriteDmaSlot s sp.val vpos false mem).1 sp.val vpos true mem

/-- The addresses that the line's slots read, in order. -/
def spriteLineReads (s : SpriteDmaState) (sp : Fin 8) (vpos : UInt16) (mem : ChipRam) : List UInt32 :=
  (spriteSlotReads s sp vpos).toList ++ (spriteSlotReads (spriteDmaSlot s sp.val vpos false mem).1 sp vpos).toList

/-- The A-slot chose a control pair. -/
def spriteLineControl (s : SpriteDmaState) (sp : Fin 8) (vpos : UInt16) (mem : ChipRam) : Bool :=
  ((spriteDmaSlot s sp.val vpos false mem).1.sp sp).fetchCtrl

variable {s : SpriteDmaState} {sp : Fin 8} {vpos : UInt16} {mem : ChipRam}

theorem spriteSlotA_channel (h : spriteActive (s.sp sp) vpos = true) :
    (spriteDmaSlot s sp.val vpos false mem).1.sp sp = spriteDmaSlotA (s.sp sp) vpos mem := by
  rw [spriteDmaSlot_own, if_pos h]
  rfl

theorem spriteSlotA_active (mem : ChipRam) (h : spriteActive (s.sp sp) vpos = true) :
    spriteActive ((spriteDmaSlot s sp.val vpos false mem).1.sp sp) vpos = true := by
  rw [spriteSlotA_channel h]
  exact h

theorem spriteDmaSlot_idle (h : spriteActive (s.sp sp) vpos = false) (isB : Bool) :
    spriteDmaSlot s sp.val vpos isB mem = (s, none) := by
  have hsp : ¬ sp.val ≥ spriteDmaChannels := Nat.not_le.mpr sp.isLt
  unfold spriteActive at h
  rw [Bool.not_eq_false'] at h
  unfold spriteDmaSlot
  rw [if_neg hsp, if_pos h]

/-- **What a line does to an active channel**: it reads one pair, control or data as the A-slot found it, and hands the
pair on as the B-slot does. -/
theorem spriteLine_active (mem : ChipRam) (h : spriteActive (s.sp sp) vpos = true) :
    spriteLineReads s sp vpos mem = [(s.sp sp).ptr, (s.sp sp).ptr + 2] ∧
      spriteLineControl s sp vpos mem = (!(s.sp sp).armed || decide (vpos ≥ (s.sp sp).vstop)) ∧
      (spriteLine s sp vpos mem).1.sp sp = (spriteDmaSlotB (spriteDmaSlotA (s.sp sp) vpos mem) mem).1 ∧
      (spriteLine s sp vpos mem).2 = (spriteDmaSlotB (spriteDmaSlotA (s.sp sp) vpos mem) mem).2 := by
  have hb := spriteSlotA_active mem h
  refine ⟨?_, ?_, ?_, ?_⟩
  · unfold spriteLineReads spriteSlotReads
    rw [if_pos h, if_pos hb, spriteSlotA_channel h]
    rfl
  · unfold spriteLineControl
    rw [spriteSlotA_channel h]
    rfl
  · unfold spriteLine
    rw [spriteDmaSlot_own, if_pos hb, spriteSlotA_channel h]
    rfl
  · have hsp : ¬ sp.val ≥ spriteDmaChannels := Nat.not_le.mpr sp.isLt
    rw [← spriteSlotA_channel h]
    unfold spriteActive at hb
    rw [Bool.not_eq_true'] at hb
    unfold spriteLine
    rw [spriteDmaSlot, if_neg hsp, if_neg (by rw [hb]; exact Bool.false_ne_true), if_pos rfl]

theorem spriteLine_idle (mem : ChipRam) (h : spriteActive (s.sp sp) vpos = false) :
    spriteLineReads s sp vpos mem = [] ∧ spriteLine s sp vpos mem = (s, none) := by
  constructor
  · unfold spriteLineReads spriteSlotReads
    rw [spriteDmaSlot_idle h, h]
    rfl
  · unfold spriteLine
    rw [spriteDmaSlot_idle h, spriteDmaSlot_idle h]

/-! ## The three things a B-slot may do -/

/-- VSTART and VSTOP as a control pair has them. -/
def bandStart (w : UInt16 × UInt16) : UInt16 :=
  ((w.1 >>> 8) &&& (0xFF : UInt16)) ||| (((w.2 >>> 2) &&& (1 : UInt16)) <<< 8)

def bandStop (w : UInt16 × UInt16) : UInt16 :=
  ((w.2 >>> 8) &&& (0xFF : UInt16)) ||| (((w.2 >>> 1) &&& (1 : UInt16)) <<< 8)

theorem spriteSlotB_data {ch : SpriteDmaChannel} (h : ch.fetchCtrl = false) (mem : ChipRam) :
    spriteDmaSlotB ch mem = ({ ch with ptr := ch.ptr + 2 }, some (ch.w0, chipRamRead16 mem ch.ptr, false)) := by
  unfold spriteDmaSlotB
  simp only [h, Bool.false_eq_true, if_false]

theorem spriteSlotB_end {ch : SpriteDmaChannel} (h : ch.fetchCtrl = true)
    (hend : (ch.w0, chipRamRead16 mem ch.ptr) = (0, 0)) :
    (spriteDmaSlotB ch mem).1.terminated = true ∧ (spriteDmaSlotB ch mem).2 = none := by
  rw [Prod.mk.injEq] at hend
  unfold spriteDmaSlotB
  simp only [h, if_true, if_pos hend]
  exact ⟨trivial, trivial⟩

theorem spriteSlotB_control {ch : SpriteDmaChannel} (h : ch.fetchCtrl = true)
    (hgo : (ch.w0, chipRamRead16 mem ch.ptr) ≠ (0, 0)) :
    spriteDmaSlotB ch mem =
      ({ ch with
          ptr := ch.ptr + 2
          vstart := bandStart (ch.w0, chipRamRead16 mem ch.ptr)
          vstop := bandStop (ch.w0, chipRamRead16 mem ch.ptr)
          armed := true }, some (ch.w0, chipRamRead16 mem ch.ptr, true)) := by
  rw [ne_eq, Prod.mk.injEq] at hgo
  unfold spriteDmaSlotB
  simp only [h, if_true, if_neg hgo]
  rfl

/-! ## The lines of a frame -/

/-- A channel that is served on every line from `first` on. -/
structure SpriteRun where
  start : SpriteDmaState
  sp : Fin 8
  first : Nat
  mem : ChipRam

namespace SpriteRun

/-- The line `i` lines below the first. -/
def line (r : SpriteRun) (i : Nat) : UInt16 := UInt16.ofNat (r.first + i)

/-- The channels before that line. -/
def state (r : SpriteRun) : Nat → SpriteDmaState
  | 0 => r.start
  | i + 1 => (spriteLine (r.state i) r.sp (r.line i) r.mem).1

def channel (r : SpriteRun) (i : Nat) : SpriteDmaChannel := (r.state i).sp r.sp

def reads (r : SpriteRun) (i : Nat) : List UInt32 := spriteLineReads (r.state i) r.sp (r.line i) r.mem

def control (r : SpriteRun) (i : Nat) : Bool := spriteLineControl (r.state i) r.sp (r.line i) r.mem

def delivers (r : SpriteRun) (i : Nat) : Option (UInt16 × UInt16 × Bool) :=
  (spriteLine (r.state i) r.sp (r.line i) r.mem).2

/-- How many of the lines above have read something. -/
def pairsBefore (r : SpriteRun) (i : Nat) : Nat := (List.range i).countP fun j => !(r.reads j).isEmpty

/-- The address of the `k`-th pair of the list. -/
def pairAddr (r : SpriteRun) (k : Nat) : UInt32 := (r.start.sp r.sp).basePtr + 4 * UInt32.ofNat k

def pair (r : SpriteRun) (k : Nat) : UInt16 × UInt16 :=
  (chipRamRead16 r.mem (r.pairAddr k), chipRamRead16 r.mem (r.pairAddr k + 2))

/-- The pair of this line, if the line reads one: the next of the list. -/
def pairOn (r : SpriteRun) (i : Nat) : UInt16 × UInt16 := r.pair (r.pairsBefore i)

/-- The line's slots read the two words of the next pair. -/
def ReadsPair (r : SpriteRun) (i : Nat) : Prop :=
  r.reads i = [r.pairAddr (r.pairsBefore i), r.pairAddr (r.pairsBefore i) + 2]

structure Idle (r : SpriteRun) (i : Nat) : Prop where
  reads : r.reads i = []
  delivers : r.delivers i = none

structure ReadsControl (r : SpriteRun) (i : Nat) : Prop where
  reads : r.ReadsPair i
  control : r.control i = true
  delivers : r.delivers i = if r.pairOn i = (0, 0) then none else some ((r.pairOn i).1, (r.pairOn i).2, true)

structure ReadsData (r : SpriteRun) (i : Nat) : Prop where
  reads : r.ReadsPair i
  control : r.control i = false
  delivers : r.delivers i = some ((r.pairOn i).1, (r.pairOn i).2, false)

/-- After a control pair on line `i`, the next one is due from this line on. -/
def NextDue (r : SpriteRun) (i j : Nat) : Prop :=
  (bandStart (r.pairOn i)).toNat ≤ r.first + j ∧ (bandStop (r.pairOn i)).toNat ≤ r.first + j

/-- **The bands of a channel**, over the first `lines` lines. -/
structure Bands (r : SpriteRun) (lines : Nat) : Prop where
  /-- a line reads nothing, or the next pair of the list -/
  reads : ∀ i < lines, r.Idle i ∨ r.ReadsControl i ∨ r.ReadsData i
  opens : 0 < lines → r.ReadsControl 0
  /-- up to the next control pair, a line reads data from VSTART on and nothing before -/
  band : ∀ i j, r.ReadsControl i → r.pairOn i ≠ (0, 0) → i < j → j < lines →
    (∀ m, i < m → m < j → ¬ r.NextDue i m) →
      (r.first + j < (bandStart (r.pairOn i)).toNat → r.Idle j) ∧
      ((bandStart (r.pairOn i)).toNat ≤ r.first + j → r.first + j < (bandStop (r.pairOn i)).toNat → r.ReadsData j) ∧
      (r.NextDue i j → r.ReadsControl j)
  ends : ∀ i j, r.ReadsControl i → r.pairOn i = (0, 0) → i < j → j < lines → r.Idle j

variable {r : SpriteRun} {i j lines : Nat}

theorem idle_of (h : spriteActive (r.channel i) (r.line i) = false) : r.Idle i ∧ r.state (i + 1) = r.state i := by
  obtain ⟨hreads, hline⟩ := spriteLine_idle r.mem h
  exact ⟨⟨hreads, congrArg Prod.snd hline⟩, congrArg Prod.fst hline⟩

theorem pairsBefore_succ (r : SpriteRun) (i : Nat) :
    r.pairsBefore (i + 1) = r.pairsBefore i + if r.reads i = [] then 0 else 1 := by
  unfold pairsBefore
  rw [List.range_succ, List.countP_append, List.countP_singleton]
  cases r.reads i with
  | nil => rfl
  | cons a as => rfl

/-- The pointer stands at the next pair of the list. -/
theorem channel_ptr (hstart : (r.channel 0).ptr = (r.channel 0).basePtr) :
    ∀ i, (r.channel i).ptr = r.pairAddr (r.pairsBefore i) := by
  intro i
  induction i with
  | zero =>
    unfold pairAddr
    rw [hstart]
    show (r.start.sp r.sp).basePtr = (r.start.sp r.sp).basePtr + 4 * 0
    rw [UInt32.mul_zero, UInt32.add_zero]
  | succ i ih =>
    rw [pairsBefore_succ]
    cases hact : spriteActive (r.channel i) (r.line i) with
    | false =>
      obtain ⟨hidle, hsame⟩ := idle_of hact
      unfold channel
      rw [hsame, if_pos hidle.reads]
      exact ih
    | true =>
      obtain ⟨hreads, -, hch, -⟩ := spriteLine_active r.mem hact
      have hne : r.reads i ≠ [] := by
        intro h
        cases hreads.symm.trans h
      rw [if_neg hne]
      show ((spriteLine (r.state i) r.sp (r.line i) r.mem).1.sp r.sp).ptr = _
      rw [hch, (spriteSlotB_ptr _ _).1]
      show (r.channel i).ptr + 2 + 2 = _
      rw [ih]
      unfold pairAddr
      rw [UInt32.ofNat_add]
      grind

/-- Nothing of a list has been read yet: as a frame start or a pointer write leaves the channel. -/
structure Fresh (r : SpriteRun) : Prop where
  armed : (r.channel 0).armed = false
  terminated : (r.channel 0).terminated = false
  ptr : (r.channel 0).ptr = (r.channel 0).basePtr

/-- The channel is in the band of the control pair `w`. -/
structure InBand (r : SpriteRun) (w : UInt16 × UInt16) (i : Nat) : Prop where
  armed : (r.channel i).armed = true
  terminated : (r.channel i).terminated = false
  vstart : (r.channel i).vstart = bandStart w
  vstop : (r.channel i).vstop = bandStop w

theorem line_toNat (hj : r.first + j < 65536) : (r.line j).toNat = r.first + j := by
  unfold line
  rw [UInt16.toNat_ofNat']
  exact Nat.mod_eq_of_lt hj

section Step

variable (hptr : (r.channel i).ptr = r.pairAddr (r.pairsBefore i))
include hptr

theorem active_reads (h : spriteActive (r.channel i) (r.line i) = true) : r.ReadsPair i := by
  unfold ReadsPair
  rw [← hptr]
  exact (spriteLine_active r.mem h).1

theorem active_words :
    ((spriteDmaSlotA (r.channel i) (r.line i) r.mem).w0,
      chipRamRead16 r.mem (spriteDmaSlotA (r.channel i) (r.line i) r.mem).ptr) = r.pairOn i := by
  unfold pairOn pair
  rw [← hptr]
  rfl

theorem active_data (h : spriteActive (r.channel i) (r.line i) = true) (hc : r.control i = false) :
    r.ReadsData i ∧ ∀ w, r.InBand w i → r.InBand w (i + 1) := by
  obtain ⟨-, -, hch, hout⟩ := spriteLine_active r.mem h
  have hfetch : (spriteDmaSlotA (r.channel i) (r.line i) r.mem).fetchCtrl = false := by
    rw [← hc]
    exact congrArg SpriteDmaChannel.fetchCtrl (spriteSlotA_channel h).symm
  have hchannel : (r.state i).sp r.sp = r.channel i := rfl
  rw [hchannel, spriteSlotB_data hfetch] at hch hout
  have hwords := active_words hptr
  refine ⟨⟨active_reads hptr h, hc, ?_⟩, fun w hw => ?_⟩
  · rw [← hwords]
    exact hout
  · have hnext : r.channel (i + 1) = { spriteDmaSlotA (r.channel i) (r.line i) r.mem with
        ptr := (spriteDmaSlotA (r.channel i) (r.line i) r.mem).ptr + 2 } := hch
    exact ⟨hnext ▸ hw.armed, hnext ▸ hw.terminated, hnext ▸ hw.vstart, hnext ▸ hw.vstop⟩

theorem active_control (h : spriteActive (r.channel i) (r.line i) = true) (hc : r.control i = true) :
    r.ReadsControl i ∧ (r.pairOn i ≠ (0, 0) → r.InBand (r.pairOn i) (i + 1)) ∧
      (r.pairOn i = (0, 0) → (r.channel (i + 1)).terminated = true) := by
  obtain ⟨-, -, hch, hout⟩ := spriteLine_active r.mem h
  have hfetch : (spriteDmaSlotA (r.channel i) (r.line i) r.mem).fetchCtrl = true := by
    rw [← hc]
    exact congrArg SpriteDmaChannel.fetchCtrl (spriteSlotA_channel h).symm
  have hterm := ((spriteActive_iff _ _).mp h).1
  have hwords := active_words hptr
  have hchannel : (r.state i).sp r.sp = r.channel i := rfl
  rw [hchannel] at hch hout
  by_cases hend : r.pairOn i = (0, 0)
  · obtain ⟨hterm', hnone⟩ := spriteSlotB_end hfetch (hwords.trans hend)
    refine ⟨⟨active_reads hptr h, hc, ?_⟩, fun hgo => absurd hend hgo, fun _ => ?_⟩
    · rw [if_pos hend]
      exact hout.trans hnone
    · exact (congrArg SpriteDmaChannel.terminated hch).trans hterm'
  · rw [spriteSlotB_control hfetch (fun e => hend (hwords.symm.trans e)), hwords] at hch hout
    refine ⟨⟨active_reads hptr h, hc, ?_⟩, fun _ => ?_, fun e => absurd e hend⟩
    · rw [if_neg hend]
      refine hout.trans ?_
      rw [← hwords]
    · exact ⟨congrArg SpriteDmaChannel.armed hch, (congrArg SpriteDmaChannel.terminated hch).trans hterm,
        congrArg SpriteDmaChannel.vstart hch, congrArg SpriteDmaChannel.vstop hch⟩

/-- **A line in a band**: idle above VSTART, data down to VSTOP, then the next control pair. -/
theorem InBand.step {w : UInt16 × UInt16} (h : r.InBand w i) (hi : r.first + i < 65536) :
    (r.first + i < (bandStart w).toNat → r.Idle i) ∧
      ((bandStart w).toNat ≤ r.first + i → r.first + i < (bandStop w).toNat → r.ReadsData i) ∧
      ((bandStart w).toNat ≤ r.first + i → (bandStop w).toNat ≤ r.first + i → r.ReadsControl i) ∧
      (¬ ((bandStart w).toNat ≤ r.first + i ∧ (bandStop w).toNat ≤ r.first + i) → r.InBand w (i + 1)) := by
  have hactive : spriteActive (r.channel i) (r.line i) = true ↔ (bandStart w).toNat ≤ r.first + i := by
    rw [spriteActive_iff, h.vstart, UInt16.le_iff_toNat_le, line_toNat hi]
    exact ⟨fun hx => hx.2 h.armed, fun hx => ⟨h.terminated, fun _ => hx⟩⟩
  have hcontrol : (bandStart w).toNat ≤ r.first + i → r.control i = decide ((bandStop w).toNat ≤ r.first + i) := by
    intro hs
    refine (spriteLine_active r.mem (hactive.mpr hs)).2.1.trans ?_
    show (!(r.channel i).armed || decide (r.line i ≥ (r.channel i).vstop)) = _
    rw [h.armed, h.vstop, Bool.not_true, Bool.false_or]
    simp only [ge_iff_le, UInt16.le_iff_toNat_le, line_toNat hi]
  have hidle : r.first + i < (bandStart w).toNat → r.Idle i ∧ r.state (i + 1) = r.state i := by
    intro hs
    refine idle_of ?_
    rw [← Bool.not_eq_true, hactive]
    exact Nat.not_le.mpr hs
  have hdata : (bandStart w).toNat ≤ r.first + i → r.first + i < (bandStop w).toNat →
      r.ReadsData i ∧ ∀ w, r.InBand w i → r.InBand w (i + 1) := by
    intro hs he
    refine active_data hptr (hactive.mpr hs) ?_
    rw [hcontrol hs]
    exact decide_eq_false (Nat.not_le.mpr he)
  refine ⟨fun hs => (hidle hs).1, fun hs he => (hdata hs he).1, fun hs he => ?_, fun hnot => ?_⟩
  · refine (active_control hptr (hactive.mpr hs) ?_).1
    rw [hcontrol hs]
    exact decide_eq_true he
  · by_cases hs : (bandStart w).toNat ≤ r.first + i
    · exact (hdata hs (Nat.lt_of_not_le fun he => hnot ⟨hs, he⟩)).2 w h
    · have hsame : r.channel (i + 1) = r.channel i :=
        congrArg (fun s : SpriteDmaState => s.sp r.sp) (hidle (Nat.lt_of_not_le hs)).2
      exact ⟨hsame ▸ h.armed, hsame ▸ h.terminated, hsame ▸ h.vstart, hsame ▸ h.vstop⟩

end Step

theorem terminated_idle (h : (r.channel i).terminated = true) :
    ∀ j, i ≤ j → (r.channel j).terminated = true ∧ r.Idle j := by
  have hidle : ∀ {j}, (r.channel j).terminated = true → r.Idle j ∧ r.state (j + 1) = r.state j := by
    intro j hj
    refine idle_of ?_
    unfold spriteActive
    rw [hj, Bool.true_or, Bool.not_true]
  intro j hij
  induction j, hij using Nat.le_induction with
  | base => exact ⟨h, (hidle h).1⟩
  | succ j _ ih =>
    have hnext : (r.channel (j + 1)).terminated = true := by
      unfold channel
      rw [(hidle ih.1).2]
      exact ih.1
    exact ⟨hnext, (hidle hnext).1⟩

theorem ReadsControl.active (h : r.ReadsControl i) : spriteActive (r.channel i) (r.line i) = true := by
  cases hact : spriteActive (r.channel i) (r.line i) with
  | true => rfl
  | false =>
    have hreads := h.reads
    unfold ReadsPair at hreads
    rw [(idle_of hact).1.reads] at hreads
    cases hreads

/-- **The bands of a fresh channel**, on the lines that 16 bits can count. -/
theorem Fresh.bands (h : r.Fresh) (hlines : r.first + lines ≤ 65536) : r.Bands lines := by
  have hptr := channel_ptr h.ptr
  refine ⟨fun i _ => ?_, fun _ => ?_, fun i j hi hgo hij hj hnot => ?_, fun i j hi hend hij _ => ?_⟩
  · cases hact : spriteActive (r.channel i) (r.line i) with
    | false => exact .inl (idle_of hact).1
    | true =>
      cases hc : r.control i with
      | true => exact .inr (.inl (active_control (hptr i) hact hc).1)
      | false => exact .inr (.inr (active_data (hptr i) hact hc).1)
  · have hact : spriteActive (r.channel 0) (r.line 0) = true := by
      refine (spriteActive_iff _ _).mpr ⟨h.terminated, fun ha => ?_⟩
      cases h.armed.symm.trans ha
    refine (active_control (hptr 0) hact ?_).1
    refine (spriteLine_active r.mem hact).2.1.trans ?_
    show (!(r.channel 0).armed || _) = true
    rw [h.armed]
    rfl
  · have hband : ∀ m, i + 1 ≤ m → m ≤ j → r.InBand (r.pairOn i) m := by
      intro m him
      induction m, him using Nat.le_induction with
      | base => exact fun _ => (active_control (hptr i) hi.active hi.control).2.1 hgo
      | succ m him ih =>
        intro hm
        exact (InBand.step (hptr m) (ih (by omega)) (by omega)).2.2.2 (hnot m him hm)
    obtain ⟨hbefore, hdata, hnext, -⟩ := InBand.step (hptr j) (hband j hij le_rfl) (by omega)
    exact ⟨hbefore, hdata, fun hdue => hnext hdue.1 hdue.2⟩
  · exact (terminated_idle ((active_control (hptr i) hi.active hi.control).2.2 hend) j hij).2

end SpriteRun

/-- A frame start makes a channel fresh. -/
theorem spriteRun_frameStart (s : SpriteDmaState) (sp : Fin 8) (first : Nat) (mem : ChipRam) :
    (SpriteRun.mk (spriteDmaFrameStart s) sp first mem).Fresh := ⟨rfl, rfl, rfl⟩

/-- **The bands of a sprite in a frame**: a channel that gets both slots on every line after a frame start reads its list
from the base on, pair by pair, and band after band until a pair of zeros. -/
theorem sprite_bands (s : SpriteDmaState) (sp : Fin 8) (mem : ChipRam) (first lines : Nat)
    (hlines : first + lines ≤ 65536) : (SpriteRun.mk (spriteDmaFrameStart s) sp first mem).Bands lines :=
  SpriteRun.Fresh.bands (spriteRun_frameStart s sp first mem) hlines

theorem sprite_bands_pal :
    0 + 312 ≤ 65536 ∧
      (SpriteRun.mk (spriteDmaFrameStart bandMachine.agnus.spriteDma) 0 0 bandMachine.ram).Bands 312 :=
  ⟨by decide, sprite_bands bandMachine.agnus.spriteDma 0 bandMachine.ram 0 312 (by decide)⟩

end Rigel
