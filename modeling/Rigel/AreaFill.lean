import Mathlib.Data.Nat.Basic
import Rigel.Bits
import Rigel.CopyBlit

/-!
# AreaFill — the fill carry along a row

`blitter_fill_word` carries one bit through the sixteen of a word, and `execute_copy_mode` carries it from word to
word of a row and restarts it at the next. Read in fill order the row is one bit stream, and the fill a running parity
(`copyFilled_bit`). The source writes the fill twice, once a mode, and the two come out the same: inclusive fill loses
the edge on which an area closes.
-/

namespace Rigel

/-! ## Parity of a bit stream -/

/-- The parity of the first `n` bits. -/
def prefixParity (f : Nat → Bool) : Nat → Bool
  | 0 => false
  | n + 1 => prefixParity f n ^^ f n

theorem prefixParity_add (f : Nat → Bool) (m : Nat) :
    ∀ n, prefixParity f (m + n) = (prefixParity f m ^^ prefixParity (fun i => f (m + i)) n)
  | 0 => (Bool.xor_false _).symm
  | n + 1 => by
    rw [← Nat.add_assoc, prefixParity, prefixParity_add f m n, prefixParity, Bool.xor_assoc]

theorem prefixParity_congr {f g : Nat → Bool} : ∀ {n : Nat}, (∀ i < n, f i = g i) → prefixParity f n = prefixParity g n
  | 0, _ => rfl
  | n + 1, h => by
    rw [prefixParity, prefixParity, h n n.lt_succ_self, prefixParity_congr (fun i hi => h i (Nat.lt_succ_of_lt hi))]

/-- A stream without bits has parity zero. -/
theorem prefixParity_of_clear {f : Nat → Bool} : ∀ {n : Nat}, (∀ i < n, f i = false) → prefixParity f n = false
  | 0, _ => rfl
  | n + 1, h => by
    rw [prefixParity, h n n.lt_succ_self, prefixParity_of_clear (fun i hi => h i (Nat.lt_succ_of_lt hi))]
    rfl

/-! ## One word -/

/-- The bit that the fill meets as number `q`: from the top of a word in ascending mode, from the bottom in
descending mode. -/
def fillOrder (descending : Bool) (q : Nat) : Nat := if descending then q else 15 - q

def wordBit (descending : Bool) (w : UInt16) (q : Nat) : Bool := w.toNat.testBit (fillOrder descending q)

theorem fillOrder_lt (descending : Bool) {q : Nat} (hq : q < 16) : fillOrder descending q < 16 := by
  unfold fillOrder
  split <;> omega

theorem fillOrder_inj {descending : Bool} {p q : Nat} (hp : p < 16) (hq : q < 16)
    (h : fillOrder descending p = fillOrder descending q) : p = q := by
  unfold fillOrder at h
  split at h <;> omega

/-- Both modes mark a bit when the carry, moved past the bit, is set. -/
theorem blitterFillBit_eq (d : UInt16) (inclusive : Bool) (acc : UInt16 × Bool) {i : Nat} (hi : i < 16) :
    blitterFillBit d inclusive acc i =
      (if acc.2 ^^ d.toNat.testBit i then acc.1 ||| (1 <<< UInt16.ofNat i) else acc.1, acc.2 ^^ d.toNat.testBit i) := by
  unfold blitterFillBit
  rw [uint16_bit_ne_zero d hi]
  cases inclusive <;> cases d.toNat.testBit i <;> cases acc.2 <;> rfl

theorem uint16_testBit_mark (w : UInt16) {i j : Nat} (hi : i < 16) (hj : j < 16) :
    (w ||| (1 <<< UInt16.ofNat i)).toNat.testBit j = (w.toNat.testBit j || decide (i = j)) := by
  have hone : (decide (i ≤ j) && (1 : Nat).testBit (j - i)) = decide (i = j) := by
    rw [← Nat.pow_zero 2, Nat.testBit_two_pow, ← Bool.decide_and, decide_eq_decide]
    omega
  rw [UInt16.toNat_or, Nat.testBit_or, uint16_testBit_shiftLeft 1 (uint16_ofNat_toNat hi) hi hj, UInt16.toNat_one, hone]

theorem wordBit_mark (descending : Bool) (w : UInt16) {n q : Nat} (hn : n < 16) (hq : q < 16) :
    wordBit descending (w ||| (1 <<< UInt16.ofNat (fillOrder descending n))) q =
      (wordBit descending w q || decide (n = q)) := by
  have hsame : decide (fillOrder descending n = fillOrder descending q) = decide (n = q) :=
    decide_eq_decide.2 ⟨fun h => fillOrder_inj hn hq h, fun h => by rw [h]⟩
  unfold wordBit
  rw [uint16_testBit_mark _ (fillOrder_lt descending hn) (fillOrder_lt descending hq), hsame]

/-- The word and the carry after the first `n` bits: the bits met hold the running parity, the others are clear. -/
theorem fillBits (d : UInt16) (carry inclusive descending : Bool) :
    ∀ n ≤ 16, let r := ((List.range n).map (fillOrder descending)).foldl (blitterFillBit d inclusive) (0, carry)
      r.2 = (carry ^^ prefixParity (wordBit descending d) n) ∧
        ∀ q < 16, wordBit descending r.1 q =
          (decide (q < n) && (carry ^^ prefixParity (wordBit descending d) (q + 1)))
  | 0, _ => by
    refine ⟨(Bool.xor_false carry).symm, fun q _ => ?_⟩
    simp [wordBit]
  | n + 1, hn => by
    obtain ⟨hcarry, hbits⟩ := fillBits d carry inclusive descending n (Nat.le_of_succ_le hn)
    have hord := fillOrder_lt descending (show n < 16 by omega)
    simp only [List.range_succ, List.map_append, List.map_cons, List.map_nil, List.foldl_append, List.foldl_cons,
      List.foldl_nil, blitterFillBit_eq d inclusive _ hord, hcarry]
    have hnext : ((carry ^^ prefixParity (wordBit descending d) n) ^^ d.toNat.testBit (fillOrder descending n)) =
        (carry ^^ prefixParity (wordBit descending d) (n + 1)) := Bool.xor_assoc _ _ _
    rw [hnext]
    refine ⟨rfl, fun q hq => ?_⟩
    have hq' := hbits q hq
    by_cases hc : (carry ^^ prefixParity (wordBit descending d) (n + 1)) = true
    · rw [if_pos hc, wordBit_mark descending _ (Nat.lt_of_succ_le hn) hq, hq']
      rcases Nat.lt_trichotomy q n with h | h | h
      · simp [h, Nat.lt_succ_of_lt h, Nat.ne_of_gt h]
      · subst h
        simpa using hc
      · simp [show ¬ q < n by omega, show ¬ q < n + 1 by omega, show ¬ n = q by omega]
    · rw [if_neg hc, hq']
      rcases Nat.lt_trichotomy q n with h | h | h
      · simp [h, Nat.lt_succ_of_lt h]
      · subst h
        simpa using hc
      · simp [show ¬ q < n by omega, show ¬ q < n + 1 by omega]

/-- **One word of fill.** Both modes leave the running parity, and hand on the parity of the word. -/
theorem blitterFillWord_bits (d : UInt16) (carry inclusive descending : Bool) :
    (blitterFillWord d carry inclusive descending).2 = (carry ^^ prefixParity (wordBit descending d) 16) ∧
      ∀ q < 16, wordBit descending (blitterFillWord d carry inclusive descending).1 q =
        (carry ^^ prefixParity (wordBit descending d) (q + 1)) := by
  have horder : (if descending then List.range 16 else (List.range 16).reverse) =
      (List.range 16).map (fillOrder descending) := by
    cases descending <;> rfl
  obtain ⟨hcarry, hbits⟩ := fillBits d carry inclusive descending 16 le_rfl
  unfold blitterFillWord
  rw [horder]
  refine ⟨hcarry, fun q hq => ?_⟩
  rw [hbits q hq, decide_eq_true hq, Bool.true_and]

/-! ## One row -/

/-- Bit `p` of a row of words, in fill order. -/
def rowBit (descending : Bool) (row : Nat → UInt16) (p : Nat) : Bool := wordBit descending (row (p / 16)) (p % 16)

/-- The D word of word `x` of row `y` before the fill: what the loop computes with the fill switched off. -/
def copyUnfilled (cmd : BlitCommand) (mem : ChipRam) (y x : Nat) : UInt16 :=
  (copyWordStep { cmd with fillMode := .none } (UInt32.ofNat x) (copyWordAt cmd mem y x).1
    (copyWordAt cmd mem y x).2).1.lastDdat

/-- The D word of word `x` of row `y`, as the loop publishes it and delays it for its write. -/
def copyFilled (cmd : BlitCommand) (mem : ChipRam) (y x : Nat) : UInt16 := (copyWordAt cmd mem y (x + 1)).1.lastDdat

/-- What area fill is for, over the bits of a row in fill order. Exclusive fill leaves the running parity; inclusive
fill leaves every edge of the outline, and what lies inside. -/
def fillLaw (mode : BlitterFillMode) (carryIn : Bool) (input : Nat → Bool) (p : Nat) : Bool :=
  match mode with
  | .exclusive => carryIn ^^ prefixParity input (p + 1)
  | .inclusive => input p || (carryIn ^^ prefixParity input p)
  | .none => input p

def AreaFilled (cmd : BlitCommand) (mem : ChipRam) (y : Nat) : Prop :=
  ∀ p < 16 * cmd.widthWords.toNat, rowBit cmd.descending (copyFilled cmd mem y) p =
    fillLaw cmd.fillMode cmd.fillCarryIn (rowBit cmd.descending (copyUnfilled cmd mem y)) p

/-- At most one edge in the row, and none when the fill starts switched on: no edge switches the fill off. -/
def NeverCloses (carryIn : Bool) (input : Nat → Bool) (n : Nat) : Prop :=
  ∀ p < n, input p = true → carryIn = false ∧ ∀ q < n, input q = true → q = p

/-- The fill is the last stage of a word: its D word and its carry are those of `blitter_apply_fill`. -/
theorem copyWordStep_fill (cmd : BlitCommand) (x : UInt32) (s : BlitterCopyState) (mem : ChipRam) :
    ((copyWordStep cmd x s mem).1.lastDdat, (copyWordStep cmd x s mem).1.fillCarry) =
      blitterApplyFill cmd (copyWordStep { cmd with fillMode := .none } x s mem).1.lastDdat s.fillCarry := rfl

theorem rowBit_word (descending : Bool) (row : Nat → UInt16) (x : Nat) {q : Nat} (hq : q < 16) :
    rowBit descending row (16 * x + q) = wordBit descending (row x) q := by
  unfold rowBit
  rw [Nat.mul_add_div (by decide), Nat.div_eq_of_lt hq, Nat.mul_add_mod, Nat.mod_eq_of_lt hq, Nat.add_zero]

theorem prefixParity_word (descending : Bool) (row : Nat → UInt16) (x : Nat) {n : Nat} (hn : n ≤ 16) :
    prefixParity (rowBit descending row) (16 * x + n) =
      (prefixParity (rowBit descending row) (16 * x) ^^ prefixParity (wordBit descending (row x)) n) := by
  rw [prefixParity_add]
  congr 1
  exact prefixParity_congr (fun i hi => rowBit_word descending row x (by omega))

section
variable {cmd : BlitCommand} {mem : ChipRam}

theorem blitterApplyFill_on (h : cmd.fillMode ≠ .none) (value : UInt16) (carry : Bool) :
    ∃ inclusive, blitterApplyFill cmd value carry = blitterFillWord value carry inclusive cmd.descending := by
  unfold blitterApplyFill
  cases hm : cmd.fillMode with
  | none => exact absurd hm h
  | inclusive => exact ⟨true, rfl⟩
  | exclusive => exact ⟨false, rfl⟩

/-- What word `x` of a row does to the fill: bits and carry, from the carry before the word. -/
theorem copyFilled_word (h : cmd.fillMode ≠ .none) (mem : ChipRam) (y x : Nat) :
    (copyWordAt cmd mem y (x + 1)).1.fillCarry = ((copyWordAt cmd mem y x).1.fillCarry ^^
        prefixParity (wordBit cmd.descending (copyUnfilled cmd mem y x)) 16) ∧
      ∀ q < 16, wordBit cmd.descending (copyFilled cmd mem y x) q = ((copyWordAt cmd mem y x).1.fillCarry ^^
        prefixParity (wordBit cmd.descending (copyUnfilled cmd mem y x)) (q + 1)) := by
  have hstep := copyWordStep_fill cmd (UInt32.ofNat x) (copyWordAt cmd mem y x).1 (copyWordAt cmd mem y x).2
  obtain ⟨inclusive, hfill⟩ := blitterApplyFill_on h (copyUnfilled cmd mem y x) (copyWordAt cmd mem y x).1.fillCarry
  obtain ⟨hcarry, hbits⟩ :=
    blitterFillWord_bits (copyUnfilled cmd mem y x) (copyWordAt cmd mem y x).1.fillCarry inclusive cmd.descending
  have hpair := hstep.trans hfill
  unfold copyFilled
  rw [copyWordAt_succ]
  refine ⟨(congrArg Prod.snd hpair).trans hcarry, fun q hq => ?_⟩
  rw [← hbits q hq]
  exact congrArg (fun r => wordBit cmd.descending r.1 q) hpair

/-- The carry before a word: the row starts from the carry-in, and every bit passed moves it. -/
theorem copy_fillCarry (h : cmd.fillMode ≠ .none) (mem : ChipRam) (y : Nat) :
    ∀ x, (copyWordAt cmd mem y x).1.fillCarry =
      (cmd.fillCarryIn ^^ prefixParity (rowBit cmd.descending (copyUnfilled cmd mem y)) (16 * x))
  | 0 => (Bool.xor_false _).symm
  | x + 1 => by
    rw [(copyFilled_word h mem y x).1, copy_fillCarry h mem y x, Nat.mul_succ, prefixParity_word _ _ _ le_rfl,
      Bool.xor_assoc]

/-- **A filled row is the running parity of the row**, in either mode. -/
theorem copyFilled_bit (h : cmd.fillMode ≠ .none) (mem : ChipRam) (y p : Nat) :
    rowBit cmd.descending (copyFilled cmd mem y) p =
      (cmd.fillCarryIn ^^ prefixParity (rowBit cmd.descending (copyUnfilled cmd mem y)) (p + 1)) := by
  have hq : p % 16 < 16 := Nat.mod_lt p (by decide)
  have hp : p + 1 = 16 * (p / 16) + (p % 16 + 1) := by omega
  rw [hp, prefixParity_word _ _ _ (by omega), ← Bool.xor_assoc, ← copy_fillCarry h mem y (p / 16)]
  exact (copyFilled_word h mem y (p / 16)).2 (p % 16) hq

end

/-! ## The law -/

/-- If the fill is off at every edge, it stays on after an edge. -/
theorem fill_stays_on {carryIn : Bool} {input : Nat → Bool} {n : Nat}
    (h : ∀ p < n, input p = true → (carryIn ^^ prefixParity input p) = false) {p : Nat} (hin : input p = true) :
    ∀ m, p < m → m ≤ n → (carryIn ^^ prefixParity input m) = true
  | 0, hlt, _ => absurd hlt p.not_lt_zero
  | m + 1, hlt, hle => by
    rw [prefixParity, ← Bool.xor_assoc]
    rcases Nat.lt_succ_iff_lt_or_eq.1 hlt with hpm | rfl
    · have hon := fill_stays_on h hin m hpm (Nat.le_of_succ_le hle)
      cases hm : input m
      · rw [hon, Bool.xor_false]
      · rw [h m hle hm] at hon
        cases hon
    · rw [h p hle hin, hin, Bool.false_xor]

/-- Inclusive fill and the running parity part exactly where an edge is met with the fill on. -/
theorem runningParity_inclusive (carryIn : Bool) (input : Nat → Bool) (n : Nat) :
    (∀ p < n, (carryIn ^^ prefixParity input (p + 1)) = fillLaw .inclusive carryIn input p) ↔
      NeverCloses carryIn input n := by
  have hedge : ∀ p, (carryIn ^^ prefixParity input (p + 1)) = fillLaw .inclusive carryIn input p ↔
      (input p = true → (carryIn ^^ prefixParity input p) = false) := by
    intro p
    simp only [fillLaw, prefixParity]
    cases input p <;> cases carryIn <;> cases prefixParity input p <;> decide
  simp only [hedge]
  constructor
  · intro h p hp hin
    have hone : ∀ i j, i < j → j < n → input i = true → input j = true → False := by
      intro i j hij hj hi hjn
      have hon := fill_stays_on h hi j hij hj.le
      rw [h j hj hjn] at hon
      cases hon
    have hclear : ∀ i < p, input i = false := fun i hi => by
      by_contra hi'
      exact hone i p hi hp (by simpa using hi') hin
    have hc := h p hp hin
    rw [prefixParity_of_clear hclear, Bool.xor_false] at hc
    refine ⟨hc, fun q hq hqn => ?_⟩
    rcases Nat.lt_trichotomy q p with hlt | heq | hgt
    · exact (hone q p hlt hp hqn hin).elim
    · exact heq
    · exact (hone p q hgt hq hin hqn).elim
  · intro h p hp hin
    obtain ⟨hc, hq⟩ := h p hp hin
    rw [hc, Bool.false_xor]
    refine prefixParity_of_clear (fun i hi => ?_)
    by_contra hi'
    have := hq i (by omega) (by simpa using hi')
    omega

/-- **Area fill, and what inclusive mode loses.** In every row of every copy the filled words are those of the law,
exclusive fill always; inclusive fill exactly when no edge of the row switches the fill off. -/
theorem areaFilled_iff (cmd : BlitCommand) (mem : ChipRam) (y : Nat) :
    AreaFilled cmd mem y ↔ (cmd.fillMode = .inclusive →
      NeverCloses cmd.fillCarryIn (rowBit cmd.descending (copyUnfilled cmd mem y)) (16 * cmd.widthWords.toNat)) := by
  unfold AreaFilled
  cases hmode : cmd.fillMode with
  | none =>
    refine ⟨fun _ h => BlitterFillMode.noConfusion h, fun _ p _ => ?_⟩
    have hword : copyFilled cmd mem y (p / 16) = copyUnfilled cmd mem y (p / 16) := by
      unfold copyFilled
      rw [copyWordAt_succ]
      refine (congrArg Prod.fst (copyWordStep_fill ..)).trans ?_
      unfold blitterApplyFill
      rw [hmode]
      rfl
    exact congrArg (wordBit cmd.descending · (p % 16)) hword
  | exclusive =>
    refine ⟨fun _ h => BlitterFillMode.noConfusion h, fun _ p _ => ?_⟩
    exact copyFilled_bit (by rw [hmode]; decide) mem y p
  | inclusive =>
    simp only [copyFilled_bit (show cmd.fillMode ≠ .none by rw [hmode]; decide) mem y, forall_const]
    exact runningParity_inclusive ..

/-- A one-word inclusive fill of `$8001`, two edges, with the carry clear: A is off and supplies the word. -/
def outlineBlit : BlitterState := { blitterInit with
  regs := { blitterInit.regs with
    bltcon0 := 0x01F0, bltcon1 := 0x0008, bltadat := 0x8001, bltdpt := 0x1000, bltsizh := 1, bltsizv := 1 } }

/-- The closing edge is lost: the row's last bit is an edge, and comes out clear. -/
theorem areaFilled_outline : ¬ AreaFilled (blitterBuildCommand outlineBlit).cmd blankRam 0 := by
  intro h
  exact absurd (h 15 (by decide)) (by decide +kernel)

end Rigel
