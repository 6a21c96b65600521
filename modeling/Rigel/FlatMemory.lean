import Rigel.AtaSectors

/-!
# FlatMemory — an array of bytes under big-endian accesses

What a CPU expects of memory: accesses of a byte, a word or a long, whose bytes lie at consecutive addresses of the bus, the
high one first. A machine whose accesses do the same simulates it, run by run. Nothing here knows the machine.
-/

namespace Rigel

inductive MemWidth where
  | byte
  | word
  | long
  deriving Repr, DecidableEq

inductive MemAccess where
  | read (w : MemWidth) (addr : UInt32)
  | write (w : MemWidth) (addr value : UInt32)
  deriving Repr, DecidableEq

def MemAccess.addr : MemAccess → UInt32
  | .read _ addr => addr
  | .write _ addr _ => addr

def MemAccess.width : MemAccess → MemWidth
  | .read w _ => w
  | .write w _ _ => w

/-- Wide accesses are at even addresses. -/
def MemAccess.Aligned (a : MemAccess) : Prop := a.width = .byte ∨ a.addr &&& 1 = 0

instance (a : MemAccess) : Decidable a.Aligned := inferInstanceAs (Decidable (_ ∨ _))

def MemWidth.bytes : MemWidth → Nat
  | .byte => 1
  | .word => 2
  | .long => 4

section
variable (bus : UInt32 → UInt32)

/-- The places that an access reaches. -/
def MemAccess.places (a : MemAccess) : List UInt32 := (List.range a.width.bytes).map fun i => bus (a.addr + UInt32.ofNat i)

def flatWord (mem : UInt32 → UInt8) (addr : UInt32) : UInt16 :=
  (mem (bus addr)).toUInt16 <<< 8 ||| (mem (bus (addr + 1))).toUInt16

def flatPutWord (mem : UInt32 → UInt8) (addr : UInt32) (value : UInt16) : UInt32 → UInt8 :=
  Function.update (Function.update mem (bus addr) (value >>> 8).toUInt8) (bus (addr + 1)) (value &&& 0xFF).toUInt8

/-- What an access answers; a write answers nothing. -/
def flatAnswer (mem : UInt32 → UInt8) : MemAccess → Option UInt32
  | .read .byte addr => some (mem (bus addr)).toUInt32
  | .read .word addr => some (flatWord bus mem addr).toUInt32
  | .read .long addr => some (((flatWord bus mem addr).toUInt32 <<< 16) ||| (flatWord bus mem (addr + 2)).toUInt32)
  | .write _ _ _ => none

def flatAccess (mem : UInt32 → UInt8) : MemAccess → UInt32 → UInt8
  | .read _ _ => mem
  | .write .byte addr value => Function.update mem (bus addr) value.toUInt8
  | .write .word addr value => flatPutWord bus mem addr value.toUInt16
  | .write .long addr value => flatPutWord bus (flatPutWord bus mem addr (value >>> 16).toUInt16) (addr + 2) value.toUInt16

end

/-! ## What is stored is read -/

/-- The part of a value that an access has room for. -/
def MemWidth.part : MemWidth → UInt32 → UInt32
  | .byte, value => value.toUInt8.toUInt32
  | .word, value => value.toUInt16.toUInt32
  | .long, value => value

section
variable {bus : UInt32 → UInt32} {mem mem' : UInt32 → UInt8}

/-- The bytes of an access by their addresses. -/
theorem places_eq (a : MemAccess) : a.places bus = match a.width with
    | .byte => [bus a.addr]
    | .word => [bus a.addr, bus (a.addr + 1)]
    | .long => [bus a.addr, bus (a.addr + 1), bus (a.addr + 2), bus (a.addr + 2 + 1)] := by
  have hthree : a.addr + 2 + 1 = a.addr + 3 := UInt32.add_assoc _ _ _
  have hzero : a.addr + UInt32.ofNat 0 = a.addr := UInt32.add_zero _
  unfold MemAccess.places
  cases a.width with
  | byte =>
    rw [show List.range MemWidth.byte.bytes = [0] from rfl, List.map_cons, hzero]
    rfl
  | word =>
    rw [show List.range MemWidth.word.bytes = [0, 1] from rfl, List.map_cons, hzero]
    rfl
  | long =>
    rw [show List.range MemWidth.long.bytes = [0, 1, 2, 3] from rfl, List.map_cons, hzero]
    simp only [hthree]
    rfl

theorem flatPutWord_frame {addr p : UInt32} (h : p ∉ [bus addr, bus (addr + 1)]) (value : UInt16) :
    flatPutWord bus mem addr value p = mem p := by
  simp only [List.mem_cons, List.not_mem_nil, or_false, not_or] at h
  rw [flatPutWord, Function.update_of_ne h.2, Function.update_of_ne h.1]

/-- **An access leaves the other bytes alone.** -/
theorem flatAccess_frame {a : MemAccess} {p : UInt32} (h : p ∉ a.places bus) : flatAccess bus mem a p = mem p := by
  rw [places_eq] at h
  cases a with
  | read w addr => rfl
  | write w addr value =>
    cases w with
    | byte => exact Function.update_of_ne (List.ne_of_not_mem_cons h) _ _
    | word => exact flatPutWord_frame h _
    | long =>
      simp only [MemAccess.width, MemAccess.addr, List.mem_cons, List.not_mem_nil, or_false, not_or] at h
      obtain ⟨h0, h1, h2, h3⟩ := h
      exact (flatPutWord_frame (by simp [h2, h3]) _).trans (flatPutWord_frame (by simp [h0, h1]) _)

/-- An answer depends on the bytes of its access alone. -/
theorem flatAnswer_congr {a : MemAccess} (h : ∀ p ∈ a.places bus, mem p = mem' p) :
    flatAnswer bus mem a = flatAnswer bus mem' a := by
  rw [places_eq] at h
  cases a with
  | write w addr value => rfl
  | read w addr =>
    cases w <;> simp_all [flatAnswer, flatWord, MemAccess.width, MemAccess.addr]

/-- An access that is elsewhere does not change an answer. -/
theorem flatAnswer_frame {w r : MemAccess} (h : ∀ p ∈ r.places bus, p ∉ w.places bus) :
    flatAnswer bus (flatAccess bus mem w) r = flatAnswer bus mem r :=
  flatAnswer_congr fun p hp => flatAccess_frame (h p hp)

theorem flatWord_putWord {addr : UInt32} (h : bus addr ≠ bus (addr + 1)) (value : UInt16) :
    flatWord bus (flatPutWord bus mem addr value) addr = value := by
  rw [flatWord, flatPutWord, Function.update_self, Function.update_of_ne h, Function.update_self, word_bytes]

theorem flatWord_putWord_of_ne {addr addr' : UInt32} (h : bus addr ∉ [bus addr', bus (addr' + 1)])
    (h' : bus (addr + 1) ∉ [bus addr', bus (addr' + 1)]) (value : UInt16) :
    flatWord bus (flatPutWord bus mem addr' value) addr = flatWord bus mem addr := by
  rw [flatWord, flatPutWord_frame h, flatPutWord_frame h', flatWord]

theorem words_join (v : UInt32) : ((v >>> 16).toUInt16.toUInt32 <<< 16) ||| v.toUInt16.toUInt32 = v := by
  have hv := v.toNat_lt
  have hlow : v.toNat % 2 ^ 16 < 2 ^ 16 := Nat.mod_lt _ (by decide)
  have hhigh : (v >>> 16).toUInt16.toNat = v.toNat / 2 ^ 16 := by
    rw [UInt32.toNat_toUInt16, UInt32.toNat_shiftRight, show (16 : UInt32).toNat % 32 = 16 from rfl, Nat.shiftRight_eq_div_pow]
    omega
  refine UInt32.toNat_inj.mp ?_
  rw [UInt32.toNat_or, UInt32.toNat_shiftLeft, UInt16.toNat_toUInt32, UInt16.toNat_toUInt32, hhigh, UInt32.toNat_toUInt16,
    show (16 : UInt32).toNat % 32 = 16 from rfl, Nat.mod_eq_of_lt (by rw [Nat.shiftLeft_eq]; omega),
    ← Nat.shiftLeft_add_eq_or_of_lt hlow, Nat.shiftLeft_eq]
  omega

/-- **What is stored is read**, as far as there is room for it. -/
theorem flatAnswer_stored {w : MemWidth} {addr : UInt32} (value : UInt32) (h : (MemAccess.places bus (.read w addr)).Nodup) :
    flatAnswer bus (flatAccess bus mem (.write w addr value)) (.read w addr) = some (w.part value) := by
  rw [places_eq] at h
  cases w with
  | byte =>
    rw [flatAnswer, flatAccess, Function.update_self]
    rfl
  | word =>
    simp only [MemAccess.width, MemAccess.addr, List.nodup_cons, List.mem_cons, List.not_mem_nil, or_false] at h
    rw [flatAnswer, flatAccess, flatWord_putWord h.1]
    rfl
  | long =>
    simp only [MemAccess.width, MemAccess.addr, List.nodup_cons, List.mem_cons, List.not_mem_nil, or_false, not_or] at h
    obtain ⟨⟨h01, h02, h03⟩, ⟨h12, h13⟩, h23, -⟩ := h
    have hhigh : flatWord bus (flatPutWord bus (flatPutWord bus mem addr (value >>> 16).toUInt16) (addr + 2) value.toUInt16)
        addr = (value >>> 16).toUInt16 := by
      rw [flatWord_putWord_of_ne (by simp [h02, h03]) (by simp [h12, h13]), flatWord_putWord h01]
    rw [flatAnswer, flatAccess, hhigh, flatWord_putWord h23, words_join]
    rfl

end

/-- **A simulation, run by run.** Two machines whose related states answer an input alike, and are related after it, answer a
run alike. -/
theorem collectAlong_simulates {σ τ ι β : Type*} {step : σ → ι → σ} {step' : τ → ι → τ} {f : σ → ι → Option β}
    {f' : τ → ι → Option β} {R : σ → τ → Prop} {P : ι → Prop}
    (h : ∀ s t i, R s t → P i → f s i = f' t i ∧ R (step s i) (step' t i)) :
    ∀ (is : List ι) (s : σ) (t : τ), R s t → (∀ i ∈ is, P i) →
      collectAlong step f s is = collectAlong step' f' t is ∧ R (is.foldl step s) (is.foldl step' t)
  | [], _, _, hr, _ => ⟨rfl, hr⟩
  | i :: is, s, t, hr, hp => by
    obtain ⟨hi, his⟩ := List.forall_mem_cons.mp hp
    obtain ⟨hanswer, hnext⟩ := h s t i hr hi
    obtain ⟨hrest, hend⟩ := collectAlong_simulates h is _ _ hnext his
    exact ⟨by rw [collectAlong, collectAlong, hanswer, hrest], hend⟩

end Rigel
