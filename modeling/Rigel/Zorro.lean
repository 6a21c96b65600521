import Rigel.AtaIde

/-!
# Zorro — the configuration window

`zorro.c`, and what `fastram.c` and `lide.c` do alike in the window at 0xE80000. A board shows sixteen bytes there, a nibble at
a time and complemented but for the first, until it is given a base or told to shut up; the boards are in a chain, of which the
first that is still pending answers.
-/

namespace Rigel

def zorroAcBase : UInt32 := 0xE80000
def zorroAcWindow : UInt32 := 0x010000
def zorroAcRomBytes : Nat := 16
def zorroAcDataSize : UInt32 := 64
def zorroAcOffBaseHi : UInt32 := 0x48
def zorroAcOffShutup : UInt32 := 0x4C

/-- `zorro_autoconfig_build`. -/
def zorroAutoconfigBuild (bytes : Nat → UInt8) (i : Nat) : UInt8 :=
  let b := if i / 4 = 0 then bytes 0 else ~~~bytes (i / 4)
  if i % 4 = 0 then b &&& 0xF0 else if i % 4 = 2 then (b &&& 0x0F) <<< 4 else 0

/-- What both boards keep for the window. -/
structure ZorroBoard where
  config : Nat → UInt8
  configured : Bool
  shutup : Bool
  base : UInt32

def zorroCreate (bytes : Nat → UInt8) : ZorroBoard := ⟨zorroAutoconfigBuild bytes, false, false, 0⟩

def zorroPending (b : ZorroBoard) : Bool := !b.configured && !b.shutup

def zorroAcRead (b : ZorroBoard) (off : UInt32) : UInt8 := if off ≥ zorroAcDataSize then 0xFF else b.config off.toNat

def zorroAcWrite (b : ZorroBoard) (off : UInt32) (value : UInt8) : ZorroBoard :=
  if off = zorroAcOffBaseHi then { b with base := value.toUInt32 <<< 16, configured := true }
  else if off = zorroAcOffShutup then { b with shutup := true }
  else b

/-- The window of a board of `size` bytes. -/
def zorroOwns (b : ZorroBoard) (size addr : UInt32) : Bool := b.configured && addr ≥ b.base && addr < b.base + size

/-! ## The bytes -/

/-- A byte as a guest puts it together from two nibbles. All but the first are read complemented. -/
def guestAcByte (read : UInt32 → UInt8) (i : Nat) : UInt8 :=
  let b := (read (UInt32.ofNat (4 * i)) &&& (0xF0 : UInt8)) ||| (read (UInt32.ofNat (4 * i + 2)) >>> 4)
  if i = 0 then b else ~~~b

/-- It takes no more than the sixty-four offsets of the image. -/
theorem guestAcByte_congr {f g : UInt32 → UInt8} (h : ∀ k < 64, f (UInt32.ofNat k) = g (UInt32.ofNat k)) {i : Nat}
    (hi : i < zorroAcRomBytes) : guestAcByte f i = guestAcByte g i := by
  have hsixteen : zorroAcRomBytes = 16 := rfl
  unfold guestAcByte
  rw [h (4 * i) (by omega), h (4 * i + 2) (by omega)]

/-- The two nibbles of a byte as the window shows them. -/
def nibblesJoined (b : UInt8) : UInt8 := (b &&& (0xF0 : UInt8) &&& (0xF0 : UInt8)) ||| ((b &&& (0x0F : UInt8)) <<< 4 >>> 4)

theorem nibbles_join (b : UInt8) : nibblesJoined b = b := by
  have hall : ∀ n < 256, nibblesJoined (UInt8.ofNat n) = UInt8.ofNat n := by decide +kernel
  have hb := hall b.toNat b.toNat_lt
  rw [UInt8.ofNat_toNat] at hb
  exact hb

/-- **The guest reads the bytes that the board was built with.** -/
theorem guestAcByte_build (bytes : Nat → UInt8) {i : Nat} (hi : i < zorroAcRomBytes) :
    guestAcByte (zorroAcRead (zorroCreate bytes)) i = bytes i := by
  have hsixteen : zorroAcRomBytes = 16 := rfl
  have hsize : zorroAcDataSize.toNat = 64 := rfl
  have hread : ∀ k < 64, zorroAcRead (zorroCreate bytes) (UInt32.ofNat k) = zorroAutoconfigBuild bytes k := by
    intro k hk
    have hnat : (UInt32.ofNat k).toNat = k := UInt32.toNat_ofNat_of_lt' (Nat.lt_trans hk (by decide))
    rw [zorroAcRead, if_neg (by rw [ge_iff_le, UInt32.le_iff_toNat_le, hnat, hsize]; omega), hnat]
    rfl
  have hhigh : 4 * i / 4 = i ∧ 4 * i % 4 = 0 := by omega
  have hlow : (4 * i + 2) / 4 = i ∧ ¬ (4 * i + 2) % 4 = 0 ∧ (4 * i + 2) % 4 = 2 := by omega
  have hstored : guestAcByte (zorroAcRead (zorroCreate bytes)) i =
      if i = 0 then nibblesJoined (if i = 0 then bytes 0 else ~~~bytes i)
      else ~~~nibblesJoined (if i = 0 then bytes 0 else ~~~bytes i) := by
    unfold guestAcByte
    rw [hread _ (by omega), hread _ (by omega)]
    unfold zorroAutoconfigBuild
    simp only [hhigh.1, hhigh.2, hlow.1, hlow.2.2, if_true]
    rfl
  rw [hstored, nibbles_join]
  by_cases hzero : i = 0
  · rw [if_pos hzero, if_pos hzero, hzero]
  · rw [if_neg hzero, if_neg hzero, UInt8.not_not]

/-! ## The chain -/

/-- A write to the window that decides what becomes of a board. -/
def decides (w : UInt32 × UInt8) : Bool := w.1 = zorroAcOffBaseHi || w.1 = zorroAcOffShutup

/-- The first board that is pending takes the write. -/
def chainWrite : List ZorroBoard → UInt32 × UInt8 → List ZorroBoard
  | [], _ => []
  | b :: bs, w => if zorroPending b then zorroAcWrite b w.1 w.2 :: bs else b :: chainWrite bs w

/-- It is the one that answers, too. -/
def chainRead (bs : List ZorroBoard) (off : UInt32) : Option UInt8 := (bs.find? zorroPending).map fun b => zorroAcRead b off

theorem chain_active (bs : List ZorroBoard) (off : UInt32) : bs.any zorroPending = (chainRead bs off).isSome := by
  rw [chainRead, Option.isSome_map, List.isSome_find?]

theorem zorroAcWrite_decides {b : ZorroBoard} {w : UInt32 × UInt8} (h : decides w = true) :
    zorroPending (zorroAcWrite b w.1 w.2) = false := by
  unfold decides at h
  unfold zorroAcWrite
  split
  · rfl
  · rename_i hbase
    rw [if_pos (by simpa [hbase] using h)]
    simp [zorroPending]

theorem zorroAcWrite_idle {b : ZorroBoard} {w : UInt32 × UInt8} (h : decides w = false) : zorroAcWrite b w.1 w.2 = b := by
  simp only [decides, Bool.or_eq_false_iff, decide_eq_false_iff_not] at h
  rw [zorroAcWrite, if_neg h.1, if_neg h.2]

/-- The chain after some deciding writes: a board for each, and then the boards that are still as they were. -/
def decided (bs : List ZorroBoard) (ds : List (UInt32 × UInt8)) : List ZorroBoard :=
  List.zipWith (fun b d => zorroAcWrite b d.1 d.2) bs ds ++ bs.drop ds.length

theorem decided_nil (bs : List ZorroBoard) : decided bs [] = bs := by
  cases bs <;> rfl

/-- One more write. -/
theorem chainWrite_decided : ∀ {bs : List ZorroBoard}, (∀ b ∈ bs, zorroPending b = true) → ∀ {ds : List (UInt32 × UInt8)},
    (∀ d ∈ ds, decides d = true) → ∀ w, chainWrite (decided bs ds) w = decided bs (ds ++ if decides w then [w] else [])
  | [], _, ds, _, w => by
    simp [decided, chainWrite]
  | b :: bs, hbs, [], _, w => by
    have hb := (List.forall_mem_cons.mp hbs).1
    have hone : decided (b :: bs) [w] = zorroAcWrite b w.1 w.2 :: bs := by simp [decided]
    rw [decided_nil, chainWrite, if_pos hb, List.nil_append]
    cases hw : decides w with
    | true => exact hone.symm
    | false =>
      rw [zorroAcWrite_idle hw]
      rfl
  | b :: bs, hbs, d :: ds, hds, w => by
    obtain ⟨-, hrest⟩ := List.forall_mem_cons.mp hbs
    obtain ⟨hd, hds'⟩ := List.forall_mem_cons.mp hds
    have ih := chainWrite_decided hrest hds' w
    have hcons : decided (b :: bs) (d :: ds) = zorroAcWrite b d.1 d.2 :: decided bs ds := rfl
    rw [hcons, chainWrite, if_neg (by rw [zorroAcWrite_decides hd]; decide), ih]
    rfl

/-- **Deciding writes go down the chain**, one board each, and no other write does anything. -/
theorem chainWrite_run {bs : List ZorroBoard} (hbs : ∀ b ∈ bs, zorroPending b = true) :
    ∀ (ws ds : List (UInt32 × UInt8)), (∀ d ∈ ds, decides d = true) →
      ws.foldl chainWrite (decided bs ds) = decided bs (ds ++ ws.filter decides)
  | [], ds, _ => by
    rw [List.filter_nil, List.append_nil]
    rfl
  | w :: ws, ds, hds => by
    rw [List.foldl_cons, chainWrite_decided hbs hds]
    cases hw : decides w with
    | true =>
      have hnext : ∀ d ∈ ds ++ [w], decides d = true := by
        intro d hd
        rcases List.mem_append.mp hd with hd | hd
        · exact hds d hd
        · rw [List.mem_singleton.mp hd]
          exact hw
      rw [if_pos rfl, chainWrite_run hbs ws _ hnext, List.filter_cons_of_pos hw, List.append_assoc]
      rfl
    | false =>
      rw [if_neg (by decide), List.append_nil, chainWrite_run hbs ws ds hds, List.filter_cons_of_neg (by simp [hw])]

/-- **The board that answers** is the one after those that have been decided. -/
theorem chainRead_decided : ∀ {bs : List ZorroBoard}, (∀ b ∈ bs, zorroPending b = true) → ∀ {ds : List (UInt32 × UInt8)},
    (∀ d ∈ ds, decides d = true) → ∀ off, chainRead (decided bs ds) off = (bs[ds.length]?).map fun b => zorroAcRead b off
  | [], _, ds, _, _ => by
    simp [decided, chainRead]
  | b :: bs, hbs, [], _, off => by
    have hb := (List.forall_mem_cons.mp hbs).1
    rw [decided_nil, chainRead, List.find?_cons_of_pos hb]
    rfl
  | b :: bs, hbs, d :: ds, hds, off => by
    obtain ⟨-, hrest⟩ := List.forall_mem_cons.mp hbs
    obtain ⟨hd, hds'⟩ := List.forall_mem_cons.mp hds
    have ih := chainRead_decided hrest hds' off
    have hcons : decided (b :: bs) (d :: ds) = zorroAcWrite b d.1 d.2 :: decided bs ds := rfl
    rw [chainRead, hcons, List.find?_cons_of_neg (by rw [zorroAcWrite_decides hd]; decide)]
    exact ih

end Rigel
