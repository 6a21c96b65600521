import Rigel.Tod

/-!
# TodSet — setting the time of day byte by byte

A write to a byte of the counter stops it, and the write of the low byte starts it again, so that the guest may set the
time in three writes. The E-clock path asks whether the counter is stopped. The pulses of the beam do not, so that the
set is atomic exactly when none of them comes between the writes.
-/

namespace Rigel

/-- What may move a TOD counter between two writes of the guest: a pulse of the beam, or ticks of the E-clock. -/
inductive TodEvent where
  | pulse
  | ticks (n : UInt64)
  deriving Repr, DecidableEq

def todEvent (b : CiaBus) : TodEvent → CiaBus
  | .pulse => ciaTodPulse b 1
  | .ticks n => ciaTodStep b n

def todEvents (b : CiaBus) (es : List TodEvent) : CiaBus := es.foldl todEvent b

/-- A call with several pulses is that many pulses. -/
theorem ciaTodPulse_events (b : CiaBus) (pulses : UInt32) :
    ciaTodPulse b pulses = todEvents b (List.replicate pulses.toNat .pulse) := by
  unfold ciaTodPulse ciaTodIncrement todEvents
  generalize pulses.toNat = n
  induction n generalizing b with
  | zero => rfl
  | succ n ih =>
    rw [Function.iterate_succ_apply, ih, List.replicate_succ, List.foldl_cons]
    rfl

/-! ## The set -/

def todHigh (b : CiaBus) (high : UInt8) : CiaBus := ciaWriteReg b 0xA high

/-- TODHI, what comes after it, and TODMID. -/
def todMid (b : CiaBus) (high mid : UInt8) (es : List TodEvent) : CiaBus :=
  ciaWriteReg (todEvents (todHigh b high) es) 0x9 mid

/-- And what comes after that, and TODLO. -/
def todLow (b : CiaBus) (high mid low : UInt8) (es es' : List TodEvent) : CiaBus :=
  ciaWriteReg (todEvents (todMid b high mid es) es') 0x8 low

/-- **The set is atomic**: between the writes the counter stays as the last of them left it, the last one makes it the value
written, and no alarm comes of it. -/
structure TodSetAtomic (b : CiaBus) (high mid low : UInt8) (es es' : List TodEvent) : Prop where
  afterHigh : ∀ pre, pre <+: es → (todEvents (todHigh b high) pre).cia.tod.counter = (todHigh b high).cia.tod.counter
  afterMid : ∀ pre, pre <+: es' →
    (todEvents (todMid b high mid es) pre).cia.tod.counter = (todMid b high mid es).cia.tod.counter
  value : (todLow b high mid low es es').cia.tod.counter = (high.toUInt32 <<< 16) ||| (mid.toUInt32 <<< 8) ||| low.toUInt32
  quiet : (todLow b high mid low es es').cia.icrData = b.cia.icrData ∧ (todLow b high mid low es es').irq = b.irq

theorem todHigh_eq {b : CiaBus} (h : b.cia.crb &&& 0x80 = 0) (high : UInt8) : todHigh b high =
    { b with cia := { b.cia with tod := { b.cia.tod with counter := todByte b.cia.tod.counter 0xA high, stopped := true } } } := by
  show { b with cia := ciaTodWrite b.cia 0xA high } = _
  unfold ciaTodWrite
  rw [if_neg (fun hne => hne h)]
  rfl

/-- A counter that stands still but for its pulses. -/
theorem todEvent_stopped {b : CiaBus} (h : b.cia.tod.stopped = true) {e : TodEvent} (he : e ≠ .pulse) :
    todEvent b e = b := by
  cases e with
  | pulse => exact absurd rfl he
  | ticks n =>
    show ciaTodStep b n = b
    unfold ciaTodStep
    rw [if_pos (Or.inr (Or.inr h))]

theorem todEvents_stopped {b : CiaBus} (h : b.cia.tod.stopped = true) : ∀ {es : List TodEvent}, TodEvent.pulse ∉ es →
    todEvents b es = b
  | [], _ => rfl
  | e :: es, hes => by
    rw [List.mem_cons, not_or] at hes
    show todEvents (todEvent b e) es = b
    rw [todEvent_stopped h (Ne.symm hes.1)]
    exact todEvents_stopped h hes.2

theorem todPulse_moves (b : CiaBus) : (todEvent b .pulse).cia.tod.counter ≠ b.cia.tod.counter := by
  have hmask : ∀ c : UInt32, ((c + 1) &&& 0x00FFFFFF).toNat = (c.toNat + 1) % 2 ^ 32 % 2 ^ 24 := by
    intro c
    rw [UInt32.toNat_and, UInt32.toNat_add]
    exact Nat.and_two_pow_sub_one_eq_mod _ 24
  intro heq
  have hcount : (todEvent b .pulse).cia.tod.counter = (b.cia.tod.counter + 1) &&& 0x00FFFFFF :=
    congrArg CiaTodState.counter (ciaTodTick_tod b)
  have hnat := congrArg UInt32.toNat (hcount.symm.trans heq)
  rw [hmask] at hnat
  have hlt := b.cia.tod.counter.toNat_lt
  omega

/-- Between two writes the counter stands exactly when no pulse comes. -/
theorem todEvents_still_iff {b : CiaBus} (h : b.cia.tod.stopped = true) (es : List TodEvent) :
    (∀ pre, pre <+: es → (todEvents b pre).cia.tod.counter = b.cia.tod.counter) ↔ TodEvent.pulse ∉ es := by
  constructor
  · intro hstill hmem
    obtain ⟨pre, post, hsplit, hfirst⟩ := List.eq_append_cons_of_mem hmem
    have hprefix : pre ++ [TodEvent.pulse] <+: es := ⟨post, by rw [hsplit, List.append_assoc]; rfl⟩
    have hlast := hstill _ hprefix
    rw [todEvents, List.foldl_append] at hlast
    change (todEvent (todEvents b pre) .pulse).cia.tod.counter = _ at hlast
    rw [todEvents_stopped h hfirst] at hlast
    exact todPulse_moves b hlast
  · rintro hnone pre ⟨post, rfl⟩
    rw [todEvents_stopped h fun hmem => hnone (List.mem_append_left post hmem)]

/-- Three bytes written one by one are the value. -/
theorem todByte_all (c : UInt32) (high mid low : UInt8) :
    todByte (todByte (todByte c 0xA high) 0x9 mid) 0x8 low =
      (high.toUInt32 <<< 16) ||| (mid.toUInt32 <<< 8) ||| low.toUInt32 := by
  have hhigh : (high.toUInt32 <<< 16) &&& (0xFF0000 : UInt32) = high.toUInt32 <<< 16 :=
    uint8_forall (P := fun h => (h.toUInt32 <<< 16) &&& (0xFF0000 : UInt32) = h.toUInt32 <<< 16) (by decide +kernel) high
  have hmid : (mid.toUInt32 <<< 8) &&& (0xFFFF00 : UInt32) = mid.toUInt32 <<< 8 :=
    uint8_forall (P := fun m => (m.toUInt32 <<< 8) &&& (0xFFFF00 : UInt32) = m.toUInt32 <<< 8) (by decide +kernel) mid
  have hkeep : (0xFF00FF : UInt32) &&& 0xFFFF00 = 0xFF0000 := rfl
  have hdrop : (0x00FFFF : UInt32) &&& 0xFF0000 = 0 := rfl
  show ((((c &&& (0x00FFFF : UInt32)) ||| (high.toUInt32 <<< 16)) &&& (0xFF00FF : UInt32)) ||| (mid.toUInt32 <<< 8)) &&&
    (0xFFFF00 : UInt32) ||| low.toUInt32 = _
  rw [uint32_or_and_distrib, UInt32.and_assoc, hkeep, uint32_or_and_distrib, UInt32.and_assoc, hdrop, hhigh, hmid,
    UInt32.and_zero, UInt32.zero_or]

theorem todMid_eq {b : CiaBus} (h : b.cia.crb &&& 0x80 = 0) (high mid : UInt8) {es : List TodEvent}
    (hes : TodEvent.pulse ∉ es) : todMid b high mid es = { b with cia := { b.cia with tod := { b.cia.tod with
      counter := todByte (todByte b.cia.tod.counter 0xA high) 0x9 mid, stopped := true } } } := by
  unfold todMid
  rw [todHigh_eq h, todEvents_stopped rfl hes]
  show { b with cia := ciaTodWrite _ 0x9 mid } = _
  unfold ciaTodWrite
  rw [if_neg (fun hne => hne h)]
  rfl

theorem todLow_eq {b : CiaBus} (h : b.cia.crb &&& 0x80 = 0) (high mid low : UInt8) {es es' : List TodEvent}
    (hes : TodEvent.pulse ∉ es) (hes' : TodEvent.pulse ∉ es') :
    todLow b high mid low es es' = { b with cia := { b.cia with tod := { b.cia.tod with
      counter := todByte (todByte (todByte b.cia.tod.counter 0xA high) 0x9 mid) 0x8 low, stopped := false } } } := by
  unfold todLow
  rw [todMid_eq h high mid hes, todEvents_stopped rfl hes']
  show { b with cia := ciaTodWrite _ 0x8 low } = _
  unfold ciaTodWrite
  rw [if_neg (fun hne => hne h)]
  rfl

/-- **When the set is atomic**, whatever the state and the value: exactly when no pulse comes between the writes. -/
theorem todSetAtomic_iff {b : CiaBus} (h : b.cia.crb &&& 0x80 = 0) (high mid low : UInt8) (es es' : List TodEvent) :
    TodSetAtomic b high mid low es es' ↔ TodEvent.pulse ∉ es ∧ TodEvent.pulse ∉ es' := by
  have hhigh : (todHigh b high).cia.tod.stopped = true := by rw [todHigh_eq h]
  constructor
  · intro hset
    have hes := (todEvents_still_iff hhigh es).mp hset.afterHigh
    have hmid : (todMid b high mid es).cia.tod.stopped = true := by rw [todMid_eq h high mid hes]
    exact ⟨hes, (todEvents_still_iff hmid es').mp hset.afterMid⟩
  · rintro ⟨hes, hes'⟩
    have hmid : (todMid b high mid es).cia.tod.stopped = true := by rw [todMid_eq h high mid hes]
    refine ⟨(todEvents_still_iff hhigh es).mpr hes, (todEvents_still_iff hmid es').mpr hes', ?_, ?_⟩
    · rw [todLow_eq h high mid low hes hes']
      exact todByte_all _ _ _ _
    · rw [todLow_eq h high mid low hes hes']
      exact ⟨rfl, rfl⟩

/-- A CIA just reset. -/
def freshCia : CiaBus := ⟨ciaInit .portB, interruptReset⟩

theorem todSetAtomic_fresh : TodSetAtomic freshCia 0x01 0x02 0x03 [.ticks 7] [] ↔
    TodEvent.pulse ∉ [TodEvent.ticks 7] ∧ TodEvent.pulse ∉ ([] : List TodEvent) :=
  todSetAtomic_iff (by decide) 0x01 0x02 0x03 [.ticks 7] []

/-- A line ends between the first two writes. -/
theorem todSetAtomic_pulse : ¬ TodSetAtomic freshCia 0x01 0x02 0x03 [.pulse] [] :=
  fun h => absurd (h.afterHigh [.pulse] (List.prefix_refl _)) (by decide)

end Rigel
