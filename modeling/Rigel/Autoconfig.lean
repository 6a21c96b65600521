import Rigel.MachineMemory

/-!
# Autoconfig — the boards are configured

The boards of the harness are a configuration chain, Fast RAM before the IDE board. A guest that works through the window at
0xE80000 finds one board after another there and settles each with one write.
-/

namespace Rigel

def autoconfigChain (m : HarnessBus) : List ZorroBoard :=
  (m.fastram.map FastramBoard.toZorroBoard).toList ++ (m.lide.map LideBoard.toZorroBoard).toList

/-- What the boards are, and how long their windows. -/
def boardBytes (m : HarnessBus) : List (Nat → UInt8) :=
  (m.fastram.map fun b => fastramRaw b.size).toList ++ (m.lide.map fun _ => lideRaw).toList

def boardSizes (m : HarnessBus) : List UInt32 :=
  (m.fastram.map FastramBoard.size).toList ++ (m.lide.map fun _ => lideWindowSize).toList

/-! ## The harness as a chain -/

section
variable (m : HarnessBus)

theorem harnessAutoconfigActive_chain : harnessAutoconfigActive m = (autoconfigChain m).any zorroPending := by
  unfold harnessAutoconfigActive autoconfigChain
  cases m.fastram <;> cases m.lide <;> simp [fastramPending, lidePending]

/-- Which board of the harness is next. -/
theorem pending_cases : (∃ b, m.fastram = some b ∧ m.fastram.filter fastramPending = some b ∧ fastramPending b = true) ∨
    m.fastram.filter fastramPending = none ∧
      ((∃ b, m.lide = some b ∧ m.lide.filter lidePending = some b ∧ lidePending b = true) ∨
        m.lide.filter lidePending = none) := by
  cases hfast : m.fastram.filter fastramPending with
  | some b =>
    obtain ⟨hb, hpending⟩ := Option.filter_eq_some_iff.mp hfast
    exact .inl ⟨b, hb, rfl, hpending⟩
  | none =>
    refine .inr ⟨rfl, ?_⟩
    cases hlide : m.lide.filter lidePending with
    | some b =>
      obtain ⟨hb, hpending⟩ := Option.filter_eq_some_iff.mp hlide
      exact .inl ⟨b, hb, rfl, hpending⟩
    | none => exact .inr rfl

/-- A board that is not next is passed over. -/
theorem chain_skip {β : Type*} (f : β → ZorroBoard) {o : Option β} (h : (o.filter fun b => zorroPending (f b)) = none)
    (bs : List ZorroBoard) :
    (∀ w, chainWrite ((o.map f).toList ++ bs) w = (o.map f).toList ++ chainWrite bs w) ∧
      ∀ off, chainRead ((o.map f).toList ++ bs) off = chainRead bs off := by
  cases o with
  | none => exact ⟨fun _ => rfl, fun _ => rfl⟩
  | some b =>
    have hb : zorroPending (f b) = false := by simpa [Option.filter] using h
    simp [chainWrite, chainRead, hb]

theorem harnessAutoconfigRead_chain (addr : UInt32) :
    harnessAutoconfigRead m addr = (chainRead (autoconfigChain m) (addr - zorroAcBase)).getD 0xFF := by
  unfold harnessAutoconfigRead autoconfigChain
  rcases pending_cases m with ⟨b, hb, hfast, hpending⟩ | ⟨hfast, ⟨b, hb, hlide, hpending⟩ | hlide⟩
  · have hfirst : zorroPending b.toZorroBoard = true := hpending
    rw [hfast, hb]
    simp [chainRead, hfirst, fastramAcRead]
  · have hnext : zorroPending b.toZorroBoard = true := hpending
    rw [hfast, hlide, (chain_skip FastramBoard.toZorroBoard hfast _).2, hb]
    simp [chainRead, hnext, lideAcRead]
  · have hend := (chain_skip LideBoard.toZorroBoard hlide []).2 (addr - zorroAcBase)
    rw [List.append_nil] at hend
    rw [hfast, hlide, (chain_skip FastramBoard.toZorroBoard hfast _).2, hend]
    rfl

theorem harnessAutoconfigWrite_chain (addr : UInt32) (value : UInt8) :
    autoconfigChain (harnessAutoconfigWrite m addr value) = chainWrite (autoconfigChain m) (addr - zorroAcBase, value) := by
  unfold harnessAutoconfigWrite autoconfigChain
  rcases pending_cases m with ⟨b, hb, hfast, hpending⟩ | ⟨hfast, ⟨b, hb, hlide, hpending⟩ | hlide⟩
  · have hfirst : zorroPending b.toZorroBoard = true := hpending
    rw [hfast, hb]
    simp [chainWrite, hfirst, fastramAcWrite]
  · have hnext : zorroPending b.toZorroBoard = true := hpending
    rw [hfast, hlide, (chain_skip FastramBoard.toZorroBoard hfast _).1, hb]
    simp [chainWrite, hnext, lideAcWrite]
  · have hend := (chain_skip LideBoard.toZorroBoard hlide []).1 (addr - zorroAcBase, value)
    rw [List.append_nil] at hend
    rw [hfast, hlide, (chain_skip FastramBoard.toZorroBoard hfast _).1, hend]
    simp [chainWrite]

/-- The machine with other configuration registers on its boards. -/
def withZorro (m : HarnessBus) (fastram lide : ZorroBoard) : HarnessBus :=
  { m with
    fastram := m.fastram.map fun b => { b with toZorroBoard := fastram }
    lide := m.lide.map fun b => { b with toZorroBoard := lide } }

theorem withZorro_sizes (fastram lide : ZorroBoard) : boardSizes (withZorro m fastram lide) = boardSizes m := by
  unfold withZorro boardSizes
  cases m.fastram <;> cases m.lide <;> rfl

theorem withZorro_again (fastram lide fastram' lide' : ZorroBoard) :
    withZorro (withZorro m fastram lide) fastram' lide' = withZorro m fastram' lide' := by
  unfold withZorro
  cases m.fastram <;> cases m.lide <;> rfl

/-- A machine has registers already. -/
theorem withZorro_self : ∃ fastram lide, m = withZorro m fastram lide := by
  have hregs : ∀ {β : Type} (f : β → ZorroBoard) (set : β → ZorroBoard → β) (o : Option β), (∀ b, set b (f b) = b) →
      ∃ z, o = o.map fun b => set b z := by
    intro β f set o hset
    cases o with
    | none => exact ⟨zorroCreate fun _ => 0, rfl⟩
    | some b => exact ⟨f b, by rw [Option.map_some, hset]⟩
  obtain ⟨fastram, hfastram⟩ := hregs FastramBoard.toZorroBoard (fun b z => { b with toZorroBoard := z }) m.fastram fun _ => rfl
  obtain ⟨lide, hlide⟩ := hregs LideBoard.toZorroBoard (fun b z => { b with toZorroBoard := z }) m.lide fun _ => rfl
  refine ⟨fastram, lide, ?_⟩
  unfold withZorro
  rw [← hfastram, ← hlide]

/-- A write to the window changes a board's registers alone. -/
theorem harnessAutoconfigWrite_frame (addr : UInt32) (value : UInt8) :
    ∃ fastram lide, harnessAutoconfigWrite m addr value = withZorro m fastram lide := by
  obtain ⟨fastram, lide, hself⟩ := withZorro_self m
  unfold harnessAutoconfigWrite
  rcases pending_cases m with ⟨b, hb, hfast, -⟩ | ⟨hfast, ⟨b, hb, hlide, -⟩ | hlide⟩
  · refine ⟨zorroAcWrite b.toZorroBoard (addr - zorroAcBase) value, lide, ?_⟩
    have hlides : m.lide = m.lide.map fun b => { b with toZorroBoard := lide } := congrArg HarnessBus.lide hself
    rw [hfast]
    simp only [withZorro, ← hlides, hb, Option.map_some, fastramAcWrite]
  · refine ⟨fastram, zorroAcWrite b.toZorroBoard (addr - zorroAcBase) value, ?_⟩
    have hfasts : m.fastram = m.fastram.map fun b => { b with toZorroBoard := fastram } := congrArg HarnessBus.fastram hself
    rw [hfast, hlide]
    simp only [withZorro, ← hfasts, hb, Option.map_some, lideAcWrite]
  · rw [hfast, hlide]
    exact ⟨fastram, lide, hself⟩

theorem harnessOwns_chain (addr : UInt32) : (harnessFastramOwns m addr || harnessLideOwns m addr) =
    ((autoconfigChain m).zip (boardSizes m)).any fun p => zorroOwns p.1 p.2 addr := by
  unfold harnessFastramOwns harnessLideOwns autoconfigChain boardSizes
  cases m.fastram <;> cases m.lide <;> simp [fastramOwns, lideOwns]

end

/-! ## The window -/

/-- No RAM of the host's lies over the window. -/
structure BelowWindow (m : HarnessBus) : Prop where
  chip : m.chipRamSize.toNat ≤ 0xE80000
  slow : m.slowRamSize.toNat ≤ 0x280000

/-- A base that does not put a board of `size` bytes over the window. -/
def ClearOf (size : UInt32) (value : UInt8) : Prop :=
  value.toNat * 0x10000 + size.toNat ≤ 0xE80000 ∨ 0xE90000 ≤ value.toNat * 0x10000

instance (size : UInt32) (value : UInt8) : Decidable (ClearOf size value) := inferInstanceAs (Decidable (_ ∨ _))

theorem window_toNat {off : UInt32} (h : off < zorroAcWindow) : (zorroAcBase + off).toNat = 0xE80000 + off.toNat ∧
    off.toNat < 0x10000 := by
  have hoff : off.toNat < 0x10000 := h
  rw [UInt32.toNat_add, show zorroAcBase.toNat = 0xE80000 from rfl]
  omega

theorem acBase_toNat : ∀ value : UInt8, (value.toUInt32 <<< 16).toNat = value.toNat * 0x10000 :=
  uint8_forall (by decide +kernel)

theorem zorroOwns_pending {b : ZorroBoard} (h : zorroPending b = true) (size addr : UInt32) :
    zorroOwns b size addr = false := by
  simp only [zorroPending, Bool.and_eq_true, Bool.not_eq_true'] at h
  simp [zorroOwns, h.1]

theorem zorroOwns_clear {b : ZorroBoard} {size off : UInt32} {d : UInt32 × UInt8} (hb : zorroPending b = true)
    (hd : d.1 = zorroAcOffBaseHi → ClearOf size d.2) (hoff : off < zorroAcWindow) :
    zorroOwns (zorroAcWrite b d.1 d.2) size (zorroAcBase + off) = false := by
  obtain ⟨haddr, hsmall⟩ := window_toNat hoff
  unfold zorroAcWrite
  split
  · rename_i hbase
    simp only [zorroOwns, Bool.true_and, Bool.and_eq_false_iff, decide_eq_false_iff_not, ge_iff_le, UInt32.le_iff_toNat_le,
      UInt32.lt_iff_toNat_lt, UInt32.toNat_add _ size, acBase_toNat, haddr]
    rcases hd hbase with hbelow | habove
    · exact .inr (by omega)
    · exact .inl (by omega)
  · split
    · exact zorroOwns_pending hb size _
    · exact zorroOwns_pending hb size _

/-- A chain whose boards are all put elsewhere leaves the window alone. -/
theorem decided_clear {off : UInt32} (hoff : off < zorroAcWindow) :
    ∀ {bs : List ZorroBoard}, (∀ b ∈ bs, zorroPending b = true) → ∀ {ds : List (UInt32 × UInt8)} {sizes : List UInt32},
      (∀ q ∈ sizes.zip ds, q.2.1 = zorroAcOffBaseHi → ClearOf q.1 q.2.2) →
      (((decided bs ds).zip sizes).any fun p => zorroOwns p.1 p.2 (zorroAcBase + off)) = false
  | [], _, ds, sizes, _ => by simp [decided]
  | b :: bs, hbs, [], sizes, _ => by
    rw [decided_nil, List.any_eq_false]
    intro p hp
    rw [zorroOwns_pending (hbs p.1 (List.of_mem_zip hp).1)]
    decide
  | b :: bs, hbs, d :: ds, [], _ => by simp
  | b :: bs, hbs, d :: ds, size :: sizes, hclear => by
    obtain ⟨hb, hrest⟩ := List.forall_mem_cons.mp hbs
    rw [List.zip_cons_cons] at hclear
    obtain ⟨hd, hds⟩ := List.forall_mem_cons.mp hclear
    have hcons : decided (b :: bs) (d :: ds) = zorroAcWrite b d.1 d.2 :: decided bs ds := rfl
    rw [hcons, List.zip_cons_cons, List.any_cons, zorroOwns_clear hb hd hoff, decided_clear hoff hrest hds]
    rfl

section
variable {m : HarnessBus} {off : UInt32} (run : Int32)

/-- Where the window is not. -/
theorem window_elsewhere (hm : BelowWindow m) (hoff : off < zorroAcWindow) :
    bus24 (zorroAcBase + off) = zorroAcBase + off ∧ ¬ zorroAcBase + off < m.chipRamSize ∧
      addrInAutoconfig (zorroAcBase + off) = true ∧ addrInCia (zorroAcBase + off) = false ∧
      addrInSlowRam m (zorroAcBase + off) = false ∧ addrInCustom (zorroAcBase + off) = false := by
  obtain ⟨haddr, hsmall⟩ := window_toNat hoff
  have hchip := hm.chip
  have hslow := hm.slow
  refine ⟨UInt32.toNat_inj.mp ?_, ?_, ?_, ?_, ?_, ?_⟩
  · rw [bus24_toNat, haddr]
    omega
  · rw [UInt32.lt_iff_toNat_lt, haddr]
    omega
  · simp only [addrInAutoconfig, Bool.and_eq_true, decide_eq_true_eq, ge_iff_le, UInt32.le_iff_toNat_le, UInt32.lt_iff_toNat_lt,
      haddr]
    exact ⟨Nat.le_add_right _ _, by rw [show (zorroAcBase + zorroAcWindow).toNat = 0xE90000 from rfl]; omega⟩
  · simp only [addrInCia, Bool.and_eq_false_iff, decide_eq_false_iff_not, UInt32.lt_iff_toNat_lt, haddr]
    exact .inr (by rw [show (0xC00000 : UInt32).toNat = 0xC00000 from rfl]; omega)
  · have hend : (harnessSlowRamBase + m.slowRamSize).toNat = 0xC00000 + m.slowRamSize.toNat := by
      rw [UInt32.toNat_add, show harnessSlowRamBase.toNat = 0xC00000 from rfl]
      omega
    simp only [addrInSlowRam, Bool.and_eq_false_iff, decide_eq_false_iff_not, UInt32.lt_iff_toNat_lt, haddr, hend]
    exact .inr (by omega)
  · simp only [addrInCustom, Bool.and_eq_false_iff, decide_eq_false_iff_not, UInt32.lt_iff_toNat_lt, haddr]
    exact .inr (by rw [show (0xE00000 : UInt32).toNat = 0xE00000 from rfl]; omega)

/-- **The decode of the window.** -/
theorem harnessRead8_window (hm : BelowWindow m) (hoff : off < zorroAcWindow)
    (hclear : (harnessFastramOwns m (zorroAcBase + off) || harnessLideOwns m (zorroAcBase + off)) = false)
    (hactive : harnessAutoconfigActive m = true) :
    harnessRead8 m run (zorroAcBase + off) = (m, harnessAutoconfigRead m (zorroAcBase + off)) := by
  obtain ⟨hbus, hchip, hauto, -, -, -⟩ := window_elsewhere hm hoff
  obtain ⟨hfast, hlide⟩ := Bool.or_eq_false_iff.mp hclear
  unfold harnessRead8
  simp only [hbus, hchip, hfast, hlide, hauto, hactive, if_false, if_true, Bool.and_self, Bool.false_eq_true]

/-- Nothing takes a write that no board is there for. -/
theorem harnessAutoconfigWrite_inactive (h : harnessAutoconfigActive m = false) (addr : UInt32) (value : UInt8) :
    harnessAutoconfigWrite m addr value = m := by
  obtain ⟨hfast, hlide⟩ := Bool.or_eq_false_iff.mp h
  unfold harnessAutoconfigWrite
  rcases pending_cases m with ⟨b, hb, -, hpending⟩ | ⟨hnone, ⟨b, hb, -, hpending⟩ | hnone'⟩
  · simp [hb, hpending] at hfast
  · simp [hb, hpending] at hlide
  · rw [hnone, hnone']

theorem harnessWrite8_window (hm : BelowWindow m) (hoff : off < zorroAcWindow)
    (hclear : (harnessFastramOwns m (zorroAcBase + off) || harnessLideOwns m (zorroAcBase + off)) = false) (value : UInt8) :
    harnessWrite8 m run (zorroAcBase + off) value = harnessAutoconfigWrite m (zorroAcBase + off) value := by
  obtain ⟨hbus, hchip, hauto, hcia, hslow, hcustom⟩ := window_elsewhere hm hoff
  obtain ⟨hfast, hlide⟩ := Bool.or_eq_false_iff.mp hclear
  unfold harnessWrite8
  cases hactive : harnessAutoconfigActive m with
  | true => simp only [hbus, hchip, hfast, hlide, hauto, if_false, if_true, Bool.and_self, Bool.false_eq_true]
  | false =>
    rw [harnessAutoconfigWrite_inactive hactive]
    simp only [hbus, hchip, hfast, hlide, hauto, hcia, hslow, hcustom, if_false, Bool.and_false, Bool.false_eq_true]

end

/-! ## The guest's way through it -/

/-- A byte that the CPU writes to the window, at some `m68k_cycles_run`. -/
def configStep (m : HarnessBus) (i : Int32 × UInt32 × UInt8) : HarnessBus := harnessWrite8 m i.1 (zorroAcBase + i.2.1) i.2.2

/-- The writes that settle a board, in order. -/
def decisions (is : List (Int32 × UInt32 × UInt8)) : List (UInt32 × UInt8) := (is.map Prod.snd).filter decides

/-- The machine with the boards settled so far. -/
structure Settled (m : HarnessBus) (ds : List (UInt32 × UInt8)) (s : HarnessBus) : Prop where
  chain : autoconfigChain s = decided ((boardBytes m).map zorroCreate) ds
  sizes : boardSizes s = boardSizes m
  rest : ∃ fastram lide, s = withZorro m fastram lide

section
variable {m s : HarnessBus} {ds : List (UInt32 × UInt8)}

theorem created_pending (bytes : List (Nat → UInt8)) : ∀ b ∈ bytes.map zorroCreate, zorroPending b = true := by
  intro b hb
  obtain ⟨raw, -, rfl⟩ := List.mem_map.mp hb
  rfl

theorem Settled.below (h : Settled m ds s) (hm : BelowWindow m) : BelowWindow s := by
  obtain ⟨fastram, lide, rfl⟩ := h.rest
  exact ⟨hm.chip, hm.slow⟩

/-- The boards that are settled are elsewhere, and the others nowhere. -/
theorem Settled.clear (h : Settled m ds s) {off : UInt32} (hoff : off < zorroAcWindow)
    (hclear : ∀ q ∈ (boardSizes m).zip ds, q.2.1 = zorroAcOffBaseHi → ClearOf q.1 q.2.2) :
    (harnessFastramOwns s (zorroAcBase + off) || harnessLideOwns s (zorroAcBase + off)) = false := by
  rw [harnessOwns_chain, h.chain, h.sizes]
  exact decided_clear hoff (created_pending _) hclear

/-- **One write.** -/
theorem Settled.write (h : Settled m ds s) (hm : BelowWindow m) (hds : ∀ d ∈ ds, decides d = true)
    (hclear : ∀ q ∈ (boardSizes m).zip ds, q.2.1 = zorroAcOffBaseHi → ClearOf q.1 q.2.2) (i : Int32 × UInt32 × UInt8)
    (hoff : i.2.1 < zorroAcWindow) : Settled m (ds ++ if decides i.2 then [i.2] else []) (configStep s i) := by
  have hstep : configStep s i = harnessAutoconfigWrite s (zorroAcBase + i.2.1) i.2.2 :=
    harnessWrite8_window i.1 (h.below hm) hoff (h.clear hoff hclear) i.2.2
  have hback : zorroAcBase + i.2.1 - zorroAcBase = i.2.1 := by rw [UInt32.add_comm, UInt32.add_sub_cancel]
  obtain ⟨fastram, lide, hframe⟩ := harnessAutoconfigWrite_frame s (zorroAcBase + i.2.1) i.2.2
  rw [hstep]
  refine ⟨?_, ?_, ?_⟩
  · rw [harnessAutoconfigWrite_chain, h.chain, hback]
    exact chainWrite_decided (created_pending _) hds i.2
  · rw [hframe, withZorro_sizes, h.sizes]
  · obtain ⟨fastram', lide', rfl⟩ := h.rest
    exact ⟨fastram, lide, hframe.trans (withZorro_again m _ _ _ _)⟩

/-- What is paired with a run is paired with a longer one. -/
theorem mem_zip_append {α β : Type*} {q : α × β} : ∀ {as : List α} {bs : List β}, q ∈ as.zip bs → ∀ cs, q ∈ as.zip (bs ++ cs)
  | [], _, h, _ => by simp at h
  | _ :: _, [], h, _ => by simp at h
  | a :: as, b :: bs, h, cs => by
    rw [List.zip_cons_cons] at h
    rw [List.cons_append, List.zip_cons_cons]
    rcases List.mem_cons.mp h with rfl | h
    · exact List.mem_cons_self
    · exact List.mem_cons_of_mem _ (mem_zip_append h cs)

/-- **A run of writes.** -/
theorem Settled.writes (hm : BelowWindow m) :
    ∀ (is : List (Int32 × UInt32 × UInt8)) {ds : List (UInt32 × UInt8)} {s : HarnessBus}, Settled m ds s → (∀ d ∈ ds, decides d = true) → (∀ i ∈ is, i.2.1 < zorroAcWindow) →
      (∀ q ∈ (boardSizes m).zip (ds ++ decisions is), q.2.1 = zorroAcOffBaseHi → ClearOf q.1 q.2.2) →
      Settled m (ds ++ decisions is) (is.foldl configStep s)
  | [], ds, s, h, _, _, _ => by
    rw [show decisions [] = [] from rfl, List.append_nil]
    exact h
  | i :: is, ds, s, h, hds, hoff, hclear => by
    obtain ⟨hi, his⟩ := List.forall_mem_cons.mp hoff
    have hsplit : ds ++ decisions (i :: is) = (ds ++ if decides i.2 then [i.2] else []) ++ decisions is := by
      unfold decisions
      rw [List.map_cons, List.filter_cons, List.append_assoc]
      split <;> rfl
    have hnow : ∀ q ∈ (boardSizes m).zip ds, q.2.1 = zorroAcOffBaseHi → ClearOf q.1 q.2.2 :=
      fun q hq => hclear q (mem_zip_append hq _)
    have hds' : ∀ d ∈ ds ++ (if decides i.2 then [i.2] else []), decides d = true := by
      intro d hd
      rcases List.mem_append.mp hd with hd | hd
      · exact hds d hd
      · split at hd
        · rw [List.mem_singleton.mp hd]
          assumption
        · cases hd
    rw [hsplit] at hclear ⊢
    exact Settled.writes hm is (h.write hm hds hnow i hi) hds' his hclear

end

/-- The boards before any of it. -/
def Unsettled (m : HarnessBus) : Prop := autoconfigChain m = (boardBytes m).map zorroCreate

/-- **The boards are settled in order.** After any run of writes to the window, by a guest that puts no board over it, the
writes that decide something have gone to the boards in the order of the chain, one each, and nothing in the machine but the
boards' configuration registers has changed; the bytes that the guest reads in the window are the next board's own, and when
there is none left the window is gone. -/
theorem boards_settled {m : HarnessBus} (hm : BelowWindow m) (hfresh : Unsettled m) (is : List (Int32 × UInt32 × UInt8))
    (hwindow : ∀ i ∈ is, i.2.1 < zorroAcWindow)
    (hclear : ∀ q ∈ (boardSizes m).zip (decisions is), q.2.1 = zorroAcOffBaseHi → ClearOf q.1 q.2.2) :
    let s := is.foldl configStep m
    let n := (decisions is).length
    autoconfigChain s = decided ((boardBytes m).map zorroCreate) (decisions is) ∧
      (∃ fastram lide, s = withZorro m fastram lide) ∧
      (∀ bytes, (boardBytes m)[n]? = some bytes →
        ∀ run, ∀ i < zorroAcRomBytes, guestAcByte (fun off => (harnessRead8 s run (zorroAcBase + off)).2) i = bytes i) ∧
      ((boardBytes m).length ≤ n → harnessAutoconfigActive s = false) := by
  intro s n
  have hstart : Settled m [] m := ⟨by rw [hfresh, decided_nil], rfl, withZorro_self m⟩
  have hend : Settled m (decisions is) s := hstart.writes hm is nofun hwindow hclear
  have hdecide : ∀ d ∈ decisions is, decides d = true := fun d hd => (List.mem_filter.mp hd).2
  have hchain : ∀ off, chainRead (autoconfigChain s) off =
      ((boardBytes m)[n]?).map fun bytes => zorroAcRead (zorroCreate bytes) off := by
    intro off
    rw [hend.chain, chainRead_decided (created_pending _) hdecide, List.getElem?_map, Option.map_map]
    rfl
  have hactive : harnessAutoconfigActive s = ((boardBytes m)[n]?).isSome := by
    rw [harnessAutoconfigActive_chain, chain_active _ 0, hchain, Option.isSome_map]
  refine ⟨hend.chain, hend.rest, fun bytes hbytes run i hi => ?_, fun hlen => ?_⟩
  · have hread : ∀ off < zorroAcWindow, (harnessRead8 s run (zorroAcBase + off)).2 = zorroAcRead (zorroCreate bytes) off := by
      intro off hoff
      have hback : zorroAcBase + off - zorroAcBase = off := by rw [UInt32.add_comm, UInt32.add_sub_cancel]
      rw [harnessRead8_window run (hend.below hm) hoff (hend.clear hoff hclear) (by rw [hactive, hbytes]; rfl),
        harnessAutoconfigRead_chain, hchain, hbytes, hback]
      rfl
    have hnibble : ∀ k < 64, UInt32.ofNat k < zorroAcWindow := by decide
    rw [← guestAcByte_build bytes hi]
    exact guestAcByte_congr (fun k hk => hread _ (hnibble k hk)) hi
  · rw [hactive, List.getElem?_eq_none hlen]
    rfl

/-- Two megabytes of Fast RAM and the IDE board, before a guest has seen them. -/
def twoBoards : HarnessBus :=
  { flatMachine with
    fastram := fastramCreate 2
    lide := lideCreate ⟨fun _ => 0, 1⟩ (fun _ => 0) false }

/-- The base of Fast RAM, its low nibble first as a guest does it, and a shut-up for the IDE board. -/
def twoBoardsWrites : List (Int32 × UInt32 × UInt8) := [(0, 0x4A, 0x00), (4, 0x48, 0x20), (8, 0x4C, 0x00)]

/-- Between the two the window shows the IDE board; after them it is gone. -/
theorem twoBoards_settled : (∀ i < zorroAcRomBytes,
      guestAcByte (fun off => (harnessRead8 ((twoBoardsWrites.take 2).foldl configStep twoBoards) 6 (zorroAcBase + off)).2) i =
        lideRaw i) ∧
    harnessAutoconfigActive (twoBoardsWrites.foldl configStep twoBoards) = false := by
  have hbelow : BelowWindow twoBoards := ⟨by decide, by decide⟩
  have hfresh : Unsettled twoBoards := rfl
  have hwindow : ∀ i ∈ twoBoardsWrites, i.2.1 < zorroAcWindow := List.forall_iff_forall_mem.mp (by decide +kernel)
  have hfirst := boards_settled hbelow hfresh (twoBoardsWrites.take 2) (fun i hi => hwindow i (List.mem_of_mem_take hi))
    (List.forall_iff_forall_mem.mp (by decide +kernel))
  have hboth := boards_settled hbelow hfresh twoBoardsWrites hwindow (List.forall_iff_forall_mem.mp (by decide +kernel))
  exact ⟨hfirst.2.2.1 lideRaw rfl 6, hboth.2.2.2 (by decide)⟩

end Rigel
