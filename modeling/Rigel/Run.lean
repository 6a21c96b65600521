import Mathlib.Data.List.Basic

/-!
# Run — conditions and invariants along a run

A machine is a step function over states and inputs, and a run is a list of inputs. `AlongRun step P s is` says that
every input of the run satisfies `P` at the state it meets. A trace is the states of a machine over time, and `traceSum`
adds up what each of its steps contributes. A ledger is a list of entries, and `settled` is how a thing stands after it: as
the last entry that sets it left it, and as before if none does. Nothing here knows what the machine is.
-/

namespace Rigel

section
variable {σ ι : Type*} {step : σ → ι → σ}

/-- Every input of the run satisfies `P` at the state it meets. -/
def AlongRun (step : σ → ι → σ) (P : σ → ι → Prop) : σ → List ι → Prop
  | _, [] => True
  | s, i :: is => P s i ∧ AlongRun step P (step s i) is

/-- **An invariant that each good input preserves holds after a run of good inputs.** -/
theorem AlongRun.invariant {P : σ → ι → Prop} (Inv : σ → Prop)
    (hstep : ∀ s i, Inv s → P s i → Inv (step s i)) :
    ∀ (is : List ι) (s : σ), Inv s → AlongRun step P s is → Inv (is.foldl step s)
  | [], _, hs, _ => hs
  | i :: is, s, hs, hrun => AlongRun.invariant Inv hstep is (step s i) (hstep s i hs hrun.1) hrun.2

theorem AlongRun.last {P : σ → ι → Prop} : ∀ {is : List ι} {s : σ} {i : ι}, AlongRun step P s (is ++ [i]) →
    P (is.foldl step s) i
  | [], _, _, hrun => hrun.1
  | _ :: _, _, _, hrun => hrun.2.last

theorem AlongRun.imp {P Q : σ → ι → Prop} : ∀ {is : List ι} {s : σ}, AlongRun step P s is →
    (∀ s i, P s i → Q s i) → AlongRun step Q s is
  | [], _, _, _ => trivial
  | _ :: _, _, hrun, h => ⟨h _ _ hrun.1, hrun.2.imp h⟩

instance AlongRun.decidable {P : σ → ι → Prop} [∀ s i, Decidable (P s i)] :
    ∀ (s : σ) (is : List ι), Decidable (AlongRun step P s is)
  | _, [] => .isTrue trivial
  | s, i :: is =>
    have : Decidable (AlongRun step P (step s i) is) := AlongRun.decidable (step s i) is
    inferInstanceAs (Decidable (P s i ∧ AlongRun step P (step s i) is))

/-- One input over and over, from an invariant that it keeps. -/
theorem alongRun_replicate (Inv : σ → Prop) {P : σ → ι → Prop} {i : ι} (hstep : ∀ s, Inv s → Inv (step s i))
    (hp : ∀ s, Inv s → P s i) : ∀ (n : Nat) (s : σ), Inv s → AlongRun step P s (List.replicate n i)
  | 0, _, _ => trivial
  | n + 1, s, hs => ⟨hp s hs, alongRun_replicate Inv hstep hp n (step s i) (hstep s hs)⟩

/-- One input over and over, state by state. -/
theorem alongRun_replicate_iff {P : σ → ι → Prop} {i : ι} : ∀ {n : Nat} {s : σ},
    AlongRun step P s (List.replicate n i) ↔ ∀ k < n, P ((List.replicate k i).foldl step s) i
  | 0, _ => ⟨fun _ k hk => absurd hk (Nat.not_lt_zero k), fun _ => trivial⟩
  | n + 1, s => by
    rw [Nat.forall_lt_succ_left, List.replicate_succ, AlongRun, alongRun_replicate_iff]
    rfl

/-- Some input of the run satisfies `P` at the state it meets. -/
def OnceAlong (step : σ → ι → σ) (P : σ → ι → Prop) : σ → List ι → Prop
  | _, [] => False
  | s, i :: is => P s i ∨ OnceAlong step P (step s i) is

theorem onceAlong_append {P : σ → ι → Prop} : ∀ (is js : List ι) (s : σ),
    OnceAlong step P s (is ++ js) ↔ OnceAlong step P s is ∨ OnceAlong step P (is.foldl step s) js
  | [], _, _ => by simp [OnceAlong]
  | i :: is, js, s => by
    rw [List.cons_append, OnceAlong, onceAlong_append is js (step s i), OnceAlong, or_assoc]
    rfl

theorem onceAlong_concat {P : σ → ι → Prop} (is : List ι) (s : σ) (i : ι) :
    OnceAlong step P s (is ++ [i]) ↔ OnceAlong step P s is ∨ P (is.foldl step s) i := by
  rw [onceAlong_append, OnceAlong, OnceAlong, or_false]

theorem OnceAlong.imp {P Q : σ → ι → Prop} : ∀ {is : List ι} {s : σ}, OnceAlong step P s is →
    (∀ s i, P s i → Q s i) → OnceAlong step Q s is
  | _ :: _, _, .inl hp, h => .inl (h _ _ hp)
  | _ :: _, _, .inr hrest, h => .inr (hrest.imp h)

theorem AlongRun.init {P : σ → ι → Prop} : ∀ {is : List ι} {s : σ} {i : ι}, AlongRun step P s (is ++ [i]) →
    AlongRun step P s is
  | [], _, _, _ => trivial
  | _ :: _, _, _, hrun => ⟨hrun.1, hrun.2.init⟩

/-- **Two conditions that agree where the invariant holds agree along runs**, if the second one preserves it. The runs may
satisfy a condition of their own, which the agreement then uses. -/
theorem alongRun_iff_of (Inv : σ → Prop) {P Q R : σ → ι → Prop} (hpq : ∀ s i, Inv s → R s i → (P s i ↔ Q s i))
    (hstep : ∀ s i, Inv s → R s i → Q s i → Inv (step s i)) :
    ∀ (is : List ι) (s : σ), Inv s → AlongRun step R s is → (AlongRun step P s is ↔ AlongRun step Q s is)
  | [], _, _, _ => Iff.rfl
  | i :: is, s, hs, hr => by
    constructor
    · rintro ⟨hp, hrest⟩
      have hq := (hpq s i hs hr.1).mp hp
      exact ⟨hq, (alongRun_iff_of Inv hpq hstep is (step s i) (hstep s i hs hr.1 hq) hr.2).mp hrest⟩
    · rintro ⟨hq, hrest⟩
      exact ⟨(hpq s i hs hr.1).mpr hq,
        (alongRun_iff_of Inv hpq hstep is (step s i) (hstep s i hs hr.1 hq) hr.2).mpr hrest⟩

theorem alongRun_of_forall {P : σ → ι → Prop} (h : ∀ s i, P s i) : ∀ (is : List ι) (s : σ), AlongRun step P s is
  | [], _ => trivial
  | i :: is, s => ⟨h s i, alongRun_of_forall h is (step s i)⟩

theorem alongRun_true (is : List ι) (s : σ) : AlongRun step (fun _ _ => True) s is :=
  alongRun_of_forall (fun _ _ => trivial) is s

/-- What the inputs of a run report at the states they meet, in order. -/
def collectAlong {β : Type*} (step : σ → ι → σ) (f : σ → ι → Option β) : σ → List ι → List β
  | _, [] => []
  | s, i :: is => (f s i).toList ++ collectAlong step f (step s i) is

theorem collectAlong_concat {β : Type*} {f : σ → ι → Option β} : ∀ (is : List ι) (s : σ) (i : ι),
    collectAlong step f s (is ++ [i]) = collectAlong step f s is ++ (f (is.foldl step s) i).toList
  | [], _, _ => List.append_nil _
  | j :: is, s, i => by
    rw [List.cons_append, collectAlong, collectAlong_concat is (step s j) i, collectAlong, List.append_assoc]
    rfl

/-- **A part of the state that some inputs set** is what the last of them set it to. -/
theorem collectAlong_last {α : Type*} {f : σ → ι → Option α} (v : σ → α)
    (hstep : ∀ s i, v (step s i) = (f s i).getD (v s)) : ∀ (is : List ι) (s : σ),
      v (is.foldl step s) = ((collectAlong step f s is).getLast?).getD (v s)
  | [], _ => rfl
  | i :: is, s => by
    rw [List.foldl_cons, collectAlong_last v hstep is (step s i), hstep, collectAlong]
    cases f s i with
    | none => rfl
    | some x =>
      rw [Option.toList_some, List.singleton_append, List.getLast?_cons]
      rfl

/-- What holds of every state that a run passes through, by the prefixes of the run. -/
theorem forall_prefix_iff {P : σ → Prop} : ∀ (is : List ι) (s : σ),
    (∀ pre, pre <+: is → P (pre.foldl step s)) ↔ P s ∧ AlongRun step (fun s i => P (step s i)) s is
  | [], s => by simp [AlongRun]
  | i :: is, s => by
    have ih := forall_prefix_iff (P := P) is (step s i)
    constructor
    · intro h
      have htail := ih.mp fun pre hpre => h (i :: pre) (List.cons_prefix_cons.mpr ⟨rfl, hpre⟩)
      exact ⟨h [] List.nil_prefix, htail.1, htail.2⟩
    · rintro ⟨hs, hstep, hrest⟩ pre hpre
      cases pre with
      | nil => exact hs
      | cons j pre =>
        obtain ⟨rfl, htail⟩ := List.cons_prefix_cons.mp hpre
        exact ih.mpr ⟨hstep, hrest⟩ pre htail

theorem alongRun_iff {P Q : σ → ι → Prop} {Inv : σ → Prop} (hpq : ∀ s i, Inv s → (P s i ↔ Q s i))
    (hstep : ∀ s i, Inv s → Q s i → Inv (step s i)) (is : List ι) (s : σ) (hs : Inv s) :
    AlongRun step P s is ↔ AlongRun step Q s is :=
  alongRun_iff_of Inv (fun s i hs _ => hpq s i hs) (fun s i hs _ hq => hstep s i hs hq) is s hs (alongRun_true is s)

end

/-! ## Sums along a trace -/

section
variable {α : Type*}

/-- What the first `n` steps of a trace contribute. -/
def traceSum (f : α → α → Nat) (t : Nat → α) : Nat → Nat
  | 0 => 0
  | n + 1 => traceSum f t n + f (t n) (t (n + 1))

theorem traceSum_add (f : α → α → Nat) (t : Nat → α) (a : Nat) :
    ∀ b : Nat, traceSum f t (a + b) = traceSum f t a + traceSum f (fun i => t (a + i)) b
  | 0 => rfl
  | b + 1 => by
    rw [← Nat.add_assoc, traceSum, traceSum_add f t a b, traceSum, Nat.add_assoc]
    rfl

/-- **Telescoping.** Two contributions that differ by the change of a potential differ by it over any trace. -/
theorem traceSum_telescope {f g : α → α → Nat} {p : α → Nat} {t : Nat → α}
    (h : ∀ i, f (t i) (t (i + 1)) + p (t i) = g (t i) (t (i + 1)) + p (t (i + 1))) :
    ∀ n : Nat, traceSum f t n + p (t 0) = traceSum g t n + p (t n)
  | 0 => rfl
  | n + 1 => by
    have ih := traceSum_telescope h n
    have hn := h n
    simp only [traceSum]
    omega

theorem traceSum_le {f g : α → α → Nat} {t : Nat → α} (h : ∀ i, f (t i) (t (i + 1)) ≤ g (t i) (t (i + 1))) :
    ∀ n : Nat, traceSum f t n ≤ traceSum g t n
  | 0 => Nat.le_refl 0
  | n + 1 => Nat.add_le_add (traceSum_le h n) (h n)

theorem traceSum_zero {f : α → α → Nat} {t : Nat → α} : ∀ {n : Nat} (_ : ∀ i < n, f (t i) (t (i + 1)) = 0), traceSum f t n = 0
  | 0, _ => rfl
  | n + 1, h => by
    rw [traceSum, traceSum_zero fun i hi => h i (Nat.lt_succ_of_lt hi), h n (Nat.lt_succ_self n)]

theorem traceSum_mul (c : Nat) (f : α → α → Nat) (t : Nat → α) :
    ∀ n : Nat, traceSum (fun x y => c * f x y) t n = c * traceSum f t n
  | 0 => rfl
  | n + 1 => by rw [traceSum, traceSum_mul c f t n, traceSum, Nat.mul_add]

theorem traceSum_const (c : Nat) (t : Nat → α) : ∀ n : Nat, traceSum (fun _ _ => c) t n = c * n
  | 0 => rfl
  | n + 1 => by rw [traceSum, traceSum_const c t n, Nat.mul_succ]

end

section
variable {σ ι : Type*} {sets : ι → Option Bool}

/-- How a thing stands after the entries. -/
def settled (sets : ι → Option Bool) (start : Bool) (is : List ι) : Bool := is.foldl (fun on i => (sets i).getD on) start

/-- A signal that follows every entry follows the ledger. -/
theorem foldl_settled {f : σ → Bool} {step : σ → ι → σ} (h : ∀ s i, f (step s i) = (sets i).getD (f s)) :
    ∀ (is : List ι) (s : σ), f (is.foldl step s) = settled sets (f s) is
  | [], _ => rfl
  | i :: is, s => by
    rw [List.foldl_cons, foldl_settled h is, h]
    rfl

end

end Rigel
