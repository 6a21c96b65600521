import Mathlib.Data.List.Basic

/-!
# Scatter — a picture that is painted event by event

A painter is a fold over a list of events. Seen at one place, most events do nothing; these lemmas say what is there at the
end when at most two events reach the place, in whatever order they come. Nothing here knows what is painted.
-/

namespace Rigel

section
variable {α ε : Type*} {paint : α → ε → α}

/-- The picture is painted by steps, and `v` is what a place shows of it. -/
theorem foldl_view_mem {σ : Type*} {v : σ → α} {step : σ → ε → σ} : ∀ (es : List ε) (s : σ),
    (∀ e ∈ es, ∀ s, v (step s e) = paint (v s) e) → v (es.foldl step s) = es.foldl paint (v s)
  | [], _, _ => rfl
  | e :: es, s, h => by
    rw [List.foldl_cons, List.foldl_cons, foldl_view_mem es _ fun e he => h e (List.mem_cons_of_mem _ he),
      h e List.mem_cons_self]

theorem foldl_view {σ : Type*} {v : σ → α} {step : σ → ε → σ} (h : ∀ s e, v (step s e) = paint (v s) e) (es : List ε) (s : σ) :
    v (es.foldl step s) = es.foldl paint (v s) := foldl_view_mem es s fun e _ s => h s e

/-- No event reaches the place. -/
theorem foldl_unreached : ∀ (es : List ε) (s : α), (∀ e ∈ es, ∀ s, paint s e = s) → es.foldl paint s = s
  | [], _, _ => rfl
  | e :: es, s, h => by
    rw [List.foldl_cons, h e List.mem_cons_self s]
    exact foldl_unreached es s fun e he => h e (List.mem_cons_of_mem _ he)

variable [DecidableEq ε]

/-- One event reaches the place, once. -/
theorem foldl_reached_once (a : ε) : ∀ (es : List ε) (s : α), es.Nodup → (∀ e ∈ es, e ≠ a → ∀ s, paint s e = s) →
    es.foldl paint s = if a ∈ es then paint s a else s
  | [], _, _, _ => rfl
  | e :: es, s, hnodup, h => by
    obtain ⟨hfresh, hrest⟩ := List.nodup_cons.mp hnodup
    have htail : ∀ e ∈ es, e ≠ a → ∀ s, paint s e = s := fun e he => h e (List.mem_cons_of_mem _ he)
    rw [List.foldl_cons]
    by_cases hea : e = a
    · subst hea
      rw [if_pos List.mem_cons_self]
      exact foldl_unreached es _ fun x hx => htail x hx fun hxe => hfresh (hxe ▸ hx)
    · rw [h e List.mem_cons_self hea s, foldl_reached_once a es s hrest htail]
      have hmem : a ∈ e :: es ↔ a ∈ es := by
        rw [List.mem_cons]
        exact or_iff_right fun hae => hea hae.symm
      simp only [hmem]

/-- **Two events reach the place, once each**, and it does not matter which of them comes first. -/
theorem foldl_reached_twice {a b : ε} (hab : a ≠ b) : ∀ (es : List ε) (s : α), es.Nodup →
    (∀ e ∈ es, e ≠ a → e ≠ b → ∀ s, paint s e = s) → paint (paint s a) b = paint (paint s b) a →
    es.foldl paint s =
      if a ∈ es then (if b ∈ es then paint (paint s a) b else paint s a) else if b ∈ es then paint s b else s
  | [], _, _, _, _ => rfl
  | e :: es, s, hnodup, h, hcomm => by
    obtain ⟨hfresh, hrest⟩ := List.nodup_cons.mp hnodup
    have htail : ∀ e ∈ es, e ≠ a → e ≠ b → ∀ s, paint s e = s := fun e he => h e (List.mem_cons_of_mem _ he)
    rw [List.foldl_cons]
    by_cases hea : e = a
    · subst hea
      have hone : ∀ x ∈ es, x ≠ b → ∀ s, paint s x = s := fun x hx hxb =>
        htail x hx (fun hxe => hfresh (hxe ▸ hx)) hxb
      have hmem : b ∈ e :: es ↔ b ∈ es := by
        rw [List.mem_cons]
        exact or_iff_right fun hbe => hab hbe.symm
      rw [foldl_reached_once b es _ hrest hone, if_pos List.mem_cons_self]
      simp only [hmem]
    · have hmem : a ∈ e :: es ↔ a ∈ es := by
        rw [List.mem_cons]
        exact or_iff_right fun hae => hea hae.symm
      by_cases heb : e = b
      · subst heb
        have hone : ∀ x ∈ es, x ≠ a → ∀ s, paint s x = s := fun x hx hxa =>
          htail x hx hxa fun hxe => hfresh (hxe ▸ hx)
        have hmemb : e ∈ e :: es := List.mem_cons_self
        rw [foldl_reached_once a es _ hrest hone]
        simp only [hmem, hmemb, if_true, hcomm]
      · have hmemb : b ∈ e :: es ↔ b ∈ es := by
          rw [List.mem_cons]
          exact or_iff_right fun hbe => heb hbe.symm
        rw [h e List.mem_cons_self hea heb s, foldl_reached_twice hab es s hrest htail hcomm]
        simp only [hmem, hmemb]

end

/-- **The last painter wins**: of those that cover the place, the one that paints last. -/
theorem foldl_overwrite {α ε : Type*} (covers : ε → Bool) (colour : ε → α) : ∀ (es : List ε) (s : α),
    es.foldl (fun s e => if covers e then colour e else s) s = ((es.reverse.find? covers).map colour).getD s
  | [], _ => rfl
  | e :: es, s => by
    rw [List.foldl_cons, foldl_overwrite covers colour es, List.reverse_cons, List.find?_append]
    cases hrest : es.reverse.find? covers with
    | some e' => rfl
    | none =>
      cases he : covers e <;> simp [he]

end Rigel
