import Mathlib
import TreeMatch.Yaml.Fault

/-!
# Work that keeps an invariant

The scanners, readers and makers of YAML work on a state and may fail. `Keeps I P` says of such work
that it leaves a state with `I` from one with `I`, and that it fails only with faults with `P`. It
is proved of each of them from those that it is put together of; here are the ways that all of them
share to go over a list, to forget a value and to stop.
-/

namespace TreeMatch.Yaml

open Std.Do

set_option mvcgen.warning false

/-- Where two steps fail, one of them does. -/
theorem exists_of_bind_eq_error {α β : Type} {x : Except Fault α} {next : α → Except Fault β}
    {f : Fault} (h : x >>= next = .error f) : x = .error f ∨ ∃ a, next a = .error f := by
  cases x with
  | error f' => exact .inl (congrArg _ (Except.error.inj h))
  | ok a => exact .inr ⟨a, h⟩

/-- Where two steps succeed, the first one does, and the second one on its value. -/
theorem exists_of_bind_eq_ok {α β : Type} {x : Except Fault α} {next : α → Except Fault β} {b : β}
    (h : x >>= next = .ok b) : ∃ a, x = .ok a ∧ next a = .ok b := by
  cases x with
  | error f => cases h
  | ok a => exact ⟨a, rfl, h⟩

/-- Work on a state keeps an invariant of it, and fails only with some faults. -/
abbrev Keeps {σ α : Type} (I : σ → Prop) (P : Fault → Prop) (x : StateT σ (Except Fault) α) :
    Prop :=
  ⦃fun s => ⌜I s⌝⦄ x ⦃post⟨fun _ s => ⌜I s⌝, fun f => ⌜P f⌝⟩⦄

/-- Besides, what it gives has a property. -/
abbrev Yields {σ α : Type} (I : σ → Prop) (P : Fault → Prop) (Q : α → Prop)
    (x : StateT σ (Except Fault) α) : Prop :=
  ⦃fun s => ⌜I s⌝⦄ x ⦃post⟨fun a s => ⌜I s ∧ Q a⌝, fun f => ⌜P f⌝⟩⦄

variable {σ α β : Type} {I : σ → Prop} {P : Fault → Prop} {x : StateT σ (Except Fault) α}

/-- What is kept, of a run from some state. -/
theorem Keeps.run (h : Keeps I P x) {s : σ} (hs : I s) :
    (∀ a t, x s = .ok (a, t) → I t) ∧ ∀ f, x s = .error f → P f := by
  have hrun : (wp⟦x s⟧ (fun p => ⌜I p.2⌝, fun f => ⌜P f⌝, ())).down := h s hs
  cases hx : x s with
  | error f =>
    rw [hx] at hrun
    constructor
    · intro a t ht
      cases ht
    · intro g hg
      obtain rfl := Except.error.inj hg
      exact hrun
  | ok p =>
    rw [hx] at hrun
    constructor
    · intro a t ht
      obtain rfl := Except.ok.inj ht
      exact hrun
    · intro g hg
      cases hg

/-- A value that is not needed is kept no less. -/
theorem Keeps.discard (h : Keeps I P x) : Keeps I P (discard x) := by
  change Keeps I P ((fun _ => ()) <$> x)
  mvcgen [h]

/-- Work that stops does not go on. -/
theorem throw_stops {f : Fault} (h : P f) :
    ⦃⌜True⌝⦄ (throw f : StateT σ (Except Fault) α) ⦃post⟨fun _ _ => ⌜False⌝, fun f => ⌜P f⌝⟩⦄ := by
  intro s _
  exact h

/-- So it keeps whatever there is. -/
theorem throw_keeps {f : Fault} (h : P f) : Keeps I P (throw f : StateT σ (Except Fault) α) := by
  intro s _
  exact h

/-! ## Lists -/

/-- Nothing is changed where a value is just given. -/
theorem Keeps.pure (a : α) : Keeps I P (pure a : StateT σ (Except Fault) α) := by
  mvcgen

/-- What two steps keep, they keep one after the other. -/
theorem Keeps.bind {next : α → StateT σ (Except Fault) β} (hx : Keeps I P x)
    (hnext : ∀ a, Keeps I P (next a)) : Keeps I P (x >>= next) := by
  mvcgen [hx, hnext]

/-- A step may need the property of the value that the step before gives. -/
theorem Yields.bind {Q : α → Prop} {R : β → Prop} {next : α → StateT σ (Except Fault) β}
    (hx : Yields I P Q x) (hnext : ∀ a, Q a → Yields I P R (next a)) :
    Yields I P R (x >>= next) := by
  mvcgen [hx, hnext]
  · rename_i h
    exact h.1
  · exact fun _ _ ha => ha

/-- What each element keeps if the value so far has a property, all of them keep, one after the
other. -/
theorem Yields.foldlM {Q : β → Prop} {f : β → α → StateT σ (Except Fault) β}
    (h : ∀ b a, Q b → Yields I P Q (f b a)) (l : List α) {b : β} (hb : Q b) :
    Yields I P Q (l.foldlM f b) := by
  induction l generalizing b with
  | nil =>
    rw [List.foldlM_nil]
    mvcgen
  | cons a l ih =>
    rw [List.foldlM_cons]
    exact (h b a hb).bind fun c hc => ih hc

/-- What each element keeps, all of them keep. -/
theorem Keeps.forM {f : α → StateT σ (Except Fault) PUnit} (h : ∀ a, Keeps I P (f a))
    (l : List α) : Keeps I P (l.forM f) := by
  induction l with
  | nil => exact .pure PUnit.unit
  | cons a l ih => exact (h a).bind fun _ => ih

/-- So do all of them if a list of values is made. -/
theorem Keeps.mapM {f : α → StateT σ (Except Fault) β} (h : ∀ a, Keeps I P (f a))
    (l : List α) : Keeps I P (l.mapM f) := by
  induction l with
  | nil =>
    rw [List.mapM_nil]
    exact .pure []
  | cons a l ih =>
    rw [List.mapM_cons]
    exact (h a).bind fun b => ih.bind fun bs => .pure (b :: bs)

end TreeMatch.Yaml
