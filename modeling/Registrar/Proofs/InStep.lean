import Registrar.World

set_option autoImplicit false

/-! # Two runs in step

Whether a run gives something away is a question about two runs: nobody can tell what differs
between them. Two computations are in step (`InStep`) if they give the same answer and leave states
that are related, however the states are related; a program is in step with itself if each of its
parts is. Results and endings are compared likewise (`SameResult`, `SameEnding`), and worlds are
twins if they differ in nothing but what foreign code keeps (`World.Twins`). -/

namespace Registrar

variable {S α β ε ε' σ : Type}

/-! ## Computations -/

/-- **The same answer, and related states.** -/
structure InStep (R : S → S → Prop) (x x' : α × S) : Prop where
  answer : x.1 = x'.1
  left : R x.2 x'.2

namespace InStep

variable {R : S → S → Prop}

theorem spread {x x' : α × S} (h : InStep R x x') :
    ∃ a s s', x = (a, s) ∧ x' = (a, s') ∧ R s s' :=
  ⟨x.1, x.2, x'.2, rfl, Prod.ext h.answer.symm rfl, h.left⟩

/-- States that nobody touched. -/
theorem still {s s' : S} (h : R s s') (a : α) : InStep R (a, s) (a, s') := ⟨rfl, h⟩

end InStep

/-- The same error, or related values. -/
inductive SameResult (R : α → α → Prop) : Except ε α → Except ε α → Prop
  | ok {a a' : α} (h : R a a') : SameResult R (.ok a) (.ok a')
  | error (e : ε) : SameResult R (.error e) (.error e)

namespace SameResult

variable {R : α → α → Prop} {Q : β → β → Prop} {x x' : Except ε α}

theorem self (x : Except ε α) : SameResult Eq x x := by
  cases x with
  | ok a => exact .ok rfl
  | error e => exact .error e

theorem bind (h : SameResult R x x') {f f' : α → Except ε β}
    (hf : ∀ {a a'}, R a a' → SameResult Q (f a) (f' a')) : SameResult Q (x >>= f) (x' >>= f') := by
  cases h with
  | ok ha => exact hf ha
  | error e => exact .error e

theorem mapError (h : SameResult R x x') (f : ε → ε') :
    SameResult R (x.mapError f) (x'.mapError f) := by
  cases h with
  | ok ha => exact .ok ha
  | error e => exact .error (f e)

theorem either (h : SameResult R x x') :
    (∃ e, x = .error e ∧ x' = .error e) ∨ ∃ a a', x = .ok a ∧ x' = .ok a' ∧ R a a' := by
  cases h with
  | ok ha => exact .inr ⟨_, _, rfl, rfl, ha⟩
  | error e => exact .inl ⟨e, rfl, rfl⟩

/-- Results are the same if their values are. -/
theorem eq (h : SameResult R x x') (hR : ∀ {a a'}, R a a' → a = a') : x = x' := by
  cases h with
  | ok ha => rw [hR ha]
  | error e => rfl

end SameResult

/-- The same failure, the same panic, or related values. -/
inductive SameEnding (R : α → α → Prop) : Ending ε α → Ending ε α → Prop
  | returned {a a' : α} (h : R a a') : SameEnding R (.returned a) (.returned a')
  | failed (e : ε) : SameEnding R (.failed e) (.failed e)
  | panicked (p : PanicPayload) : SameEnding R (.panicked p) (.panicked p)

namespace SameEnding

variable {R : α → α → Prop} {x x' : Ending ε α}

theorem mapError (h : SameEnding R x x') (f : ε → ε') :
    SameEnding R (x.mapError f) (x'.mapError f) := by
  cases h with
  | returned ha => exact .returned ha
  | failed e => exact .failed (f e)
  | panicked p => exact .panicked p

/-- What ends alike up to its value. -/
theorem of_map_eq (h : x.map (fun _ => ()) = x'.map (fun _ => ())) :
    SameEnding (fun a a' => x = .returned a ∧ x' = .returned a') x x' := by
  cases x with
  | returned a =>
      cases x' with
      | returned a' => exact .returned ⟨rfl, rfl⟩
      | failed e => simp [Ending.map] at h
      | panicked p => simp [Ending.map] at h
  | failed e =>
      cases x' with
      | returned a' => simp [Ending.map] at h
      | failed e' =>
          obtain rfl : e = e' := by simpa [Ending.map] using h
          exact .failed e
      | panicked p => simp [Ending.map] at h
  | panicked p =>
      cases x' with
      | returned a' => simp [Ending.map] at h
      | failed e => simp [Ending.map] at h
      | panicked p' =>
          obtain rfl : p = p' := by simpa [Ending.map] using h
          exact .panicked p

theorem either (h : SameEnding R x x') :
    (∃ e, x = .failed e ∧ x' = .failed e) ∨ (∃ p, x = .panicked p ∧ x' = .panicked p) ∨
      ∃ a a', x = .returned a ∧ x' = .returned a' ∧ R a a' := by
  cases h with
  | returned ha => exact .inr (.inr ⟨_, _, rfl, rfl, ha⟩)
  | failed e => exact .inl ⟨e, rfl, rfl⟩
  | panicked p => exact .inr (.inl ⟨p, rfl, rfl⟩)

end SameEnding

/-! ## Worlds -/

/-- Scenes that are the same up to what foreign code keeps. -/
inductive Scene.Twins (R : σ → σ → Prop) : Scene σ → Scene σ → Prop
  | intro (signals : Signals) (clock : Nat) {own own' : σ} (h : R own own') :
      Twins R ⟨signals, clock, own⟩ ⟨signals, clock, own'⟩

/-- **Worlds that are the same up to what foreign code keeps**: what was measured and what was
logged does not differ. -/
inductive World.Twins (R : σ → σ → Prop) : World σ → World σ → Prop
  | intro {s s' : Scene σ} (h : s.Twins R s') (samples : List Sample) (records : List LogRecord) :
      Twins R ⟨s, samples, records⟩ ⟨s', samples, records⟩

namespace World.Twins

variable {R : σ → σ → Prop} {w w' : World σ}

theorem check (h : w.Twins R w') (c : Context) : w.check c = w'.check c := by
  obtain ⟨⟨_, _, _⟩, _, _⟩ := h
  rfl

theorem readClock (h : w.Twins R w') : InStep (World.Twins R) w.readClock w'.readClock := by
  obtain ⟨⟨signals, clock, hown⟩, samples, records⟩ := h
  exact ⟨rfl, ⟨⟨signals, clock + 1, hown⟩, samples, records⟩⟩

theorem take (h : w.Twins R w') (s : Sample) : (w.take s).Twins R (w'.take s) := by
  obtain ⟨hscene, samples, records⟩ := h
  exact ⟨hscene, samples ++ [s], records⟩

theorem log (h : w.Twins R w') (r : LogRecord) : (w.log r).Twins R (w'.log r) := by
  obtain ⟨hscene, samples, records⟩ := h
  exact ⟨hscene, samples, records ++ [r]⟩

theorem logAll (h : w.Twins R w') (records : List LogRecord) :
    (records.foldl World.log w).Twins R (records.foldl World.log w') := by
  induction records generalizing w w' with
  | nil => exact h
  | cons r records ih => exact ih (h.log r)

end World.Twins

end Registrar
