import Registrar.Proofs.Outbox.Settling

set_option autoImplicit false

/-! # Contexts that last

A context without a deadline lasts as long as nobody raises its flag. Where no handler does so, the
flag is not raised by any step of a pass, since nothing else that a pass does touches flags
(`Pass.lasts_of_unraised`). -/

namespace Registrar.Outbox

variable {σ : Type}

/-! ## Flags -/

/-- Nobody has raised this flag. -/
def Unraised (flag : Nat) (s : Scene σ) : Prop := s.signals.isRaised flag = false

/-- A handler that never raises this flag. -/
def Leaves (flag : Nat) (h : EventHandler σ) : Prop := ∀ c e s, flag ∉ (h.react c e s).raised

section

variable {flag : Nat} {hs : List (EventHandler σ)} (hleaves : ∀ h ∈ hs, Leaves flag h)

theorem isRaised_foldl_raise {flags : List Nat} (hflags : flag ∉ flags) (s : Signals) :
    (flags.foldl Signals.raise s).isRaised flag = s.isRaised flag := by
  induction flags generalizing s with
  | nil => rfl
  | cons f flags ih =>
      rw [List.mem_cons, not_or] at hflags
      rw [List.foldl_cons, ih hflags.2]
      simp [Signals.raise, Signals.isRaised, hflags.1]

theorem Leaves.call {h : EventHandler σ} (hh : Leaves flag h) (c : Context) (e : Event)
    {s : Scene σ} (hs : Unraised flag s) : Unraised flag (h.call c e s).2 :=
  (isRaised_foldl_raise (hh c e s) s.signals).trans hs

include hleaves

theorem unraised_callAll (c : Context) (e : Event) {s : Scene σ} (h : Unraised flag s) :
    Unraised flag (Dispatcher.callAll c e hs s).2 := by
  induction hs generalizing s with
  | nil => exact h
  | cons x hs ih =>
      exact ih (fun x' hx' => hleaves x' (List.mem_cons_of_mem _ hx'))
        ((hleaves x List.mem_cons_self).call c e h)

theorem unraised_runTasks (c : Context) (e : Event) (is : List Nat) {s : Scene σ}
    (h : Unraised flag s) : Unraised flag (Dispatcher.runTasks c e hs is s).2 := by
  induction is generalizing s with
  | nil => exact h
  | cons i is ih =>
      simp only [Dispatcher.runTasks]
      cases hi : hs[i]? with
      | none => exact ih h
      | some x => exact ih ((hleaves x (List.mem_of_getElem? hi)).call c e h)

end

theorem Dispatcher.unraised_dispatch {d : Dispatcher σ} {flag : Nat}
    (hleaves : ∀ h ∈ d.handlers, Leaves flag h) (c : Context) (e : Event) (o : Schedule)
    {w : World σ} (h : Unraised flag w.scene) : Unraised flag (d.dispatch c e o w).2.scene := by
  have hmatching : ∀ h ∈ d.matching e.name, Leaves flag h :=
    fun h hh => hleaves h (List.mem_filter.1 hh).1
  have hread : Unraised flag w.readClock.2.scene := h
  have hby : ∀ call : List (EventHandler σ) → Scene σ → List HandlerFailure × Scene σ,
      Unraised flag (call (d.matching e.name) w.readClock.2.scene).2 →
        Unraised flag (d.dispatchBy c e call w).2.scene := by
    intro call hcall
    unfold Dispatcher.dispatchBy Dispatcher.conclude
    cases w.check c with
    | error err => exact h
    | ok _ => cases d.measured <;> exact hcall
  unfold Dispatcher.dispatch
  cases d.mode with
  | sequential => exact hby _ (unraised_callAll hmatching c e hread)
  | concurrent => exact hby _ (unraised_runTasks hmatching c e _ hread)

theorem Processor.unraised_deliver {p : Processor Store Transaction σ} {flag : Nat}
    (hleaves : ∀ h ∈ p.dispatcher.handlers, Leaves flag h) (c : Context) (o : Schedule) (row : Row)
    {w : World σ} (h : Unraised flag w.scene) : Unraised flag (p.deliver c o row w).2.scene := by
  cases hread : p.serializer.deserialize row.payload row.eventName with
  | error e =>
      unfold deliver
      rw [hread]
      exact h
  | ok e =>
      rw [deliver_of_decoded p c o hread]
      exact Dispatcher.unraised_dispatch hleaves c e o h

namespace Pass

@[simp] theorem scene_note (p : Processor Store Transaction σ) (row : Row) (result : String)
    (s : Site Store σ) : (p.note row result s).world.scene = s.world.scene := by
  unfold Processor.note
  split <;> rfl

/-- A step delivers a row or leaves the scene alone. -/
theorem scene_advance (pass : Pass σ) (s : Site Store σ) :
    (pass.advance s).2.world.scene = s.world.scene ∨ ∃ o row,
      (pass.advance s).2.world = (pass.processor.deliver pass.context o row s.world).2 := by
  obtain ⟨p, c, conditions, number, report, phase⟩ := pass
  cases phase with
  | delivering rows =>
      cases rows with
      | nil => exact .inl rfl
      | cons row rows =>
          simp only [advance]
          cases s.world.check c with
          | error e => exact .inl rfl
          | ok _ => exact .inr ⟨conditions.schedule number, row, rfl⟩
  | marking row delivery calls rows =>
      refine .inl ?_
      cases delivery with
      | delivered =>
          simp only [advance, Processor.settleDelivered]
          split <;> simp
      | interrupted e => rfl
      | failed reason =>
          simp only [advance]
          split
          · rfl
          · split <;> simp
  | givingUp row rows =>
      refine .inl ?_
      simp only [advance]
      split <;> simp
  | ended result => exact .inl rfl

theorem check_of_unraised {c : Context} (hdeadline : c.deadline = none) {w : World σ}
    (h : Unraised c.flag w.scene) : w.check c = .ok () := by
  have hcancelled : c.isCancelled w.scene.signals = false := h
  simp only [World.check, Scene.check, Context.check, hcancelled, hdeadline, Bool.false_eq_true,
    if_false]

/-- **No step of a pass raises a flag that no handler raises.** -/
theorem unraised_of_reaches {p : Processor Store Transaction σ} (hp : p.repository = .store)
    {flag : Nat} (hleaves : ∀ h ∈ p.dispatcher.handlers, Leaves flag h)
    {a b : Pass σ × Site Store σ} (hab : Reaches a b) (hprocessor : a.1.processor = p)
    (h : Unraised flag a.2.world.scene) : Unraised flag b.2.world.scene := by
  suffices b.1.processor = p ∧ Unraised flag b.2.world.scene from this.2
  induction hab with
  | refl => exact ⟨hprocessor, h⟩
  | @tail b d _ hstep ih =>
      obtain ⟨hprocessor', hflag⟩ := ih
      rw [← hstep]
      refine ⟨(advance_spec b.1 b.2 (by rw [hprocessor', hp])).1.trans hprocessor', ?_⟩
      rcases scene_advance b.1 b.2 with hscene | ⟨o, row, hworld⟩
      · rw [hscene]
        exact hflag
      · rw [hworld, hprocessor']
        exact Processor.unraised_deliver hleaves _ o row hflag

theorem processor_start (p : Processor Store Transaction σ) (c : Context) (conditions : Conditions)
    (s : Site Store σ) : (start p c conditions s).1.processor = p := by
  unfold start
  cases s.world.check c with
  | error e => rfl
  | ok _ =>
      cases p.takeRows c conditions s with
      | mk result s' => cases result <;> rfl

/-- **A context lasts** if it has no deadline and no handler raises its flag, and the flag is not
raised by the whole pass. -/
theorem lasts_of_unraised {p : Processor Store Transaction σ} (hp : p.repository = .store)
    {c : Context} (hdeadline : c.deadline = none)
    (hleaves : ∀ h ∈ p.dispatcher.handlers, Leaves c.flag h) (conditions : Conditions)
    {s : Site Store σ} (h : Unraised c.flag s.world.scene) :
    Lasts c (start p c conditions s) ∧
      Unraised c.flag (p.process c conditions s).2.world.scene := by
  have hreached : ∀ b, Reaches (start p c conditions s) b → Unraised c.flag b.2.world.scene := by
    intro b hb
    refine unraised_of_reaches hp hleaves hb (processor_start p c conditions s) ?_
    rw [Processor.world_start]
    exact h
  refine ⟨fun b hb => check_of_unraised hdeadline (hreached b hb), ?_⟩
  obtain ⟨last, hlast, -⟩ := reaches_process p c conditions s
  exact hreached _ hlast

end Pass

end Registrar.Outbox
