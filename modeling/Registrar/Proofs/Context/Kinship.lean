import Mathlib.Logic.Relation
import Registrar.Context

set_option autoImplicit false

/-! # Families of contexts

A program creates contexts, clones them, derives others from them and cancels some, in any order.
The contexts are numbered as they come into being, and the annals of the program tell of each how it
did (`Birth`) and which were cancelled. Annals know neither flags nor fields, so they say
independently what must hold of the contexts (`Family.Follows`): a clone or a derived context has
its parent's flag, a created one a flag of its own, and the flags that are raised are those of the
cancelled contexts.

A flag is thus shared by those that descend from one created context, and by no others: these are
cancelled together, and everything else that a context has is its own (`shares_cancellation`). -/

namespace Registrar.Context

/-! ## What a program does with contexts -/

/-- What a derived context does not have from its parent. -/
inductive Change where
  | correlation (id : Uuid)
  | deadline (at_ : Nat)
  | metadata (key value : String)

def derive (c : Context) : Change → Context
  | .correlation id => c.withCorrelation id
  | .deadline t => c.withDeadline t
  | .metadata key value => c.withMetadata key value

/-- How a context comes into being. A parent that a program does not use any more may as well have
been moved into its child. -/
inductive Birth where
  | created (correlation : Uuid)
  | cloned (parent : Nat)
  | derived (parent : Nat) (change : Change)

def Birth.parent? : Birth → Option Nat
  | .created _ => none
  | .cloned i => some i
  | .derived i _ => some i

inductive Act where
  | bear (b : Birth)
  | cancel (number : Nat)

/-- The contexts in the order in which they came into being, and their flags. -/
structure Family where
  contexts : List Context
  signals : Signals

namespace Family

def empty : Family := ⟨[], .none⟩

/-- The context that is born, if its parent is there, and the flags after that. -/
def newborn (f : Family) : Birth → Option (Context × Signals)
  | .created id => some (create id f.signals)
  | .cloned i => f.contexts[i]?.map fun p => (p, f.signals)
  | .derived i change => f.contexts[i]?.map fun p => (p.derive change, f.signals)

/-- An act that names a context which is not there does nothing. -/
def act (f : Family) : Act → Family
  | .bear b => match f.newborn b with
      | some (c, signals) => ⟨f.contexts ++ [c], signals⟩
      | none => f
  | .cancel i => match f.contexts[i]? with
      | some c => { f with signals := f.signals.raise c.flag }
      | none => f

/-- The contexts of a program that did all this. -/
def run (acts : List Act) : Family := acts.foldl act empty

end Family

/-! ## What the annals tell -/

/-- How each context came into being, by its number, and the numbers of those that
were cancelled. -/
structure Annals where
  births : List Birth
  cancelled : List Nat

namespace Annals

def empty : Annals := ⟨[], []⟩

def note (a : Annals) : Act → Annals
  | .bear b =>
      if b.parent?.all (· < a.births.length) then { a with births := a.births ++ [b] } else a
  | .cancel i => if i < a.births.length then { a with cancelled := i :: a.cancelled } else a

def Created (a : Annals) (i : Nat) : Prop := ∃ id, a.births[i]? = some (.created id)

/-- The second was cloned or derived from the first. -/
def Parent (a : Annals) (i j : Nat) : Prop := ∃ b, a.births[j]? = some b ∧ b.parent? = some i

/-- **Kin descend from one created context**, each by a chain of its own of clones and
derivations. -/
def Kin (a : Annals) (i j : Nat) : Prop :=
  ∃ root, a.Created root ∧ Relation.ReflTransGen a.Parent root i ∧
    Relation.ReflTransGen a.Parent root j

end Annals

def annals (acts : List Act) : Annals := acts.foldl Annals.note .empty

/-- **What a context has by birth**, its parent being among these contexts. -/
def Birth.Gives (contexts : List Context) (c : Context) : Birth → Prop
  | .created id => c.correlation = id ∧ c.deadline = none ∧ ∀ key, c.metadata.get? key = none
  | .cloned i => ∃ p, contexts[i]? = some p ∧
      c.correlation = p.correlation ∧ c.deadline = p.deadline ∧ c.metadata = p.metadata
  | .derived i (.correlation id) => ∃ p, contexts[i]? = some p ∧
      c.correlation = id ∧ c.deadline = p.deadline ∧ c.metadata = p.metadata
  | .derived i (.deadline t) => ∃ p, contexts[i]? = some p ∧
      c.correlation = p.correlation ∧ c.deadline = some t ∧ c.metadata = p.metadata
  | .derived i (.metadata key value) => ∃ p, contexts[i]? = some p ∧
      c.correlation = p.correlation ∧ c.deadline = p.deadline ∧
      ∀ key', c.metadata.get? key' = if key' = key then some value else p.metadata.get? key'

/-- More contexts make no difference to a birth. -/
theorem Birth.Gives.append {contexts : List Context} {c : Context} {b : Birth}
    (h : b.Gives contexts c) (more : List Context) : b.Gives (contexts ++ more) c := by
  have hfound : ∀ {i : Nat} {p : Context}, contexts[i]? = some p →
      (contexts ++ more)[i]? = some p :=
    fun hp => by rw [List.getElem?_append_left (List.getElem?_eq_some_iff.1 hp).1, hp]
  cases b with
  | created id => exact h
  | cloned i =>
      obtain ⟨p, hp, hrest⟩ := h
      exact ⟨p, hfound hp, hrest⟩
  | derived i change =>
      cases change with
      | correlation id =>
          obtain ⟨p, hp, hrest⟩ := h
          exact ⟨p, hfound hp, hrest⟩
      | deadline t =>
          obtain ⟨p, hp, hrest⟩ := h
          exact ⟨p, hfound hp, hrest⟩
      | metadata key value =>
          obtain ⟨p, hp, hrest⟩ := h
          exact ⟨p, hfound hp, hrest⟩

/-! ## The contexts are as the annals tell -/

theorem getElem?_concat_eq_some_iff {α : Type} {l : List α} {x y : α} {j : Nat} :
    (l ++ [x])[j]? = some y ↔ l[j]? = some y ∨ j = l.length ∧ x = y := by
  rcases Nat.lt_trichotomy j l.length with hj | rfl | hj
  · rw [List.getElem?_append_left hj, or_iff_left fun h => Nat.ne_of_lt hj h.1]
  · simp
  · rw [List.getElem?_eq_none (by simp; omega), List.getElem?_eq_none (Nat.le_of_lt hj)]
    simp [Nat.ne_of_gt hj]

namespace Family

/-- **The contexts and their flags are those of a program with these annals.** -/
structure Follows (f : Family) (a : Annals) : Prop where
  length : f.contexts.length = a.births.length
  gives : ∀ (j : Nat) b c, a.births[j]? = some b → f.contexts[j]? = some c → b.Gives f.contexts c
  older : ∀ i j, a.Parent i j → i < j
  known : ∀ i ∈ a.cancelled, i < a.births.length
  handedOut : ∀ c ∈ f.contexts, c.flag < f.signals.next
  inherited : ∀ i j p c, a.Parent i j → f.contexts[i]? = some p → f.contexts[j]? = some c →
    c.flag = p.flag
  own : ∀ i j c d, a.Created i → a.Created j → f.contexts[i]? = some c → f.contexts[j]? = some d →
    c.flag = d.flag → i = j
  raised : ∀ flag, flag ∈ f.signals.raised ↔
    ∃ i ∈ a.cancelled, ∃ c, f.contexts[i]? = some c ∧ c.flag = flag

/-- What a newborn context has: what its birth gives it, and its parent's flag or a new one. -/
structure Bears (f : Family) (b : Birth) (c : Context) (signals : Signals) : Prop where
  gives : b.Gives f.contexts c
  parent : ∀ i, b.parent? = some i → ∃ p, f.contexts[i]? = some p ∧ c.flag = p.flag
  fresh : b.parent? = none → c.flag = f.signals.next
  next : c.flag < signals.next ∧ f.signals.next ≤ signals.next
  raised : signals.raised = f.signals.raised

variable {f : Family} {a : Annals}

/-- Whoever is there has a birth. -/
theorem Follows.lt_births (h : f.Follows a) {i : Nat} {c : Context} (hc : f.contexts[i]? = some c) :
    i < a.births.length :=
  h.length ▸ (List.getElem?_eq_some_iff.1 hc).1

theorem bears_of_newborn (h : f.Follows a) {b : Birth} {c : Context} {signals : Signals}
    (hnew : f.newborn b = some (c, signals)) : f.Bears b c signals := by
  cases b with
  | created id =>
      obtain ⟨rfl, rfl⟩ := Prod.mk.inj (Option.some.inj hnew)
      exact ⟨⟨rfl, rfl, fun _ => rfl⟩, (fun i hi => by cases hi), fun _ => rfl,
        ⟨Nat.lt_succ_self _, Nat.le_succ _⟩, rfl⟩
  | cloned i =>
      obtain ⟨p, hp, heq⟩ := Option.map_eq_some_iff.1 hnew
      obtain ⟨rfl, rfl⟩ := Prod.mk.inj heq
      refine ⟨⟨p, hp, rfl, rfl, rfl⟩, fun i' hi' => ?_, (fun hnone => by cases hnone),
        ⟨h.handedOut p (List.mem_of_getElem? hp), Nat.le_refl _⟩, rfl⟩
      obtain rfl := Option.some.inj hi'
      exact ⟨p, hp, rfl⟩
  | derived i change =>
      obtain ⟨p, hp, heq⟩ := Option.map_eq_some_iff.1 hnew
      obtain ⟨rfl, rfl⟩ := Prod.mk.inj heq
      have hflag : (p.derive change).flag = p.flag := by cases change <;> rfl
      refine ⟨?_, fun i' hi' => ?_, (fun hnone => by cases hnone),
        ⟨hflag ▸ h.handedOut p (List.mem_of_getElem? hp), Nat.le_refl _⟩, rfl⟩
      · cases change with
        | correlation id => exact ⟨p, hp, rfl, rfl, rfl⟩
        | deadline t => exact ⟨p, hp, rfl, rfl, rfl⟩
        | metadata key value =>
            exact ⟨p, hp, rfl, rfl, fun key' => Keyed.get?_insert p.metadata key key' value⟩
      · obtain rfl := Option.some.inj hi'
        exact ⟨p, hp, hflag⟩

/-- **A birth is noted just when it takes place.** -/
theorem isSome_newborn (h : f.Follows a) (b : Birth) :
    (f.newborn b).isSome = b.parent?.all (· < a.births.length) := by
  have hfound : ∀ i : Nat, f.contexts[i]?.isSome = decide (i < a.births.length) := fun i => by
    rw [← h.length, Bool.eq_iff_iff]
    simp
  cases b with
  | created id => rfl
  | cloned i => rw [newborn, Option.isSome_map, hfound, Birth.parent?, Option.all_some]
  | derived i change => rw [newborn, Option.isSome_map, hfound, Birth.parent?, Option.all_some]

/-- One context more. -/
theorem Follows.bear (h : f.Follows a) {b : Birth} {c : Context} {signals : Signals}
    (hb : f.Bears b c signals) :
    Follows ⟨f.contexts ++ [c], signals⟩ { a with births := a.births ++ [b] } := by
  have hkept : ∀ {i : Nat}, i < a.births.length → (f.contexts ++ [c])[i]? = f.contexts[i]? :=
    fun hi => List.getElem?_append_left (h.length.symm ▸ hi)
  -- A number is that of an older birth, or that of the new one.
  have hbirth : ∀ {j : Nat} {b' : Birth}, (a.births ++ [b])[j]? = some b' →
      a.births[j]? = some b' ∧ j < a.births.length ∨ j = a.births.length ∧ b = b' := fun hb' =>
    (getElem?_concat_eq_some_iff.1 hb').imp_left fun hold =>
      ⟨hold, (List.getElem?_eq_some_iff.1 hold).1⟩
  have hnew : (f.contexts ++ [c])[a.births.length]? = some c := by
    rw [← h.length, List.getElem?_concat_length]
  refine ⟨?_, fun j b' d hb' hd => ?_, ?_, fun i hi => ?_, fun d hd => ?_, ?_, ?_, fun flag => ?_⟩
  · simp [h.length]
  · rcases hbirth hb' with ⟨hb', hj⟩ | ⟨rfl, rfl⟩
    · rw [hkept hj] at hd
      exact (h.gives j b' d hb' hd).append [c]
    · obtain rfl := Option.some.inj (hnew.symm.trans hd)
      exact hb.gives.append [c]
  · rintro i j ⟨b', hb', hi⟩
    rcases hbirth hb' with ⟨hb', -⟩ | ⟨rfl, rfl⟩
    · exact h.older i j ⟨b', hb', hi⟩
    · obtain ⟨p, hp, -⟩ := hb.parent i hi
      exact h.lt_births hp
  · rw [List.length_append]
    exact Nat.lt_add_right 1 (h.known i hi)
  · rcases List.mem_append.1 hd with hd | hd
    · exact Nat.lt_of_lt_of_le (h.handedOut d hd) hb.next.2
    · obtain rfl := List.mem_singleton.1 hd
      exact hb.next.1
  · rintro i j p d ⟨b', hb', hi⟩ hp hd
    rcases hbirth hb' with ⟨hb', hj⟩ | ⟨rfl, rfl⟩
    · rw [hkept hj] at hd
      rw [hkept (Nat.lt_trans (h.older i j ⟨b', hb', hi⟩) hj)] at hp
      exact h.inherited i j p d ⟨b', hb', hi⟩ hp hd
    · obtain rfl := Option.some.inj (hnew.symm.trans hd)
      obtain ⟨p', hp', hflag⟩ := hb.parent i hi
      rw [hkept (h.lt_births hp'), hp'] at hp
      rwa [← Option.some.inj hp]
  · -- The flag of a context that is created now was never handed out before.
    have hdiffers : ∀ {j : Nat} {d : Context}, b.parent? = none → f.contexts[j]? = some d →
        d.flag ≠ c.flag := fun hnone hd => by
      rw [hb.fresh hnone]
      exact Nat.ne_of_lt (h.handedOut _ (List.mem_of_getElem? hd))
    rintro i j p d ⟨id, hi⟩ ⟨id', hj⟩ hp hd hflag
    rcases hbirth hi with ⟨hi, hlt⟩ | ⟨rfl, rfl⟩ <;> rcases hbirth hj with ⟨hj, hlt'⟩ | ⟨rfl, hb'⟩
    · rw [hkept hlt] at hp
      rw [hkept hlt'] at hd
      exact h.own i j p d ⟨id, hi⟩ ⟨id', hj⟩ hp hd hflag
    · obtain rfl := Option.some.inj (hnew.symm.trans hd)
      rw [hkept hlt] at hp
      exact absurd hflag (hdiffers (by rw [hb']; rfl) hp)
    · obtain rfl := Option.some.inj (hnew.symm.trans hp)
      rw [hkept hlt'] at hd
      exact absurd hflag.symm (hdiffers rfl hd)
    · rfl
  · show flag ∈ signals.raised ↔
      ∃ i ∈ a.cancelled, ∃ d, (f.contexts ++ [c])[i]? = some d ∧ d.flag = flag
    rw [hb.raised, h.raised]
    refine exists_congr fun i => and_congr_right fun hi => ?_
    rw [hkept (h.known i hi)]

/-- One flag more is raised. -/
theorem Follows.cancel (h : f.Follows a) {i : Nat} {c : Context} (hc : f.contexts[i]? = some c) :
    Follows { f with signals := f.signals.raise c.flag }
      { a with cancelled := i :: a.cancelled } where
  length := h.length
  gives := h.gives
  older := h.older
  known := fun j hj => by
    rcases List.mem_cons.1 hj with rfl | hj
    · exact h.lt_births hc
    · exact h.known j hj
  handedOut := h.handedOut
  inherited := h.inherited
  own := h.own
  raised := fun flag => by
    have hfirst : (∃ d, f.contexts[i]? = some d ∧ d.flag = flag) ↔ flag = c.flag := by
      simp [hc, eq_comm]
    simp only [Signals.raise, List.mem_cons, h.raised, exists_eq_or_imp, hfirst]

/-- **One act.** -/
theorem Follows.act (h : f.Follows a) (act : Act) : (f.act act).Follows (a.note act) := by
  cases act with
  | bear b =>
      have hnoted := isSome_newborn h b
      cases hnew : f.newborn b with
      | none =>
          rw [hnew] at hnoted
          simp only [Family.act, Annals.note, hnew, ← hnoted]
          exact h
      | some new =>
          rw [hnew] at hnoted
          simp only [Family.act, Annals.note, hnew, ← hnoted]
          exact h.bear (bears_of_newborn h hnew)
  | cancel i =>
      cases hc : f.contexts[i]? with
      | none =>
          have hi : ¬ i < a.births.length := by
            rw [← h.length]
            exact Nat.not_lt.2 (List.getElem?_eq_none_iff.1 hc)
          simp only [Family.act, Annals.note, hc, if_neg hi]
          exact h
      | some c =>
          simp only [Family.act, Annals.note, hc, if_pos (h.lt_births hc)]
          exact h.cancel hc

theorem follows_empty : empty.Follows .empty where
  length := rfl
  gives := fun j b c hb => by cases hb
  older := fun i j ⟨b, hb, _⟩ => by cases hb
  known := fun i hi => by cases hi
  handedOut := fun c hc => by cases hc
  inherited := fun i j p c ⟨b, hb, _⟩ => by cases hb
  own := fun i j c d ⟨id, hid⟩ => by cases hid
  raised := fun flag => by simp [empty, Annals.empty, Signals.none]

/-- **The contexts of a program are as its annals tell.** -/
theorem follows_run (acts : List Act) : (run acts).Follows (annals acts) := by
  suffices ∀ (f : Family) (a : Annals), f.Follows a →
      (acts.foldl Family.act f).Follows (acts.foldl Annals.note a) from this _ _ follows_empty
  induction acts with
  | nil => exact fun _ _ h => h
  | cons act acts ih => exact fun _ _ h => ih _ _ (h.act act)

/-! ## Kin -/

namespace Follows

/-- Descendants have the flag of the context that they descend from. -/
theorem flag_of_descends (h : f.Follows a) {i j : Nat} {c d : Context}
    (hij : Relation.ReflTransGen a.Parent i j) (hc : f.contexts[i]? = some c)
    (hd : f.contexts[j]? = some d) : d.flag = c.flag := by
  induction hij generalizing d with
  | refl => rw [Option.some.inj (hc.symm.trans hd)]
  | @tail k j _ hparent ih =>
      have hk : k < f.contexts.length :=
        Nat.lt_trans (h.older k j hparent) (List.getElem?_eq_some_iff.1 hd).1
      have hp := List.getElem?_eq_getElem hk
      exact (h.inherited k j _ d hparent hp hd).trans (ih hp)

/-- **Every context descends from one that was created.** -/
theorem exists_root (h : f.Follows a) {j : Nat} (hj : j < a.births.length) :
    ∃ root, a.Created root ∧ Relation.ReflTransGen a.Parent root j := by
  induction j using Nat.strongRecOn with
  | ind j ih =>
      have hb := List.getElem?_eq_getElem hj
      cases hparent : a.births[j].parent? with
      | none =>
          refine ⟨j, ?_, .refl⟩
          cases hbirth : a.births[j] with
          | created id => exact ⟨id, hb.trans (congrArg some hbirth)⟩
          | cloned i =>
              rw [hbirth] at hparent
              cases hparent
          | derived i change =>
              rw [hbirth] at hparent
              cases hparent
      | some i =>
          have hij : a.Parent i j := ⟨_, hb, hparent⟩
          have hi := h.older i j hij
          obtain ⟨root, hroot, hdescends⟩ := ih i hi (Nat.lt_trans hi hj)
          exact ⟨root, hroot, hdescends.tail hij⟩

/-- **Kin have one flag, and all who have it are kin.** -/
theorem flag_eq_iff (h : f.Follows a) {i j : Nat} {c d : Context} (hc : f.contexts[i]? = some c)
    (hd : f.contexts[j]? = some d) : c.flag = d.flag ↔ a.Kin i j := by
  have hfound : ∀ {k : Nat}, a.Created k → ∃ e, f.contexts[k]? = some e := fun ⟨_, hid⟩ =>
    ⟨_, List.getElem?_eq_getElem (h.length ▸ (List.getElem?_eq_some_iff.1 hid).1)⟩
  constructor
  · intro hflag
    obtain ⟨root, hroot, hi⟩ := h.exists_root (h.lt_births hc)
    obtain ⟨root', hroot', hj⟩ := h.exists_root (h.lt_births hd)
    obtain ⟨r, hr⟩ := hfound hroot
    obtain ⟨r', hr'⟩ := hfound hroot'
    have hsame : r.flag = r'.flag := by
      rw [← h.flag_of_descends hi hr hc, ← h.flag_of_descends hj hr' hd, hflag]
    obtain rfl := h.own root root' r r' hroot hroot' hr hr' hsame
    exact ⟨root, hroot, hi, hj⟩
  · rintro ⟨root, hroot, hi, hj⟩
    obtain ⟨r, hr⟩ := hfound hroot
    rw [h.flag_of_descends hi hr hc, h.flag_of_descends hj hr hd]

/-- **A context is cancelled if some kin of it was**, and not otherwise. -/
theorem isCancelled_iff (h : f.Follows a) {j : Nat} {c : Context} (hc : f.contexts[j]? = some c) :
    c.isCancelled f.signals = true ↔ ∃ i ∈ a.cancelled, a.Kin i j := by
  rw [isCancelled, Signals.isRaised, List.contains_iff_mem, h.raised]
  refine exists_congr fun i => and_congr_right fun hi => ?_
  have hd := List.getElem?_eq_getElem (h.length.symm ▸ h.known i hi)
  rw [← h.flag_eq_iff hd hc]
  simp [hd]

end Follows

/-! ## What others do later -/

/-- An act leaves the contexts that there are as they are. -/
theorem prefix_act (f : Family) (act : Act) : f.contexts <+: (f.act act).contexts := by
  cases act with
  | bear b =>
      unfold Family.act
      cases hnew : f.newborn b with
      | none => simp only [hnew]; exact List.prefix_refl _
      | some new => simp only [hnew]; exact List.prefix_append _ _
  | cancel i =>
      unfold Family.act
      cases hc : f.contexts[i]? <;> simp [hc]

theorem prefix_foldl (f : Family) (acts : List Act) :
    f.contexts <+: (acts.foldl act f).contexts := by
  induction acts generalizing f with
  | nil => exact List.prefix_refl _
  | cons act acts ih => exact (prefix_act f act).trans (ih _)

end Family

/-! ## Checks -/

/-- **Whether work may go on**: cancellation first, then the deadline. -/
theorem check_spec (c : Context) (s : Signals) (now : Nat) :
    (c.check s now = .error .cancelled ↔ c.isCancelled s = true) ∧
    (c.check s now = .error .deadlineExceeded ↔
      ¬ c.isCancelled s = true ∧ ∃ t, c.deadline = some t ∧ t ≤ now) ∧
    (c.check s now = .ok () ↔ ¬ c.isCancelled s = true ∧ ∀ t, c.deadline = some t → now < t) := by
  unfold check
  cases c.isCancelled s with
  | true => simp
  | false =>
      cases c.deadline with
      | none => simp
      | some t => by_cases ht : t ≤ now <;> simp [ht, Nat.not_lt.2, Nat.lt_of_not_le]

/-- **Cancellation is shared by kin, and by no others.** After any acts a context is cancelled just
when one that descends from the same created context was, at whatever time. Whatever else it has it
has by its birth, for good: a clone what its parent has, a derived context that but for what it was
derived with, and no act changes a context that there is. A check reports the cancellation first,
then a deadline that has passed, and nothing else. -/
theorem shares_cancellation (acts : List Act) :
    let f := Family.run acts
    let a := annals acts
    f.contexts.length = a.births.length ∧
    (∀ (j : Nat) c, f.contexts[j]? = some c →
      (c.isCancelled f.signals = true ↔ ∃ i ∈ a.cancelled, a.Kin i j) ∧
      (∃ b, a.births[j]? = some b ∧ b.Gives f.contexts c) ∧
      ∀ now,
        (c.check f.signals now = .error .cancelled ↔ ∃ i ∈ a.cancelled, a.Kin i j) ∧
        (c.check f.signals now = .error .deadlineExceeded ↔
          (¬ ∃ i ∈ a.cancelled, a.Kin i j) ∧ ∃ t, c.deadline = some t ∧ t ≤ now) ∧
        (c.check f.signals now = .ok () ↔
          (¬ ∃ i ∈ a.cancelled, a.Kin i j) ∧ ∀ t, c.deadline = some t → now < t)) ∧
    ∀ later, f.contexts <+: (Family.run (acts ++ later)).contexts := by
  intro f a
  have h : f.Follows a := Family.follows_run acts
  refine ⟨h.length, fun j c hc => ?_, fun later => ?_⟩
  · have hcancelled := h.isCancelled_iff hc
    have hb := List.getElem?_eq_getElem (h.lt_births hc)
    refine ⟨hcancelled, ⟨_, hb, h.gives j _ c hb hc⟩, fun now => ?_⟩
    rw [← hcancelled]
    exact check_spec c f.signals now
  · rw [Family.run, List.foldl_append]
    exact Family.prefix_foldl f later

/-- The cancellation of one reaches the clone and the derived context, and not who was created
apart. -/
example :
    let f := Family.run [.bear (.created ⟨1⟩), .bear (.cloned 0), .bear (.derived 1 (.deadline 5)),
      .bear (.created ⟨2⟩), .cancel 2]
    f.contexts.map (·.check f.signals 9) =
      [.error .cancelled, .error .cancelled, .error .cancelled, .ok ()] := rfl

end Registrar.Context
