import Registrar.Text.Blank
import Registrar.Text.LowerCase

set_option autoImplicit false

/-! # Spellings of a text

Spellings of one text differ in case and in the blanks around it. Trimming takes off the blanks at
both ends and nothing else (`trims_trimChars`), whatever blanks are put around a text that has none
(`trimChars_around`).

The table of the simple lower-case mapping goes by runs of code points, so what holds of all
characters is checked run by run (`CaseRun.avoids`). **No code point that the table maps to is
mapped again, and none is a separator**: the sign `@` or a blank. Nor are separators mapped to
anything else. For a whole text this means that lower-casing it once more changes nothing
(`lower_lower`), and that its separators stay where they are, with something between them where
there was something before (`lowerAfter_plain_append`). The sigma that is written by its place, and
the dotted capital that becomes two characters, are no exceptions. -/

namespace Registrar.Text

/-! ## Trimming -/

/-- Nothing but blanks. -/
def Blank (cs : List Char) : Prop := ∀ c ∈ cs, isBlank c = true

/-- **A text without the blanks around it.** -/
structure Trims (cs core : List Char) : Prop where
  around : ∃ front back, cs = front ++ core ++ back ∧ Blank front ∧ Blank back
  first : ∀ c ∈ core.head?, isBlank c = false
  last : ∀ c ∈ core.getLast?, isBlank c = false

theorem dropWhile_isBlank_append {front : List Char} (hfront : Blank front) {c : Char}
    (hc : isBlank c = false) (rest : List Char) :
    (front ++ c :: rest).dropWhile isBlank = c :: rest := by
  have hstop : ¬ isBlank c = true := by rw [hc]; exact Bool.false_ne_true
  rw [List.dropWhile_append_of_pos hfront, List.dropWhile_cons_of_neg hstop]

/-- **There is one text without the blanks around it**, and trimming finds it. -/
theorem Trims.trimChars_eq {cs core : List Char} (h : Trims cs core) : trimChars cs = core := by
  obtain ⟨⟨front, back, rfl, hfront, hback⟩, hfirst, hlast⟩ := h
  have hback' : Blank back.reverse := fun c hc => hback c (List.mem_reverse.1 hc)
  cases core with
  | nil =>
      have hblank : Blank (front ++ back) := fun c hc =>
        (List.mem_append.1 hc).elim (hfront c) (hback c)
      have hall : (front ++ back ++ []).dropWhile isBlank = [] :=
        List.dropWhile_append_of_pos hblank
      rw [List.append_nil] at hall
      rw [trimChars, List.append_nil, hall]
      rfl
  | cons c cs =>
      rw [trimChars, List.append_assoc, List.cons_append,
        dropWhile_isBlank_append hfront (hfirst c rfl), dropBlankEnd, ← List.cons_append,
        List.reverse_append]
      -- Backwards, the last character of the text comes first.
      cases hrev : (c :: cs).reverse with
      | nil => exact absurd hrev (by simp)
      | cons d ds =>
          have hd : (c :: cs).getLast? = some d := by
            rw [← List.head?_reverse, hrev]
            rfl
          rw [dropWhile_isBlank_append hback' (hlast d hd), ← hrev, List.reverse_reverse]

/-- Blanks around a text that has none come off. -/
theorem trimChars_around {front core back : List Char} (hfront : Blank front)
    (hcore : ∀ c ∈ core, isBlank c = false) (hback : Blank back) :
    trimChars (front ++ core ++ back) = core :=
  Trims.trimChars_eq ⟨⟨front, back, rfl, hfront, hback⟩,
    fun c hc => hcore c (List.mem_of_mem_head? hc), fun c hc => hcore c (List.mem_of_getLast? hc)⟩

theorem trims_trimChars (cs : List Char) : Trims cs (trimChars cs) := by
  let rest := cs.dropWhile isBlank
  have hback : Blank (rest.reverse.takeWhile isBlank).reverse := fun c hc =>
    List.all_eq_true.1 List.all_takeWhile c (List.mem_reverse.1 hc)
  have hrest : rest = trimChars cs ++ (rest.reverse.takeWhile isBlank).reverse := by
    rw [trimChars, dropBlankEnd, ← List.reverse_append, List.takeWhile_append_dropWhile,
      List.reverse_reverse]
  refine ⟨⟨cs.takeWhile isBlank, (rest.reverse.takeWhile isBlank).reverse, ?_, ?_, hback⟩, ?_, ?_⟩
  · rw [List.append_assoc, ← hrest, List.takeWhile_append_dropWhile]
  · exact fun c hc => List.all_eq_true.1 List.all_takeWhile c hc
  · intro c hc
    have hhead : rest.head? = some c := by
      rw [hrest, List.head?_append, hc]
      rfl
    have hnot := List.head?_dropWhile_not isBlank cs
    rw [hhead] at hnot
    simpa using hnot
  · intro c hc
    have hhead : (rest.reverse.dropWhile isBlank).head? = some c := by
      rw [← List.getLast?_reverse]
      exact hc
    have hnot := List.head?_dropWhile_not isBlank rest.reverse
    rw [hhead] at hnot
    simpa using hnot

theorem Trims.eq_nil_iff {cs core : List Char} (h : Trims cs core) : core = [] ↔ Blank cs := by
  obtain ⟨⟨front, back, rfl, hfront, hback⟩, hfirst, -⟩ := h
  constructor
  · rintro rfl c hc
    rw [List.append_nil] at hc
    exact (List.mem_append.1 hc).elim (hfront c) (hback c)
  · intro hblank
    cases core with
    | nil => rfl
    | cons c core =>
        have hc : isBlank c = true := hblank c (by simp)
        rw [hfirst c rfl] at hc
        cases hc

/-- A text that has no blanks around it is left as it is. -/
theorem Trims.trim_ofList {cs core : List Char} (h : Trims cs core) :
    trim (String.ofList core) = String.ofList core := by
  have hnone : Blank [] := fun c hc => by cases hc
  have hcore : Trims core core := ⟨⟨[], [], by simp, hnone, hnone⟩, h.first, h.last⟩
  rw [trim, String.toList_ofList, hcore.trimChars_eq]

/-! ## Runs -/

namespace CaseRun

/-- The lowest code point that a run maps to. -/
def lowest (r : CaseRun) : Nat := (r.first + r.shift).toNat

/-- The highest code point that a run maps to. -/
def highest (r : CaseRun) : Nat := (r.last + r.shift).toNat

/-- The code points that the run `r` maps to are not among those of `r'`: they lie before or after
them, or are every other one between them. -/
def avoids (r r' : CaseRun) : Bool :=
  Nat.blt r.highest r'.first || Nat.blt r'.last r.lowest ||
    ((r.first == r.last || r.step % 2 == 0) && r'.step % 2 == 0 && (r.lowest + r'.first) % 2 == 1)

/-- The run maps characters to characters. -/
def mapsToChars (r : CaseRun) : Bool :=
  0 ≤ r.first + r.shift && (r.highest < 0xD800 || 0xE000 ≤ r.lowest && r.highest < 0x110000)

theorem covers_iff {r : CaseRun} {n : Nat} :
    r.covers n = true ↔ r.first ≤ n ∧ n ≤ r.last ∧ (n - r.first) % r.step = 0 := by
  simp [covers, and_assoc]

theorem even_of_step {a step : Nat} (hstep : step % 2 = 0) (h : a % step = 0) : a % 2 = 0 := by
  have hdvd : 2 ∣ a := Nat.dvd_trans (Nat.dvd_of_mod_eq_zero hstep) (Nat.dvd_of_mod_eq_zero h)
  exact Nat.mod_eq_zero_of_dvd hdvd

/-- A code point of the run is mapped to one from the lowest to the highest. -/
theorem toNat_target {r : CaseRun} (hr : r.mapsToChars = true) {n : Nat}
    (hn : r.covers n = true) :
    (n + r.shift).toNat = r.lowest + (n - r.first) ∧ (n + r.shift).toNat ≤ r.highest := by
  simp only [mapsToChars, Bool.and_eq_true, decide_eq_true_eq] at hr
  obtain ⟨hfirst, hlast, -⟩ := covers_iff.1 hn
  have hpositive := hr.1
  constructor
  · rw [lowest]
    omega
  · rw [highest]
    omega

theorem not_covers_of_avoids {r r' : CaseRun} (h : r.avoids r' = true)
    (hr : r.mapsToChars = true) {n : Nat} (hn : r.covers n = true) :
    r'.covers (n + r.shift).toNat = false := by
  simp only [avoids, Bool.or_eq_true, Bool.and_eq_true, Nat.blt_eq, beq_iff_eq] at h
  obtain ⟨htarget, hhighest⟩ := toNat_target hr hn
  rw [Bool.eq_false_iff]
  intro hm
  obtain ⟨hfirst, hlast, hstep⟩ := covers_iff.1 hn
  obtain ⟨hfirst', hlast', hstep'⟩ := covers_iff.1 hm
  rw [htarget] at hfirst' hlast' hstep' hhighest
  rcases h with (hbefore | hafter) | ⟨⟨hsingle, heven'⟩, hodd⟩
  · omega
  · omega
  · -- Both runs go by even steps, but from places at odds with each other.
    have hsource : (n - r.first) % 2 = 0 := by
      rcases hsingle with hsame | heven
      · omega
      · exact even_of_step heven hstep
    have hplace : (r.lowest + (n - r.first) - r'.first) % 2 = 0 := even_of_step heven' hstep'
    omega

theorem isValidChar_of_mapsToChars {r : CaseRun} (hr : r.mapsToChars = true) {n : Nat}
    (hn : r.covers n = true) : (n + r.shift).toNat.isValidChar := by
  obtain ⟨htarget, hhighest⟩ := toNat_target hr hn
  simp only [mapsToChars, Bool.or_eq_true, Bool.and_eq_true, decide_eq_true_eq] at hr
  unfold Nat.isValidChar
  rcases hr.2 with hlow | ⟨hlow, hhigh⟩
  · omega
  · omega

end CaseRun

/-! ## Separators and capitals -/

/-- The sign between the parts of an address, or a blank. -/
def isSeparator (c : Char) : Bool := c = '@' || isBlank c

/-- The separators as runs, each of which is mapped to itself. -/
def separatorRuns : List CaseRun := [
  ⟨64, 64, 1, 0⟩, ⟨9, 13, 1, 0⟩, ⟨32, 32, 1, 0⟩, ⟨0x85, 0x85, 1, 0⟩, ⟨0xA0, 0xA0, 1, 0⟩,
  ⟨0x1680, 0x1680, 1, 0⟩, ⟨0x2000, 0x200A, 1, 0⟩, ⟨0x2028, 0x2029, 1, 0⟩,
  ⟨0x202F, 0x202F, 1, 0⟩, ⟨0x205F, 0x205F, 1, 0⟩, ⟨0x3000, 0x3000, 1, 0⟩]

/-- The capitals that have no lower case in the table's form. -/
def capitalRuns : List CaseRun := [⟨931, 931, 1, 0⟩, ⟨304, 304, 1, 0⟩]

theorem isSeparator_iff {c : Char} :
    isSeparator c = true ↔ ∃ r ∈ separatorRuns, r.covers c.toNat = true := by
  have hat : c = '@' ↔ c.toNat = 64 := ⟨fun h => h ▸ rfl, fun h => Char.toNat_inj.1 h⟩
  simp only [isSeparator, isBlank, separatorRuns, hat, CaseRun.covers, List.mem_cons,
    List.not_mem_nil, or_false, exists_eq_or_imp, exists_eq_left, Nat.mod_one, Bool.or_eq_true,
    Bool.and_eq_true, decide_eq_true_eq, beq_iff_eq, and_true]
  omega

/-- **The table was checked**: its runs map to characters outside all of its runs, and to neither
separators nor those capitals. -/
theorem lowerCaseRuns_avoid : (lowerCaseRuns.all fun r => r.mapsToChars &&
    (lowerCaseRuns ++ separatorRuns ++ capitalRuns).all r.avoids) = true := by
  decide +kernel

theorem separatorRuns_avoid :
    (separatorRuns.all fun r => r.mapsToChars && lowerCaseRuns.all r.avoids) = true := by
  decide +kernel

/-! ## Characters -/

/-- **Lower-casing leaves the character as it is**, wherever it stands. -/
structure Settled (c : Char) : Prop where
  unmapped : ∀ r ∈ lowerCaseRuns, r.covers c.toNat = false
  sigma : c ≠ 'Σ'
  dotted : c ≠ 'İ'

theorem lowerChar_of_unmapped {c : Char} (h : ∀ r ∈ lowerCaseRuns, r.covers c.toNat = false) :
    lowerChar c = c := by
  have hnone : lowerCaseRuns.find? (·.covers c.toNat) = none := by
    rw [List.find?_eq_none]
    intro r hr
    rw [h r hr]
    exact Bool.false_ne_true
  rw [lowerChar, hnone]

theorem mapsToChars_of_mem {r : CaseRun} (hr : r ∈ lowerCaseRuns) : r.mapsToChars = true := by
  have hchecked := List.all_eq_true.1 lowerCaseRuns_avoid r hr
  rw [Bool.and_eq_true] at hchecked
  exact hchecked.1

/-- What a character is mapped to is in none of these runs. -/
theorem not_covers_target {r : CaseRun} (hr : r ∈ lowerCaseRuns) {n : Nat}
    (hn : r.covers n = true) {r' : CaseRun}
    (hr' : r' ∈ lowerCaseRuns ++ separatorRuns ++ capitalRuns) :
    r'.covers (n + r.shift).toNat = false := by
  have hchecked := List.all_eq_true.1 lowerCaseRuns_avoid r hr
  rw [Bool.and_eq_true] at hchecked
  have havoids : r.avoids r' = true := List.all_eq_true.1 hchecked.2 r' hr'
  exact CaseRun.not_covers_of_avoids havoids hchecked.1 hn

/-- A character is mapped by a run, or not at all. -/
theorem lowerChar_cases (c : Char) :
    (∀ r ∈ lowerCaseRuns, r.covers c.toNat = false) ∨
      ∃ r ∈ lowerCaseRuns, r.covers c.toNat = true ∧
        (lowerChar c).toNat = (c.toNat + r.shift).toNat := by
  cases hfind : lowerCaseRuns.find? (·.covers c.toNat) with
  | none =>
      refine .inl fun r hr => ?_
      have hnot := List.find?_eq_none.1 hfind r hr
      simpa using hnot
  | some r =>
      have hr : r ∈ lowerCaseRuns := List.mem_of_find?_eq_some hfind
      have hcovers : r.covers c.toNat = true := by
        have hfound := List.find?_some hfind
        exact hfound
      have hvalid := CaseRun.isValidChar_of_mapsToChars (mapsToChars_of_mem hr) hcovers
      refine .inr ⟨r, hr, hcovers, ?_⟩
      rw [lowerChar, hfind]
      show (Char.ofNat _).toNat = _
      rw [Char.ofNat, dif_pos hvalid]
      rfl

/-- **What a character is mapped to is settled.** -/
theorem settled_lowerChar {c : Char} (hsigma : c ≠ 'Σ') (hdotted : c ≠ 'İ') :
    Settled (lowerChar c) := by
  rcases lowerChar_cases c with hunmapped | ⟨r, hr, hcovers, htarget⟩
  · rw [lowerChar_of_unmapped hunmapped]
    exact ⟨hunmapped, hsigma, hdotted⟩
  · have hnot : ∀ r' ∈ lowerCaseRuns ++ separatorRuns ++ capitalRuns,
        r'.covers (lowerChar c).toNat = false := fun r' hr' => by
      rw [htarget]
      exact not_covers_target hr hcovers hr'
    refine ⟨fun r' hr' => hnot r' ?_, fun hc => ?_, fun hc => ?_⟩
    · exact List.mem_append_left _ (List.mem_append_left _ hr')
    · have hsigma' := hnot ⟨931, 931, 1, 0⟩ (List.mem_append_right _ (by decide))
      rw [hc] at hsigma'
      revert hsigma'
      decide
    · have hdotted' := hnot ⟨304, 304, 1, 0⟩ (List.mem_append_right _ (by decide))
      rw [hc] at hdotted'
      revert hdotted'
      decide

theorem shift_of_separatorRuns : ∀ r ∈ separatorRuns, r.shift = 0 := by decide

/-- A separator is its own lower case. -/
theorem lowerChar_of_separator {c : Char} (h : isSeparator c = true) : lowerChar c = c := by
  obtain ⟨r, hr, hcovers⟩ := isSeparator_iff.1 h
  have hchecked := List.all_eq_true.1 separatorRuns_avoid r hr
  rw [Bool.and_eq_true] at hchecked
  refine lowerChar_of_unmapped fun r' hr' => ?_
  have havoids : r.avoids r' = true := List.all_eq_true.1 hchecked.2 r' hr'
  have hnot := CaseRun.not_covers_of_avoids havoids hchecked.1 hcovers
  rw [shift_of_separatorRuns r hr] at hnot
  exact hnot

/-- No other character has a separator as its lower case. -/
theorem not_isSeparator_lowerChar {c : Char} (h : isSeparator c = false) :
    isSeparator (lowerChar c) = false := by
  rcases lowerChar_cases c with hunmapped | ⟨r, hr, hcovers, htarget⟩
  · rw [lowerChar_of_unmapped hunmapped]
    exact h
  · rw [Bool.eq_false_iff, ne_eq, isSeparator_iff]
    rintro ⟨r', hr', hcovers'⟩
    have hnot := not_covers_target hr hcovers
      (List.mem_append_left capitalRuns (List.mem_append_right lowerCaseRuns hr'))
    rw [htarget, hnot] at hcovers'
    cases hcovers'

/-! ## Characters in their places -/

/-- The characters that stand for those two capitals. -/
def smalls : List Char := ['ς', 'σ', 'i', Char.ofNat 0x307]

theorem settled_smalls : ∀ d ∈ smalls, Settled d := by
  simp only [smalls, List.forall_mem_cons]
  refine ⟨?_, ?_, ?_, ?_, fun d hd => absurd hd List.not_mem_nil⟩
  all_goals exact ⟨by decide +kernel, by decide, by decide⟩

theorem not_isSeparator_smalls : ∀ d ∈ smalls, isSeparator d = false := by
  simp only [smalls, List.forall_mem_cons]
  refine ⟨?_, ?_, ?_, ?_, fun d hd => absurd hd List.not_mem_nil⟩
  all_goals decide

/-- A character is written as the table has it, except for two capitals. -/
theorem lowerAt_cases (before : List Char) (c : Char) (after : List Char) :
    (c = 'Σ' ∨ c = 'İ') ∧ lowerAt before c after ≠ [] ∧ (∀ d ∈ lowerAt before c after, d ∈ smalls) ∨
      c ≠ 'Σ' ∧ c ≠ 'İ' ∧ lowerAt before c after = [lowerChar c] := by
  unfold lowerAt
  by_cases hsigma : c = 'Σ'
  · rw [if_pos hsigma]
    refine .inl ⟨.inl hsigma, List.cons_ne_nil _ _, ?_⟩
    split
    · simp [smalls]
    · simp [smalls]
  · rw [if_neg hsigma]
    by_cases hdotted : c = 'İ'
    · rw [if_pos hdotted]
      exact .inl ⟨.inr hdotted, List.cons_ne_nil _ _, by simp [smalls]⟩
    · rw [if_neg hdotted]
      exact .inr ⟨hsigma, hdotted, rfl⟩

theorem settled_lowerAt (before : List Char) (c : Char) (after : List Char) :
    ∀ d ∈ lowerAt before c after, Settled d := by
  intro d hd
  rcases lowerAt_cases before c after with ⟨-, -, hsmalls⟩ | ⟨hsigma, hdotted, htable⟩
  · exact settled_smalls d (hsmalls d hd)
  · rw [htable, List.mem_singleton] at hd
    rw [hd]
    exact settled_lowerChar hsigma hdotted

theorem lowerAt_of_settled {c : Char} (h : Settled c) (before after : List Char) :
    lowerAt before c after = [c] := by
  rw [lowerAt, if_neg h.sigma, if_neg h.dotted, lowerChar_of_unmapped h.unmapped]

theorem lowerAt_of_separator {c : Char} (h : isSeparator c = true) (before after : List Char) :
    lowerAt before c after = [c] := by
  rcases lowerAt_cases before c after with ⟨rfl | rfl, -⟩ | ⟨-, -, htable⟩
  · exact absurd h (by decide)
  · exact absurd h (by decide)
  · rw [htable, lowerChar_of_separator h]

/-- Text without separators. -/
def Plain (cs : List Char) : Prop := ∀ c ∈ cs, isSeparator c = false

theorem plain_lowerAt {c : Char} (h : isSeparator c = false) (before after : List Char) :
    Plain (lowerAt before c after) ∧ lowerAt before c after ≠ [] := by
  rcases lowerAt_cases before c after with ⟨-, hne, hsmalls⟩ | ⟨-, -, htable⟩
  · exact ⟨fun d hd => not_isSeparator_smalls d (hsmalls d hd), hne⟩
  · rw [htable]
    refine ⟨fun d hd => ?_, List.cons_ne_nil _ _⟩
    rw [List.mem_singleton.1 hd]
    exact not_isSeparator_lowerChar h

/-! ## Texts -/

theorem settled_lowerAfter (before cs : List Char) : ∀ d ∈ lowerAfter before cs, Settled d := by
  induction cs generalizing before with
  | nil => intro d hd; cases hd
  | cons c cs ih =>
      intro d hd
      rw [lowerAfter, List.mem_append] at hd
      rcases hd with hd | hd
      · exact settled_lowerAt before c cs d hd
      · exact ih (c :: before) d hd

theorem lowerAfter_of_settled {cs : List Char} (h : ∀ c ∈ cs, Settled c) (before : List Char) :
    lowerAfter before cs = cs := by
  induction cs generalizing before with
  | nil => rfl
  | cons c cs ih =>
      have hrest : ∀ d ∈ cs, Settled d := fun d hd => h d (List.mem_cons_of_mem _ hd)
      rw [lowerAfter, lowerAt_of_settled (h c List.mem_cons_self), ih hrest]
      rfl

/-- **Lower case is settled**: lower-casing it again changes nothing. -/
theorem lower_lower (s : String) : lower (lower s) = lower s := by
  have hsettled := settled_lowerAfter [] s.toList
  rw [lower, toList_lower, lowerAfter_of_settled hsettled]
  rfl

/-- The separators of a text are those of its lower case. -/
theorem filter_lowerAfter (before cs : List Char) :
    (lowerAfter before cs).filter isSeparator = cs.filter isSeparator := by
  induction cs generalizing before with
  | nil => rfl
  | cons c cs ih =>
      rw [lowerAfter, List.filter_append, ih]
      cases hc : isSeparator c with
      | true =>
          rw [lowerAt_of_separator hc, List.filter_cons_of_pos hc, List.filter_cons_of_pos hc]
          rfl
      | false =>
          have hnone : (lowerAt before c cs).filter isSeparator = [] := by
            rw [List.filter_eq_nil_iff]
            intro d hd
            rw [(plain_lowerAt hc before cs).1 d hd]
            exact Bool.false_ne_true
          have hskip : ¬ isSeparator c = true := by rw [hc]; exact Bool.false_ne_true
          rw [hnone, List.filter_cons_of_neg hskip]
          rfl

/-- **What stands before a separator stays before it**, and nothing only becomes of nothing. -/
theorem lowerAfter_plain_append {l : List Char} (hl : Plain l) (before rest : List Char) :
    ∃ l', lowerAfter before (l ++ rest) = l' ++ lowerAfter (l.reverse ++ before) rest ∧
      Plain l' ∧ (l' = [] ↔ l = []) := by
  induction l generalizing before with
  | nil => exact ⟨[], rfl, hl, Iff.rfl⟩
  | cons c l ih =>
      have hc : isSeparator c = false := hl c List.mem_cons_self
      obtain ⟨l', hlower, hplain, -⟩ :=
        ih (fun d hd => hl d (List.mem_cons_of_mem _ hd)) (c :: before)
      obtain ⟨hblock, hne⟩ := plain_lowerAt hc before (l ++ rest)
      refine ⟨lowerAt before c (l ++ rest) ++ l', ?_, fun d hd => ?_, ?_⟩
      · rw [List.cons_append, lowerAfter, hlower, List.reverse_cons, List.append_assoc,
          List.append_assoc]
        rfl
      · rcases List.mem_append.1 hd with hd | hd
        · exact hblock d hd
        · exact hplain d hd
      · simp [hne]

end Registrar.Text
