import Mathlib.Data.List.TakeDrop
import Registrar.Proofs.Accounts.TakenAddress
import Registrar.Proofs.Text.Spelling

set_option autoImplicit false

/-! # Spellings of an address

An address is checked in its normal form, trimmed and in lower case. Since lower-casing keeps its
parts apart (`isAddress_lowerAfter_iff`), what is checked is the shape of the text as it was typed
without the blanks around it. **Every spelling that has the shape is taken in its normal form, which
has the shape too and is its own normal form**; every other text is refused as it was typed
(`parse_of_not_isAddress`).

The normal form is the key under which addresses are indexed. So whoever registers under one
spelling is found under every other, and keeps others from registering under it
(`spellings_meet`). -/

namespace Registrar

open Text (Plain isSeparator)

namespace Email

/-! ## The shape of an address -/

/-- **Two parts around the only `@`**, neither of them empty and without blanks. -/
def IsAddress (cs : List Char) : Prop :=
  ∃ l d, cs = l ++ '@' :: d ∧ l ≠ [] ∧ d ≠ [] ∧ Plain l ∧ Plain d

theorem plain_iff {cs : List Char} :
    Plain cs ↔ '@' ∉ cs ∧ ∀ c ∈ cs, Text.isBlank c = false := by
  constructor
  · intro h
    refine ⟨fun hat => absurd (h _ hat) (by decide), fun c hc => ?_⟩
    have hplain := h c hc
    rw [isSeparator, Bool.or_eq_false_iff] at hplain
    exact hplain.2
  · rintro ⟨hat, hblank⟩ c hc
    have hne : c ≠ '@' := fun heq => hat (heq ▸ hc)
    rw [isSeparator, hblank c hc, Bool.or_false]
    exact decide_eq_false hne

theorem IsAddress.not_isBlank {cs : List Char} (h : IsAddress cs) :
    ∀ c ∈ cs, Text.isBlank c = false := by
  obtain ⟨l, d, rfl, -, -, hl, hd⟩ := h
  intro c hc
  rcases List.mem_append.1 hc with hc | hc
  · exact (plain_iff.1 hl).2 c hc
  · rcases List.mem_cons.1 hc with rfl | hc
    · decide
    · exact (plain_iff.1 hd).2 c hc

/-- Text is cut where its only `@` is. -/
theorem span_at {l : List Char} (hl : Plain l) (d : List Char) :
    (l ++ '@' :: d).span (· != '@') = (l, '@' :: d) := by
  have hne : ∀ c ∈ l, (c != '@') = true := fun c hc =>
    bne_iff_ne.2 fun heq => (plain_iff.1 hl).1 (heq ▸ hc)
  rw [List.span_eq_takeWhile_dropWhile, List.takeWhile_append_of_pos hne,
    List.dropWhile_append_of_pos hne]
  simp

theorem isShaped_iff (cs : List Char) : isShaped cs = true ↔ IsAddress cs := by
  constructor
  · intro h
    -- The span ends at the first `@`, and the check finds no other behind it.
    rw [isShaped, List.span_eq_takeWhile_dropWhile] at h
    have hcut := List.takeWhile_append_dropWhile (p := (· != '@')) (l := cs)
    have hbefore : '@' ∉ cs.takeWhile (· != '@') := fun hat =>
      absurd (List.all_eq_true.1 List.all_takeWhile _ hat) (by decide)
    cases hdrop : cs.dropWhile (· != '@') with
    | nil => simp [hdrop] at h
    | cons c d =>
        have hat : c = '@' := by
          have hnot := List.head?_dropWhile_not (· != '@') cs
          rw [hdrop] at hnot
          simpa using hnot
        subst hat
        rw [hdrop] at hcut h
        simp only [Bool.and_eq_true, Bool.not_eq_true', List.isEmpty_eq_false_iff,
          List.any_eq_false, Bool.not_eq_true, List.contains_eq_mem, decide_eq_false_iff_not] at h
        obtain ⟨⟨⟨hlocal, hdomain⟩, hafter⟩, hblank⟩ := h
        refine ⟨_, d, hcut.symm, hlocal, hdomain, plain_iff.2 ⟨hbefore, fun c hc => hblank c ?_⟩,
          plain_iff.2 ⟨hafter, fun c hc => hblank c ?_⟩⟩
        · rw [← hcut]
          exact List.mem_append_left _ hc
        · rw [← hcut]
          exact List.mem_append_right _ (List.mem_cons_of_mem _ hc)
  · intro h
    have hblank := h.not_isBlank
    obtain ⟨l, d, rfl, hlocal, hdomain, hl, hd⟩ := h
    rw [isShaped, span_at hl]
    simp only [Bool.and_eq_true, Bool.not_eq_true', List.isEmpty_eq_false_iff,
      List.any_eq_false, Bool.not_eq_true, List.contains_eq_mem, decide_eq_false_iff_not]
    exact ⟨⟨⟨hlocal, hdomain⟩, (plain_iff.1 hd).1⟩, hblank⟩

theorem IsAddress.separators {cs : List Char} (h : IsAddress cs) :
    cs.filter isSeparator = ['@'] := by
  obtain ⟨l, d, rfl, -, -, hl, hd⟩ := h
  have hnone : ∀ {part : List Char}, Plain part → part.filter isSeparator = [] := fun hpart =>
    List.filter_eq_nil_iff.2 fun c hc => by rw [hpart c hc]; exact Bool.false_ne_true
  rw [List.filter_append, List.filter_cons_of_pos (by decide), hnone hl, hnone hd]
  rfl

/-- The lower case of two parts around a separator. -/
theorem lowerAfter_parts (before : List Char) {l d : List Char} (hl : Plain l) (hd : Plain d) :
    ∃ l' d', Text.lowerAfter before (l ++ '@' :: d) = l' ++ '@' :: d' ∧ Plain l' ∧ Plain d' ∧
      (l' = [] ↔ l = []) ∧ (d' = [] ↔ d = []) := by
  obtain ⟨l', hlower, hl', hempty⟩ := Text.lowerAfter_plain_append hl before ('@' :: d)
  obtain ⟨d', hlower', hd', hempty'⟩ :=
    Text.lowerAfter_plain_append hd ('@' :: (l.reverse ++ before)) []
  rw [List.append_nil, Text.lowerAfter, List.append_nil] at hlower'
  refine ⟨l', d', ?_, hl', hd', hempty, hempty'⟩
  rw [hlower, Text.lowerAfter, Text.lowerAt_of_separator (by decide), hlower']
  rfl

/-- **Lower-casing keeps the shape, and makes none where there was none.** -/
theorem isAddress_lowerAfter_iff (before cs : List Char) :
    IsAddress (Text.lowerAfter before cs) ↔ IsAddress cs := by
  constructor
  · intro h
    -- The same separators: so the text has two parts as well, and they become those of its lower
    -- case.
    have hfilter := h.separators
    rw [Text.filter_lowerAfter, List.filter_eq_cons_iff] at hfilter
    obtain ⟨l, d, rfl, hl, -, hd⟩ := hfilter
    have hplain : Plain l := fun c hc => Bool.eq_false_iff.2 (hl c hc)
    have hplain' : Plain d := fun c hc => Bool.eq_false_iff.2 (List.filter_eq_nil_iff.1 hd c hc)
    obtain ⟨l', d', hlower, hl', hd', hempty, hempty'⟩ := lowerAfter_parts before hplain hplain'
    obtain ⟨l₁, d₁, hlower₁, hne, hne', -, -⟩ := h
    rw [hlower₁] at hlower
    obtain ⟨rfl, -, rfl⟩ := (List.append_cons_inj_of_notMem (plain_iff.1 hl').1
      (plain_iff.1 hd').1).1 hlower.symm
    exact ⟨l, d, rfl, fun hc => hne (hempty.2 hc), fun hc => hne' (hempty'.2 hc), hplain, hplain'⟩
  · rintro ⟨l, d, rfl, hl, hd, hplain, hplain'⟩
    obtain ⟨l', d', hlower, hl', hd', hempty, hempty'⟩ := lowerAfter_parts before hplain hplain'
    exact ⟨l', d', hlower, fun hc => hl (hempty.1 hc), fun hc => hd (hempty'.1 hc), hl', hd'⟩

/-! ## Reading an address -/

theorem isShaped_normal_iff (raw : String) :
    isShaped (Text.lower (Text.trim raw)).toList = true ↔ IsAddress (Text.trim raw).toList := by
  rw [isShaped_iff, Text.toList_lower, isAddress_lowerAfter_iff]

/-- **What has the shape without the blanks around it is taken in lower case.** -/
theorem parse_of_isAddress {raw : String} (h : IsAddress (Text.trim raw).toList) :
    parse raw = .ok ⟨Text.lower (Text.trim raw)⟩ := by
  unfold parse
  rw [if_pos ((isShaped_normal_iff raw).2 h)]

/-- **What has not is refused**, quoted without the blanks around it. -/
theorem parse_of_not_isAddress {raw : String} (h : ¬ IsAddress (Text.trim raw).toList) :
    parse raw = .error (.validation ("invalid email `" ++ Text.trim raw ++ "`")) := by
  unfold parse
  rw [if_neg fun hshaped => h ((isShaped_normal_iff raw).1 hshaped)]

theorem parse_eq_ok_iff {raw : String} {e : Email} :
    parse raw = .ok e ↔
      IsAddress (Text.trim raw).toList ∧ e.text = Text.lower (Text.trim raw) := by
  constructor
  · intro hparse
    by_cases h : IsAddress (Text.trim raw).toList
    · rw [parse_of_isAddress h] at hparse
      exact ⟨h, congrArg Email.text (Except.ok.inj hparse).symm⟩
    · rw [parse_of_not_isAddress h] at hparse
      cases hparse
  · rintro ⟨h, htext⟩
    rw [parse_of_isAddress h, ← htext]

section

variable {raw : String} {e : Email} (h : parse raw = .ok e)

include h

theorem isAddress_of_parse : IsAddress e.text.toList := by
  obtain ⟨haddress, htext⟩ := parse_eq_ok_iff.1 h
  rw [htext, Text.toList_lower, isAddress_lowerAfter_iff]
  exact haddress

/-- **The normal form is read as itself**, whatever blanks are around it. -/
theorem parse_around {front back : String} (hfront : Text.Blank front.toList)
    (hback : Text.Blank back.toList) : parse (front ++ e.text ++ back) = .ok e := by
  have haddress := isAddress_of_parse h
  have htrim : Text.trim (front ++ e.text ++ back) = e.text := by
    rw [← String.toList_inj, Text.toList_trim, String.toList_append, String.toList_append]
    exact Text.trimChars_around hfront haddress.not_isBlank hback
  rw [parse_eq_ok_iff, htrim]
  refine ⟨haddress, ?_⟩
  rw [(parse_eq_ok_iff.1 h).2, Text.lower_lower]

/-- Spellings that have the same normal form are read alike. -/
theorem parse_of_same_normal {raw' : String}
    (hsame : Text.lower (Text.trim raw') = Text.lower (Text.trim raw)) : parse raw' = .ok e := by
  obtain ⟨haddress, htext⟩ := parse_eq_ok_iff.1 h
  rw [parse_eq_ok_iff, hsame]
  refine ⟨?_, htext⟩
  rw [← isShaped_normal_iff, hsame, isShaped_normal_iff]
  exact haddress

end

end Email

namespace Accounts

/-! ## Users under their address -/

/-- **A spelling under which a user is known**: whoever looks for it finds the user, a login with it
is about the user, and nobody else can register with it. -/
structure KnownAs (hasher : Hasher) (store : Store) (id : UserId) (e : Email) (raw : String) :
    Prop where
  found : ∃ view, (Service.over hasher).findUserByEmail .active ⟨raw⟩ store = .ok (some view) ∧
    view.id = id ∧ view.email = e
  target : ∀ password, ∃ u,
    (Service.over hasher).loginTarget .active ⟨raw, password⟩ store = .ok (some u) ∧
      u.id = id ∧ u.email = e
  taken : ∀ password d u (room : Room Store Transaction), room.manager = store →
    newUser hasher ⟨raw, password⟩ d = .returned u →
    ((Service.over hasher).register .active ⟨raw, password⟩ d room).1 = .failed (.emailTaken e.text)

/-- The entry of an address decides what becomes of every spelling of it. -/
theorem knownAs_of_entry (hasher : Hasher) {store : Store} {r : UserRecord}
    (hentry : store.tables.row? emailsTable r.email.text = some (.str r.id.text))
    (huser : store.tables.row? usersTable r.id.text = some r.toJson.canonical) {raw : String}
    (hparse : Email.parse raw = .ok r.email) : KnownAs hasher store r.id r.email raw := by
  -- Look-up and login follow the index to the record; a registration meets the same entry.
  have hfound : userWithEmail r.email store.tables = .ok (some (.restore r.asRead)) := by
    refine userWithEmail_eq_some_iff.2 ⟨r.id.text, hentry, userAt_eq_some_iff.2 ?_⟩
    exact ⟨_, r.asRead, huser, r.ofJson?_canonical, rfl⟩
  refine ⟨⟨(User.restore r.asRead).view, ?_, rfl, rfl⟩,
    fun password => ⟨.restore r.asRead, ?_, rfl, rfl⟩, ?_⟩
  · unfold Service.findUserByEmail
    rw [hparse]
    show (userWithEmail r.email store.tables).bind _ = _
    rw [hfound]
    rfl
  · unfold Service.loginTarget
    rw [hparse]
    exact hfound
  · rintro password d u room rfl hnew
    obtain ⟨hemail, e, hpending⟩ := newUser_spec hnew
    have hsame : u.email = r.email := Except.ok.inj (hemail.symm.trans hparse)
    rw [← hsame] at hentry
    have hrefused : ∃ room', (Service.over hasher).persist .active .new u d.stamps room =
        (.error (.emailTaken u.email.text), room') ∧ _ := persist_taken hasher hpending hentry
    obtain ⟨room', hpersist, -⟩ := hrefused
    show ((Service.over hasher).storing .active .new (newUser hasher ⟨raw, password⟩ d) d _ _).1 = _
    rw [hnew, storing_of_refused hpersist, hsame]

/-- A registration that succeeded has stored the user that it made. -/
theorem register_spec {hasher : Hasher} {watch : Watch} {cmd : RegisterUser} {d : Draws}
    {room room' : Room Store Transaction} {id : UserId}
    (h : (Service.over hasher).register watch cmd d room = (.returned id, room')) :
    ∃ u e, newUser hasher cmd d = .returned u ∧ u.id = id ∧
      Stored .new u e (d.stamps 0) room.manager.tables room'.manager.tables := by
  have hstoring : (Service.over hasher).storing watch .new (newUser hasher cmd d) d (·.id) room =
      (.returned id, room') := h
  cases hnew : newUser hasher cmd d with
  | returned u =>
      obtain ⟨-, e, hpending⟩ := newUser_spec hnew
      rw [hnew] at hstoring
      cases hpersist : (Service.over hasher).persist watch .new u d.stamps room with
      | mk result room₁ => cases result with
        | ok _ =>
            rw [storing_of_persisted hpersist] at hstoring
            obtain rfl : room₁ = room' := congrArg Prod.snd hstoring
            exact ⟨u, e, rfl, Ending.returned.inj (congrArg Prod.fst hstoring),
              stored_of_persist hpending hpersist⟩
        | error err =>
            rw [storing_of_refused hpersist] at hstoring
            cases congrArg Prod.fst hstoring
  | failed err =>
      rw [hnew] at hstoring
      cases congrArg Prod.fst hstoring
  | panicked p =>
      rw [hnew] at hstoring
      cases congrArg Prod.fst hstoring

/-- **All spellings of an address meet.** A text is an address if it has the shape of one without
the blanks around it; otherwise it is refused and quoted without them. What is read of it is its
lower case, which has the shape too and is read as itself with any blanks around it. That is the key
of the index: when a registration under the text succeeds, the key was free and belongs to the new
user, who is known from then on under every text with the same normal form. -/
theorem spellings_meet (raw : String) :
    Text.Trims raw.toList (Text.trim raw).toList ∧
    ((∃ e, Email.parse raw = .ok e) ↔ Email.IsAddress (Text.trim raw).toList) ∧
    (∀ err, Email.parse raw = .error err →
      err = .validation ("invalid email `" ++ Text.trim raw ++ "`")) ∧
    ∀ e, Email.parse raw = .ok e →
      e.text = Text.lower (Text.trim raw) ∧ Email.IsAddress e.text.toList ∧
      (∀ front back : String, Text.Blank front.toList → Text.Blank back.toList →
        Email.parse (front ++ e.text ++ back) = .ok e) ∧
      ∀ (hasher : Hasher) (watch : Watch) (password : String) (d : Draws)
        (room room' : Room Store Transaction) (id : UserId),
        (Service.over hasher).register watch ⟨raw, password⟩ d room = (.returned id, room') →
        room.manager.tables.row? emailsTable e.text = none ∧
        room'.manager.tables.row? emailsTable e.text = some (.str id.text) ∧
        ∀ raw', Text.lower (Text.trim raw') = Text.lower (Text.trim raw) →
          KnownAs hasher room'.manager id e raw' := by
  refine ⟨?_, ⟨?_, ?_⟩, ?_, ?_⟩
  · rw [Text.toList_trim]
    exact Text.trims_trimChars raw.toList
  · rintro ⟨e, hparse⟩
    exact (Email.parse_eq_ok_iff.1 hparse).1
  · intro haddress
    exact ⟨_, Email.parse_of_isAddress haddress⟩
  · intro err hparse
    have hnot : ¬ Email.IsAddress (Text.trim raw).toList := fun haddress => by
      rw [Email.parse_of_isAddress haddress] at hparse
      cases hparse
    rw [Email.parse_of_not_isAddress hnot] at hparse
    exact (Except.error.inj hparse).symm
  · intro e hparse
    refine ⟨(Email.parse_eq_ok_iff.1 hparse).2, Email.isAddress_of_parse hparse,
      fun front back hfront hback => Email.parse_around hparse hfront hback, ?_⟩
    intro hasher watch password d room room' id hregister
    obtain ⟨u, event, hnew, rfl, hstored⟩ := register_spec hregister
    have hemail : u.email = e := Except.ok.inj ((newUser_spec hnew).1.symm.trans hparse)
    subst hemail
    refine ⟨hstored.address_free rfl, hstored.address rfl, fun raw' hsame => ?_⟩
    have hparse' := Email.parse_of_same_normal hparse hsame
    exact knownAs_of_entry hasher (r := u.toRecord) (hstored.address rfl) hstored.user hparse'

/-- A sigma at the end of a part, and a dotted capital. -/
example : (Email.parse "\u3000 ΑΔΑΣ@İzmir.COM\n").toOption = some ⟨"αδας@i\u0307zmir.com"⟩ := by
  decide +kernel

end Accounts

end Registrar
