import Registrar.Proofs.Outbox.Age

set_option autoImplicit false

/-! # Rows by id

In a filed outbox every row decodes and is found under its id (`rowAt`). What an operation does to
one row is said once: it leaves the row as it was, or makes one of the moves that a row can make
(`Op.rowAt_run`). A claim answers rows that were claimable, and they are under its lease afterwards
(`Op.of_mem_taken`). -/

namespace Registrar.Outbox

/-! ## Finding rows -/

theorem Row.isClaimable_iff {r : Row} {now : Instant} :
    r.isClaimable now = true ↔
      r.status = .pending ∧ ∀ t, r.lockedUntil = some t → t ≤ now := by
  unfold isClaimable
  cases r.lockedUntil with
  | none => simp
  | some t => simp

/-- The row with an id. -/
def rowAt (ts : Tables) (id : Uuid) : Option Row := (ts.row? tableName id.text).bind Row.ofJson?

theorem isCivil_of_rowAt {ts : Tables} {id : Uuid} {r : Row} (hr : rowAt ts id = some r) :
    r.IsCivil := by
  obtain ⟨_, -, hread⟩ := Option.bind_eq_some_iff.1 hr
  exact Row.isCivil_of_ofJson? hread

theorem rowAt_eq_some_iff {ts : Tables} (h : Filed ts) {id : Uuid} {r : Row} :
    rowAt ts id = some r ↔
      r.IsCivil ∧ ts.row? tableName id.text = some r.toJson.canonical ∧ r.id = id := by
  unfold rowAt
  constructor
  · intro hr
    cases hrow : ts.row? tableName id.text with
    | none => simp [hrow] at hr
    | some j =>
        obtain ⟨r', hcivil, rfl, hid⟩ := h.find hrow
        rw [hrow, Option.bind_some, hcivil.ofJson?_canonical] at hr
        obtain rfl := Option.some.inj hr
        exact ⟨hcivil, rfl, Uuid.text_inj.1 hid⟩
  · rintro ⟨hcivil, hrow, -⟩
    rw [hrow, Option.bind_some, hcivil.ofJson?_canonical]

theorem id_of_rowAt {ts : Tables} (h : Filed ts) {id : Uuid} {r : Row} (hr : rowAt ts id = some r) :
    r.id = id :=
  ((rowAt_eq_some_iff h).1 hr).2.2

theorem rowAt_set (ts : Tables) {r : Row} (hcivil : r.IsCivil) (id : Uuid) :
    rowAt (ts.set tableName r.id.text r.toJson.canonical) id =
      if id = r.id then some r else rowAt ts id := by
  unfold rowAt
  rw [Tables.row?_set]
  by_cases hid : id = r.id
  · rw [if_pos ⟨rfl, congrArg Uuid.text hid⟩, if_pos hid, Option.bind_some,
      hcivil.ofJson?_canonical]
  · rw [if_neg fun hc => hid (Uuid.text_inj.1 hc.2), if_neg hid]

theorem mem_readableRows_iff_rowAt {ts : Tables} (h : Filed ts) {r : Row} :
    r ∈ readableRows ts ↔ rowAt ts r.id = some r := by
  rw [mem_readableRows_iff h, rowAt_eq_some_iff h, and_iff_left rfl]

/-- A filed outbox is read whole. -/
theorem rows_of_filed {ts : Tables} (h : Filed ts) :
    rows ts = .ok ((ts.table tableName).values.filterMap Row.ofJson?) := by
  have hvalues : ∀ j ∈ (ts.table tableName).values, ∃ r : Row, Row.ofJson? j = some r := by
    intro j hj
    obtain ⟨k, hk⟩ := Keyed.mem_values_iff.1 hj
    obtain ⟨r, rfl, -⟩ := h k j hk
    exact ⟨r.asRead, Row.ofJson?_canonical r⟩
  unfold rows Tables.scan
  generalize (ts.table tableName).values = js at hvalues
  induction js with
  | nil => rfl
  | cons j js ih =>
      obtain ⟨r, hr⟩ := hvalues j List.mem_cons_self
      have hrest := ih fun j' hj' => hvalues j' (List.mem_cons_of_mem _ hj')
      rw [List.mapM_cons, List.filterMap_cons_some hr, hrest, Tables.decode_succeeds_iff.2 hr]
      rfl

/-- The rows of one status are found in a filed outbox. -/
theorem exists_rowsWith {ts : Tables} (h : Filed ts) (status : Status) :
    ∃ rows, rowsWith status ts = .ok rows ∧
      ∀ r, r ∈ rows ↔ rowAt ts r.id = some r ∧ r.status = status := by
  refine ⟨_, by rw [rowsWith, rows_of_filed h]; rfl, fun r => ?_⟩
  rw [(Row.oldestFirst_perm _).mem_iff, List.mem_filter, decide_eq_true_iff,
    ← mem_readableRows_iff_rowAt h]
  exact and_congr_left fun _ => (Row.oldestFirst_perm _).mem_iff.symm

/-! ## Staging rows -/

/-- A row is staged under a free key, or refused. -/
theorem insertRow_spec (context : Except ContextError Unit) (r : Row) (store : Store)
    (tx : Transaction) :
    (∃ err, insertRow context r store (some tx) = (.error err, some tx)) ∨
    tx.row? store.tables tableName r.id.text = none ∧ insertRow context r store (some tx) =
      (.ok (), some (tx.stage tableName r.id.text r.toJson .absent)) := by
  cases context with
  | error e => exact .inl ⟨_, rfl⟩
  | ok _ =>
      cases hinsert : tx.insert store.tables tableName r.id.text r.toJson with
      | error err => exact .inl ⟨.ofStore err, by simp only [insertRow, hinsert]⟩
      | ok tx' =>
          obtain ⟨hfree, rfl⟩ := Transaction.insert_eq_ok_iff.1 hinsert
          exact .inr ⟨hfree, by simp only [insertRow, hinsert]⟩

/-! ## Claims -/

/-- The rows that a claim answers in a filed outbox. -/
def leased (limit : Nat) (lease : Duration) (now : Reading) (ts : Tables) : List Row :=
  ((Row.oldestFirst (((ts.table tableName).values.filterMap Row.ofJson?).filter
    (·.isClaimable now))).take limit).map (·.claim now lease)

theorem claim_of_filed {ts : Tables} (h : Filed ts) (limit : Nat) (lease : Duration)
    (now : Reading) :
    claim limit lease now ts =
      .ok (leased limit lease now ts, storeRows (leased limit lease now ts) ts) := by
  rw [claim, rows_of_filed h]
  rfl

/-- The store after a claim. -/
def afterClaim (limit : Nat) (lease : Duration) (now : Reading) (s : Store) : Store :=
  { s with tables := storeRows (leased limit lease now s.tables) s.tables }

theorem claimPending_of_filed {s : Store} (h : Filed s.tables) (limit : Nat) (lease : Duration)
    (now : Reading) :
    Repository.store.claimPending (.ok ()) limit lease now s =
      (.ok (leased limit lease now s.tables), afterClaim limit lease now s) := by
  show onTables s (claim limit lease now s.tables) = _
  rw [claim_of_filed h]
  rfl

theorem of_mem_leased {limit : Nat} {lease : Duration} {now : Reading} {ts : Tables}
    (h : Filed ts) {r : Row} (hr : r ∈ leased limit lease now ts) :
    ∃ r₀, rowAt ts r.id = some r₀ ∧ r₀.isClaimable now = true ∧ r = r₀.claim now lease := by
  obtain ⟨r₀, hmem, rfl⟩ := List.mem_map.1 hr
  have hfilter := (Row.oldestFirst_perm _).subset (List.mem_of_mem_take hmem)
  obtain ⟨hread, hclaimable⟩ := List.mem_filter.1 hfilter
  have hreadable : r₀ ∈ readableRows ts := (Row.oldestFirst_perm _).mem_iff.2 hread
  exact ⟨r₀, (mem_readableRows_iff_rowAt h).1 hreadable, hclaimable, rfl⟩

/-- What is found after rows were put back that do not contradict one another. -/
theorem rowAt_storeRows {rows : List Row} (found : Uuid → Option Row)
    (h : ∀ r ∈ rows, r.IsCivil ∧ found r.id = some r) (ts : Tables) (id : Uuid) :
    rowAt (storeRows rows ts) id = if id ∈ rows.map (·.id) then found id else rowAt ts id := by
  unfold storeRows
  induction rows generalizing ts with
  | nil => rfl
  | cons r rows ih =>
      obtain ⟨hcivil, hfound⟩ := h r List.mem_cons_self
      rw [List.foldl_cons, ih fun r' hr' => h r' (List.mem_cons_of_mem _ hr'),
        rowAt_set ts hcivil]
      by_cases hrest : id ∈ rows.map (·.id)
      · rw [if_pos hrest, if_pos (by simp only [List.map_cons, List.mem_cons, hrest, or_true])]
      · by_cases hid : id = r.id
        · rw [if_neg hrest, if_pos hid, if_pos (by simp [hid]), hid, hfound]
        · rw [if_neg hrest, if_neg hid, if_neg (by simp [hid, hrest])]

/-- A claim puts what it answers under its lease, and touches nothing else. -/
theorem rowAt_storeRows_leased {limit : Nat} {lease : Duration} {now : Reading} {ts : Tables}
    (h : Filed ts) (id : Uuid) :
    rowAt (storeRows (leased limit lease now ts) ts) id =
      if id ∈ (leased limit lease now ts).map (·.id) then (rowAt ts id).map (·.claim now lease)
      else rowAt ts id := by
  refine rowAt_storeRows (fun id => (rowAt ts id).map (·.claim now lease)) ?_ ts id
  intro r hr
  obtain ⟨r₀, hrow, -, rfl⟩ := of_mem_leased h hr
  exact ⟨(isCivil_of_rowAt hrow).claim now lease,
    congrArg (Option.map (·.claim now lease)) hrow⟩

/-! ## Moves -/

/-- A move succeeds on a row that allows it, and changes that row only. -/
theorem rowAt_move {α : Type} {id : Uuid} {step : Row → Except BadMove Row} {answer : Row → α}
    {ts ts' : Tables} {a : α} (hstep : KeepsWritten step) (h : Filed ts)
    (hm : move id step answer ts = .ok (a, ts')) :
    ∃ r r', rowAt ts id = some r ∧ step r = .ok r' ∧ a = answer r' ∧
      ∀ other, rowAt ts' other = if other = id then some r' else rowAt ts other := by
  obtain ⟨row, r, r', hrow, hread, hr, hanswer, rfl⟩ := move_succeeds_iff.1 hm
  have hfound : rowAt ts id = some r := by rw [rowAt, hrow, Option.bind_some, hread]
  -- The id is part of what was written, so the row goes back where it was found.
  have hwritten : r'.written.id = r.written.id := by rw [hstep.written hr]
  have hid : r'.id = id := by
    rw [← id_of_rowAt h hfound]
    exact hwritten
  refine ⟨r, r', hfound, hr, hanswer, fun other => ?_⟩
  rw [← hid]
  exact rowAt_set ts (hstep.civil hr (isCivil_of_rowAt hfound)) other

/-! ## Operations -/

/-- What an operation makes of a row that it does something to. -/
def Op.Turns : Op → Row → Row → Prop
  | .claim context _ lease now, r, r' =>
      context = .ok () ∧ r.isClaimable now = true ∧ r' = r.claim now lease
  | .markSent context id now, r, r' => context = .ok () ∧ r.id = id ∧ r.markSent now = .ok r'
  | .markFailed context id error now, r, r' =>
      context = .ok () ∧ r.id = id ∧ r.markFailed error now = .ok r'
  | .deadLetter context id, r, r' => context = .ok () ∧ r.id = id ∧ r.deadLetter = .ok r'
  | .requeue context id, r, r' => context = .ok () ∧ r.id = id ∧ r.requeue = .ok r'

/-- The rows that an operation takes: what a claim answers. -/
def Op.taken (s : Store) : Op → List Row
  | .claim context limit lease now =>
      match (Repository.store.claimPending context limit lease now s).1 with
      | .ok rows => rows
      | .error _ => []
  | .markSent .. | .markFailed .. | .deadLetter .. | .requeue .. => []

theorem rowAt_guarded_move {α : Type} {context : Except ContextError Unit} {id : Uuid}
    {step : Row → Except BadMove Row} {answer : Row → α} {s : Store} (hstep : KeepsWritten step)
    (h : Filed s.tables) (other : Uuid) :
    let s' := (onTables s (guardContext context (move id step answer s.tables))).2
    rowAt s'.tables other = rowAt s.tables other ∨
      ∃ r r', rowAt s.tables other = some r ∧ (context = .ok () ∧ r.id = id ∧ step r = .ok r') ∧
        rowAt s'.tables other = some r' := by
  intro s'
  cases hgo : guardContext context (move id step answer s.tables) with
  | error e => exact .inl (by simp only [s', hgo, onTables])
  | ok p =>
      obtain ⟨hactive, hmove⟩ := guardContext_succeeds_iff.1 hgo
      obtain ⟨r, r', hrow, hr, -, hrows⟩ := rowAt_move hstep h hmove
      have hs' : rowAt s'.tables other = if other = id then some r' else rowAt s.tables other := by
        simp only [s', hgo, onTables]
        exact hrows other
      by_cases hother : other = id
      · rw [if_pos hother] at hs'
        rw [← hother] at hrow
        exact .inr ⟨r, r', hrow, ⟨hactive, hother ▸ id_of_rowAt h hrow, hr⟩, hs'⟩
      · rw [if_neg hother] at hs'
        exact .inl hs'

/-- **What an operation does to a row**: nothing, or the move that it is for. -/
theorem Op.rowAt_run {s : Store} (h : Filed s.tables) (op : Op) (id : Uuid) :
    rowAt (op.run s).tables id = rowAt s.tables id ∨
      ∃ r r', rowAt s.tables id = some r ∧ op.Turns r r' ∧
        rowAt (op.run s).tables id = some r' := by
  cases op with
  | claim context limit lease now =>
      cases context with
      | error e => exact .inl rfl
      | ok _ =>
          have hrun : (Op.run s (.claim (.ok ()) limit lease now)).tables =
              storeRows (leased limit lease now s.tables) s.tables := by
            rw [Op.run, claimPending_of_filed h]
            rfl
          rw [hrun, rowAt_storeRows_leased h]
          by_cases hmem : id ∈ (leased limit lease now s.tables).map (·.id)
          · obtain ⟨r, hr, rfl⟩ := List.mem_map.1 hmem
            obtain ⟨r₀, hrow, hclaimable, hclaim⟩ := of_mem_leased h hr
            exact .inr ⟨r₀, r₀.claim now lease, hrow, ⟨rfl, hclaimable, rfl⟩,
              by rw [if_pos hmem, hrow, Option.map_some]⟩
          · exact .inl (if_neg hmem)
  | markSent context id now =>
      exact rowAt_guarded_move (Row.keepsWritten_markSent now) h _
  | markFailed context id error now =>
      exact rowAt_guarded_move (Row.keepsWritten_markFailed error now) h _
  | deadLetter context id =>
      exact rowAt_guarded_move Row.keepsWritten_deadLetter h _
  | requeue context id =>
      exact rowAt_guarded_move Row.keepsWritten_requeue h _

/-- **Sent is for good.** -/
theorem Op.run_sent {s : Store} (h : Filed s.tables) (op : Op) {id : Uuid} {r : Row}
    (hr : rowAt s.tables id = some r) (hsent : r.status = .sent) :
    rowAt (op.run s).tables id = some r := by
  rcases op.rowAt_run h id with hsame | ⟨r₀, r', hr₀, hturns, -⟩
  · exact hsame.trans hr
  · obtain rfl := Option.some.inj (hr.symm.trans hr₀)
    -- A row that turns into another was pending, or had been given up.
    have hnot : ∀ origin target, r.require origin target = .ok () → r.status = origin := by
      intro origin target hrequire
      unfold Row.require at hrequire
      split at hrequire
      · assumption
      · cases hrequire
    cases op with
    | claim context limit lease now =>
        rw [(Row.isClaimable_iff.1 hturns.2.1).1] at hsent
        cases hsent
    | markSent context id' now =>
        rw [hnot _ _ (check_succeeds_iff.1 hturns.2.2).1] at hsent
        cases hsent
    | markFailed context id' error now =>
        rw [hnot _ _ (check_succeeds_iff.1 hturns.2.2).1] at hsent
        cases hsent
    | deadLetter context id' =>
        rw [hnot _ _ (check_succeeds_iff.1 hturns.2.2).1] at hsent
        cases hsent
    | requeue context id' =>
        rw [hnot _ _ (check_succeeds_iff.1 hturns.2.2).1] at hsent
        cases hsent

/-- **Only marking a row as sent makes it sent.** -/
theorem Op.eq_markSent_of_run {s : Store} (h : Filed s.tables) {op : Op} {id : Uuid} {r' : Row}
    (hr' : rowAt (op.run s).tables id = some r') (hsent : r'.status = .sent)
    (hbefore : ∀ r, rowAt s.tables id = some r → r.status ≠ .sent) :
    ∃ now, op = .markSent (.ok ()) id now := by
  rcases op.rowAt_run h id with hsame | ⟨r, r'', hr, hturns, hr''⟩
  · exact absurd hsent (hbefore r' (hsame.symm.trans hr'))
  · obtain rfl := Option.some.inj (hr''.symm.trans hr')
    have hid := id_of_rowAt h hr
    cases op with
    | claim context limit lease now =>
        obtain ⟨-, -, rfl⟩ := hturns
        exact absurd hsent (hbefore r hr)
    | markSent context id' now =>
        obtain ⟨rfl, rfl, -⟩ := hturns
        exact ⟨now, by rw [hid]⟩
    | markFailed context id' error now =>
        obtain ⟨-, hchange⟩ := check_succeeds_iff.1 hturns.2.2
        obtain rfl := pure_succeeds_iff.1 hchange
        exact absurd hsent (hbefore r hr)
    | deadLetter context id' =>
        obtain ⟨-, hchange⟩ := check_succeeds_iff.1 hturns.2.2
        obtain rfl := pure_succeeds_iff.1 hchange
        cases hsent
    | requeue context id' =>
        obtain ⟨-, hchange⟩ := check_succeeds_iff.1 hturns.2.2
        obtain rfl := pure_succeeds_iff.1 hchange
        cases hsent

/-- **What is taken was claimable**, and is under the lease of the claim. -/
theorem Op.of_mem_taken {s : Store} (h : Filed s.tables) {op : Op} {r : Row}
    (hr : r ∈ op.taken s) :
    ∃ limit lease now r₀, op = .claim (.ok ()) limit lease now ∧
      rowAt s.tables r.id = some r₀ ∧ r₀.isClaimable now = true ∧ r = r₀.claim now lease ∧
      rowAt (op.run s).tables r.id = some r := by
  cases op with
  | claim context limit lease now =>
      cases context with
      | error e => cases hr
      | ok _ =>
          have hclaim := claimPending_of_filed h limit lease now
          simp only [taken, hclaim] at hr
          obtain ⟨r₀, hrow, hclaimable, heq⟩ := of_mem_leased h hr
          refine ⟨limit, lease, now, r₀, rfl, hrow, hclaimable, heq, ?_⟩
          simp only [run, hclaim, afterClaim]
          rw [rowAt_storeRows_leased h, if_pos (List.mem_map_of_mem hr), hrow, Option.map_some,
            ← heq]
  | markSent context id now => cases hr
  | markFailed context id error now => cases hr
  | deadLetter context id => cases hr
  | requeue context id => cases hr

end Registrar.Outbox
