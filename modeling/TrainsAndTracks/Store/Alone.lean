import TrainsAndTracks.Store.Outcomes
import TrainsAndTracks.Store.Serving

/-!
# What a call does when nobody disturbs it

`Executed σ call r τ`: in the store `σ`, in which other transactions may be open, the call is sent, starts,
runs its statements without waiting for anybody and commits, with no other step in between; it returns `r`
and leaves `τ`. There is one inversion lemma for each stored function, which says all of it: what is
returned, which rows change, and what they were.

* `executed_allocateSeat`, `executed_confirmBooking`, `executed_release`, `executed_sweepExpiredHolds`,
  `executed_getBookingById`, `executed_writeIdempotencyResponse`, `executed_charge`,
  `executed_getDlqJobById`, `executed_markDlqRetried`.
* `finishes_ret`, `Finishes.stmt` — the converse, from which `Store.Executes` builds
  executions.
-/

namespace TrainsAndTracks

open Found

namespace Store

/-- The steps of one more call that nobody disturbs. Source: none: infrastructure. Kind: D -/
def alone (σ : Store) (call : Call) (client : ℕ) (chs : List Choice) : List Action :=
  [.begin call client, .start σ.execs.length] ++ chs.map (.exec σ.execs.length) ++
    [.commit σ.execs.length]

/-- The call is executed alone: it returns `r` and leaves `τ`. Source: none: infrastructure. Kind: D -/
def Executed (σ : Store) (call : Call) (r : Reply) (τ : Store) : Prop :=
  ∃ client chs, run step σ (σ.alone call client chs) = some τ ∧
    τ.execs[σ.execs.length]?.map Exec.pc = some (.done r)

/-- A run keeps the versions writes of their executions. Source: none: infrastructure. Kind: L -/
theorem LocksOk.of_run {σ τ : Store} (h : LocksOk σ) {as : List Action}
    (hrun : run Store.step σ as = some τ) : LocksOk τ :=
  (steps_of_run hrun).invariant (fun _ _ _ hl _ ha => hl.step (step_cases ha)) h

/-- Time passes. Source: none: infrastructure. Kind: L -/
theorem LocksOk.tick {σ : Store} (hl : LocksOk σ) (d : ℕ) : LocksOk { σ with now := σ.now + d } :=
  hl.step (a := .tick d) .tick

/-- A call that is executed alone keeps them too. Source: none: infrastructure. Kind: L -/
theorem Executed.locks {σ τ : Store} {call : Call} {r : Reply} (h : Executed σ call r τ)
    (hl : LocksOk σ) : LocksOk τ := by
  obtain ⟨_, _, hrun, -⟩ := h
  exact hl.of_run hrun

/-- The last execution of `σ.withExec e` runs on alone to its commit: it returns `r` and leaves `τ`.
Source: none: infrastructure. Kind: D -/
def Finishes (σ : Store) (e : Exec) (r : Reply) (τ : Store) : Prop :=
  ∃ chs : List Choice, run step (σ.withExec e)
      (chs.map (.exec σ.execs.length) ++ [.commit σ.execs.length]) = some τ ∧
    τ.execs[σ.execs.length]?.map Exec.pc = some (.done r)

/-- The store after the commit of the last execution. Source: none: infrastructure. Kind: D -/
def committed (σ : Store) (e : Exec) (r : Reply) : Store :=
  { σ with
    seats := σ.seats.commit σ.execs.length
    bookings := σ.bookings.commit σ.execs.length
    advisory := σ.advisory.filter (· ≠ σ.execs.length) }.withExec { e with pc := .done r }

section inversion

variable {σ τ : Store} {e : Exec} {r : Reply} {call : Call}

/-- The transaction of a call that is sent starts. Source: none: infrastructure. Kind: L -/
theorem starts_begin (call : Call) (client : ℕ) : (σ.begin call client).start σ.execs.length =
    some (σ.withExec ⟨call, client, σ.now, .start⟩) := by
  have hexec : (σ.begin call client).execs[σ.execs.length]? = some ⟨call, client, σ.now, .sent⟩ :=
    execs_withExec σ _
  simp only [start, hexec]
  refine congrArg some ?_
  show ({ σ with execs := (σ.withExec _).execs.modify _ _ } : Store) = _
  rw [execs_modify_withExec]
  rfl

/-- A call that is executed starts. Source: none: infrastructure. Kind: L -/
theorem Executed.finishes (h : Executed σ call r τ) :
    ∃ client, Finishes σ ⟨call, client, σ.now, .start⟩ r τ := by
  obtain ⟨client, chs, hrun, hdone⟩ := h
  refine ⟨client, chs, ?_, hdone⟩
  have hrun' : ((σ.begin call client).start σ.execs.length).bind
      (fun σ₁ => run step σ₁ (chs.map (.exec σ.execs.length) ++ [.commit σ.execs.length])) =
      some τ := hrun
  rwa [starts_begin] at hrun'

/-- The last execution runs a statement, or commits. Source: none: infrastructure. Kind: L -/
theorem Finishes.inv (h : Finishes σ e r τ) :
    (∃ (ch : Choice) (st : Stmt) (σ₁ : Store) (chs : List Choice),
      σ.stmt σ.execs.length e.now ch e.call e.pc = some st ∧
      (σ.withExec e).runStmt σ.execs.length st = some σ₁ ∧
      run step σ₁ (chs.map (.exec σ.execs.length) ++ [.commit σ.execs.length]) = some τ ∧
      τ.execs[σ.execs.length]?.map Exec.pc = some (.done r)) ∨
    e.pc = .ret r ∧ τ = σ.committed e r := by
  obtain ⟨chs, hrun, hdone⟩ := h
  cases chs with
  | nil =>
    obtain ⟨call, client, now, pc⟩ := e
    have hcommit : ((σ.withExec ⟨call, client, now, pc⟩).commit σ.execs.length).bind some = some τ := hrun
    simp only [commit, execs_withExec] at hcommit
    split at hcommit
    · rename_i r' heq
      cases heq
      have hτ : σ.committed ⟨call, client, now, .ret r'⟩ r' = τ := by
        refine Option.some.inj (Eq.trans ?_ hcommit)
        simp only [goto, Option.bind_some]
        rw [execs_modify_withExec]
        rfl
      have hexec : τ.execs[σ.execs.length]?.map Exec.pc = some (.done r') := by
        rw [← hτ]
        simp [committed, withExec]
      rw [hexec] at hdone
      cases hdone
      exact .inr ⟨rfl, hτ.symm⟩
    · cases hcommit
  | cons ch chs =>
    have hexec : ((σ.withExec e).exec σ.execs.length ch).bind (fun σ₁ =>
        run step σ₁ (chs.map (.exec σ.execs.length) ++ [.commit σ.execs.length])) = some τ := hrun
    obtain ⟨σ₁, hσ₁, hrest⟩ := Option.bind_eq_some_iff.mp hexec
    simp only [exec, execs_withExec, Option.bind_eq_bind, Option.bind_some, Option.bind_eq_some_iff] at hσ₁
    obtain ⟨st, hst, hrunst⟩ := hσ₁
    rw [stmt_withExec] at hst
    exact .inl ⟨ch, st, σ₁, chs, hst, hrunst, hrest, hdone⟩

/-- An execution that has returned commits. Source: none: infrastructure. Kind: L -/
theorem Finishes.of_ret {r' : Reply} (h : Finishes σ { e with pc := .ret r' } r τ) :
    r' = r ∧ τ = σ.committed e r := by
  rcases h.inv with ⟨ch, st, _, _, hst, -⟩ | ⟨hpc, hτ⟩
  · exact absurd rfl ((runs_of_stmt hst).ne_ret r')
  · cases hpc
    exact ⟨rfl, hτ⟩

/-- An execution that has failed does not commit. Source: none: infrastructure. Kind: L -/
theorem not_finishes_failed : ¬ Finishes σ { e with pc := .failed } r τ := by
  intro h
  rcases h.inv with ⟨ch, st, _, _, hst, -⟩ | ⟨hpc, -⟩
  · exact (runs_of_stmt hst).ne_failed rfl
  · cases hpc

/-- An execution at a statement runs it. Source: none: infrastructure. Kind: L -/
theorem Finishes.of_stmt (h : Finishes σ e r τ) (hpc : ∀ r, e.pc ≠ .ret r) :
    ∃ ch st, σ.stmt σ.execs.length e.now ch e.call e.pc = some st ∧
      (∀ next, st = .select next → Finishes σ { e with pc := next } r τ) ∧
      (∀ us ub next, st = .update us ub next → ∃ seats bookings,
        σ.seats.update σ.execs.length us = some seats ∧
        σ.bookings.update σ.execs.length ub = some bookings ∧
        Finishes { σ with seats := seats, bookings := bookings } { e with pc := next } r τ) ∧
      (∀ next, st = .tryAdvisoryLock next →
        Finishes { σ with advisory := some σ.execs.length } { e with pc := next } r τ) ∧
      (∀ u next, st = .updateKeys u next →
        Finishes { σ with idempotencyKeys := σ.idempotencyKeys.modify u.apply u.key_apply }
          { e with pc := next } r τ) ∧
      st ≠ .raise ∧
      (∀ u next, st = .updateDlqJobs u next →
        Finishes { σ with dlqJobs := σ.dlqJobs.modify u.apply u.key_apply } { e with pc := next } r τ) ∧
      (∀ row next, st = .insertPayment row next → ∃ hnew : σ.payments.find? (key row) = none,
        (∀ p ∈ σ.payments, p.idempotencyKey ≠ row.idempotencyKey) ∧
        Finishes { σ with payments := σ.payments.insert row hnew } { e with pc := next } r τ) := by
  have hfailed : ∀ {chs : List Choice}, run step ((σ.withExec e).fail σ.execs.length)
      (chs.map (.exec σ.execs.length) ++ [.commit σ.execs.length]) = some τ →
      τ.execs[σ.execs.length]?.map Exec.pc ≠ some (.done r) := by
    intro chs hrest hdone
    refine not_finishes_failed (σ := { σ with
      seats := σ.seats.rollback σ.execs.length
      bookings := σ.bookings.rollback σ.execs.length
      advisory := σ.advisory.filter (· ≠ σ.execs.length) }) (e := e) ⟨chs, ?_, hdone⟩
    simp only [fail, goto, execs_modify_withExec] at hrest
    exact hrest
  rcases h.inv with ⟨ch, st, σ₁, chs, hst, hσ₁, hrest, hdone⟩ | ⟨hret, -⟩
  · refine ⟨ch, st, hst, ?_, ?_, ?_, ?_, ?_, ?_, ?_⟩
    · rintro next rfl
      refine ⟨chs, ?_, hdone⟩
      simp only [runStmt, goto, execs_modify_withExec, Option.some.injEq] at hσ₁
      rw [← hσ₁] at hrest
      exact hrest
    · rintro us ub next rfl
      simp only [runStmt] at hσ₁
      split at hσ₁
      · rename_i seats bookings hseats hbookings
        refine ⟨seats, bookings, hseats, hbookings, chs, ?_, hdone⟩
        simp only [goto, execs_modify_withExec, Option.some.injEq] at hσ₁
        rw [← hσ₁] at hrest
        exact hrest
      · cases hσ₁
    · rintro next rfl
      refine ⟨chs, ?_, hdone⟩
      simp only [runStmt, goto, execs_modify_withExec, Option.some.injEq] at hσ₁
      rw [← hσ₁] at hrest
      exact hrest
    · rintro u next rfl
      refine ⟨chs, ?_, hdone⟩
      simp only [runStmt, goto, execs_modify_withExec, Option.some.injEq] at hσ₁
      rw [← hσ₁] at hrest
      exact hrest
    · rintro rfl
      simp only [runStmt, Option.some.injEq] at hσ₁
      rw [← hσ₁] at hrest
      exact hfailed hrest hdone
    · rintro u next rfl
      refine ⟨chs, ?_, hdone⟩
      simp only [runStmt, goto, execs_modify_withExec, Option.some.injEq] at hσ₁
      rw [← hσ₁] at hrest
      exact hrest
    · rintro row next rfl
      simp only [runStmt] at hσ₁
      split at hσ₁
      · rename_i hnew
        split at hσ₁
        · cases hσ₁
          exact absurd hdone (hfailed hrest)
        · rename_i hfresh
          refine ⟨hnew, fun p hp hk => hfresh (List.any_eq_true.mpr ⟨p, hp, beq_iff_eq.mpr hk⟩), chs, ?_,
            hdone⟩
          simp only [goto, execs_modify_withExec, Option.some.injEq] at hσ₁
          rw [← hσ₁] at hrest
          exact hrest
      · cases hσ₁
  · exact absurd hret (hpc r)

/-- What has returned commits. Source: none: infrastructure. Kind: L -/
theorem finishes_ret : Finishes σ { e with pc := .ret r } r (σ.committed e r) := by
  refine ⟨[], ?_, by simp [committed, withExec]⟩
  show ((σ.withExec { e with pc := .ret r }).commit σ.execs.length).bind some = _
  simp only [commit, execs_withExec, goto, Option.bind_some]
  rw [execs_modify_withExec]
  rfl

/-- An execution goes on after a statement that runs. Source: none: infrastructure. Kind: L -/
theorem Finishes.stmt {σ' : Store} {e' : Exec} {st : Stmt} (h : Finishes σ' e' r τ)
    (hexecs : σ'.execs = σ.execs) (ch : Choice)
    (hst : σ.stmt σ.execs.length e.now ch e.call e.pc = some st)
    (hrun : (σ.withExec e).runStmt σ.execs.length st = some (σ'.withExec e')) : Finishes σ e r τ := by
  obtain ⟨chs, hsteps, hdone⟩ := h
  rw [hexecs] at hsteps hdone
  refine ⟨ch :: chs, ?_, hdone⟩
  show ((σ.withExec e).exec σ.execs.length ch).bind _ = _
  simp only [exec, execs_withExec, stmt_withExec, hst, Option.bind_eq_bind, Option.bind_some, hrun]
  exact hsteps

/-- A `SELECT` goes on. Source: none: infrastructure. Kind: L -/
theorem Finishes.select {next : Pc} (h : Finishes σ { e with pc := next } r τ) (ch : Choice)
    (hst : σ.stmt σ.execs.length e.now ch e.call e.pc = some (.select next)) : Finishes σ e r τ := by
  refine h.stmt rfl ch hst ?_
  simp only [runStmt, goto, execs_modify_withExec]
  rfl

/-- An `UPDATE` that need not wait goes on. Source: none: infrastructure. Kind: L -/
theorem Finishes.update {us : Update Seat} {ub : Update Booking} {next : Pc}
    {seats : Versioned ℕ Seat} {bookings : Versioned ℕ Booking}
    (h : Finishes { σ with seats := seats, bookings := bookings } { e with pc := next } r τ) (ch : Choice)
    (hst : σ.stmt σ.execs.length e.now ch e.call e.pc = some (.update us ub next))
    (hseats : σ.seats.update σ.execs.length us = some seats)
    (hbookings : σ.bookings.update σ.execs.length ub = some bookings) : Finishes σ e r τ := by
  have hs : (σ.withExec e).seats.update σ.execs.length us = some seats := hseats
  have hb : (σ.withExec e).bookings.update σ.execs.length ub = some bookings := hbookings
  refine h.stmt rfl ch hst ?_
  simp only [runStmt, hs, hb, goto, execs_modify_withExec]
  rfl

/-- A write to `idempotency_keys` goes on. Source: none: infrastructure. Kind: L -/
theorem Finishes.updateKeys {u : Update IdempotencyRow} {next : Pc}
    (h : Finishes { σ with idempotencyKeys := σ.idempotencyKeys.modify u.apply u.key_apply }
      { e with pc := next } r τ) (ch : Choice)
    (hst : σ.stmt σ.execs.length e.now ch e.call e.pc = some (.updateKeys u next)) :
    Finishes σ e r τ := by
  refine h.stmt rfl ch hst ?_
  simp only [runStmt, goto, execs_modify_withExec]
  rfl

/-- A write to `dlq_jobs` goes on. Source: none: infrastructure. Kind: L -/
theorem Finishes.updateDlqJobs {u : Update DlqJob} {next : Pc}
    (h : Finishes { σ with dlqJobs := σ.dlqJobs.modify u.apply u.key_apply } { e with pc := next } r τ)
    (ch : Choice) (hst : σ.stmt σ.execs.length e.now ch e.call e.pc = some (.updateDlqJobs u next)) :
    Finishes σ e r τ := by
  refine h.stmt rfl ch hst ?_
  simp only [runStmt, goto, execs_modify_withExec]
  rfl

/-- An `INSERT` of a payment with a key of its own goes on. Source: migration `050_payments`. Kind: L -/
theorem Finishes.insertPayment {row : Payment} {next : Pc} (hnew : σ.payments.find? (key row) = none)
    (hfresh : ∀ p ∈ σ.payments, p.idempotencyKey ≠ row.idempotencyKey)
    (h : Finishes { σ with payments := σ.payments.insert row hnew } { e with pc := next } r τ)
    (ch : Choice) (hst : σ.stmt σ.execs.length e.now ch e.call e.pc = some (.insertPayment row next)) :
    Finishes σ e r τ := by
  have hid : (σ.withExec e).payments.find? (key row) = none := hnew
  have hkey : ((σ.withExec e).payments.rows.any fun p => p.idempotencyKey == row.idempotencyKey) = false :=
    List.any_eq_false.mpr fun p hp hk => hfresh p hp (beq_iff_eq.mp hk)
  refine h.stmt rfl ch hst ?_
  simp only [runStmt, hid, hkey, goto, execs_modify_withExec]
  rfl

/-- A call that is sent starts. Source: none: infrastructure. Kind: L -/
theorem Finishes.executed {client : ℕ} (h : Finishes σ ⟨call, client, σ.now, .start⟩ r τ) :
    Executed σ call r τ := by
  obtain ⟨chs, hrun, hdone⟩ := h
  refine ⟨client, chs, ?_, hdone⟩
  show ((σ.begin call client).start σ.execs.length).bind _ = _
  rw [starts_begin]
  exact hrun

end inversion

/-! ## The stored functions -/

/-- The rest of the store after one more call that may have changed seats and bookings. Source: none:
infrastructure. Kind: D -/
structure Leaves (σ τ : Store) (seats : Versioned ℕ Seat) (bookings : Versioned ℕ Booking) : Prop where
  seats : τ.seats = seats
  bookings : τ.bookings = bookings
  trains : τ.trains = σ.trains
  payments : τ.payments = σ.payments
  idempotencyKeys : τ.idempotencyKeys = σ.idempotencyKeys
  dlqJobs : τ.dlqJobs = σ.dlqJobs
  advisory : τ.advisory = σ.advisory.filter (· ≠ σ.execs.length)
  now : τ.now = σ.now
  length : τ.execs.length = σ.execs.length + 1

/-- The booking has the status. Source: migration `060_bookings`. Kind: D -/
def HasStatus (σ : Store) (b : BookingId) (status : BookingStatus) : Prop :=
  ∃ row, σ.bookings.committed.find? b = some row ∧ row.status = status

/-- A seat that is freed keeps its key. Source: none: infrastructure. Kind: L -/
theorem key_freed (s : Seat) : Keyed.key (freed s) = Keyed.key s := rfl

/-- `RESERVED` seats of the booking are freed. Source: migration `20260418000000_split_release_hold`.
Kind: D -/
def freeHeld (b : BookingId) : Update Seat where
  cond s := s.heldFor b
  set := freed
  key_set := key_freed

/-- Expired holds are freed. Source: migration `130_fn_sweep_expired_holds`. Kind: D -/
def freeExpired (now : Time) : Update Seat where
  cond s := s.expiredAt now
  set := freed
  key_set := key_freed

section functions

variable {σ τ : Store} {r : Reply} {b : BookingId} {e : Exec}

/-- A transaction to come has no locks. Source: none: infrastructure. Kind: L -/
theorem LocksOk.seat_lock_ne (hl : LocksOk σ) (k : SeatId) (w : Seat) :
    σ.seats.lock k ≠ some (σ.execs.length, w) := by
  intro hlock
  obtain ⟨_, -, e, he, -⟩ := hl.seats k _ w hlock
  have hlt := (List.getElem?_eq_some_iff.mp he).1
  omega

/-- A transaction to come has no locks. Source: none: infrastructure. Kind: L -/
theorem LocksOk.booking_lock_ne (hl : LocksOk σ) (k : BookingId) (w : Booking) :
    σ.bookings.lock k ≠ some (σ.execs.length, w) := by
  intro hlock
  obtain ⟨_, -, e, he, -⟩ := hl.bookings k _ w hlock
  have hlt := (List.getElem?_eq_some_iff.mp he).1
  omega

/-- A statement that writes the rows another one writes does the same. Source: none: infrastructure.
Kind: L -/
theorem modify_eq_of_cond {ρ κ : Type*} [Keyed ρ κ] [DecidableEq κ] {v : Versioned ℕ ρ} {u u' : Update ρ}
    (hset : u.set = u'.set) (hcond : ∀ r ∈ v.committed, u.cond r = u'.cond r) :
    v.modify u = v.modify u' := by
  have hrows : v.committed.modify u.apply u.key_apply = v.committed.modify u'.apply u'.key_apply :=
    Table.modify_congr fun r hr => by
      unfold Update.apply
      rw [hcond r hr, hset]
  exact Versioned.ext_committed_lock hrows fun _ => rfl

/-- What the commit leaves. Source: none: infrastructure. Kind: L -/
theorem leaves_committed (seats : Versioned ℕ Seat) (bookings : Versioned ℕ Booking) {a : Option ℕ}
    (ha : a.filter (· ≠ σ.execs.length) = σ.advisory.filter (· ≠ σ.execs.length)) :
    Leaves σ ({ σ with seats := seats, bookings := bookings, advisory := a }.committed e r)
      (seats.commit σ.execs.length) (bookings.commit σ.execs.length) :=
  ⟨rfl, rfl, rfl, rfl, rfl, rfl, ha, rfl, by simp [committed, withExec]⟩

/-- What the commit of a transaction that has written nothing leaves. Source: none: infrastructure.
Kind: L -/
theorem LocksOk.leaves (hl : LocksOk σ) : Leaves σ (σ.committed e r) σ.seats σ.bookings := by
  have h := leaves_committed (σ := σ) (e := e) (r := r) σ.seats σ.bookings (a := σ.advisory) rfl
  rwa [Versioned.commit_eq_self hl.seat_lock_ne, Versioned.commit_eq_self hl.booking_lock_ne] at h

/-- What the commit of a transaction that has written seats leaves. Source: none: infrastructure.
Kind: L -/
theorem LocksOk.leaves_seats (hl : LocksOk σ) {us : Update Seat} {seats : Versioned ℕ Seat} {a : Option ℕ}
    (hseats : σ.seats.update σ.execs.length us = some seats)
    (ha : a.filter (· ≠ σ.execs.length) = σ.advisory.filter (· ≠ σ.execs.length)) :
    Leaves σ ({ σ with seats := seats, advisory := a }.committed e r) (σ.seats.modify us) σ.bookings := by
  have h := leaves_committed (e := e) (r := r) seats σ.bookings ha
  rwa [Versioned.commit_update hseats hl.seat_lock_ne, Versioned.commit_eq_self hl.booking_lock_ne] at h

/-- What the commit of a transaction that has written both leaves. Source: none: infrastructure.
Kind: L -/
theorem LocksOk.leaves_both (hl : LocksOk σ) {us : Update Seat} {seats : Versioned ℕ Seat}
    {ub : Update Booking} {bookings : Versioned ℕ Booking} {a : Option ℕ}
    (hseats : σ.seats.update σ.execs.length us = some seats)
    (hbookings : σ.bookings.update σ.execs.length ub = some bookings)
    (ha : a.filter (· ≠ σ.execs.length) = σ.advisory.filter (· ≠ σ.execs.length)) :
    Leaves σ ({ σ with seats := seats, bookings := bookings, advisory := a }.committed e r)
      (σ.seats.modify us) (σ.bookings.modify ub) := by
  have h := leaves_committed (e := e) (r := r) seats bookings ha
  rwa [Versioned.commit_update hseats hl.seat_lock_ne,
    Versioned.commit_update hbookings hl.booking_lock_ne] at h

/-- **`allocate_seat` alone** returns a live hold of the booking, or takes the lowest free seat that
nobody has locked, or returns no row. Source: migration `100_fn_allocate_seat`. Kind: L -/
theorem executed_allocateSeat {train : TrainId} {passenger : String} {hold : ℕ} (hl : LocksOk σ)
    (h : Executed σ (.allocateSeat train b passenger hold) r τ) :
    (∃ s ∈ σ.seats.committed, s.bookingId = some b ∧ s.liveAt σ.now = true ∧
      r = .allocated (some (s.id, s.version)) ∧ Leaves σ τ σ.seats σ.bookings) ∨
    ((∀ s ∈ σ.seats.committed, s.bookingId = some b → s.liveAt σ.now = false) ∧
      ((σ.pickAvailable σ.execs.length train = none ∧ r = .allocated none ∧
        Leaves σ τ σ.seats σ.bookings) ∨
      ∃ s, σ.pickAvailable σ.execs.length train = some s ∧
        r = .allocated (some (s.id, s.version + 1)) ∧
        Leaves σ τ (σ.seats.modify (reserve s.id b passenger (σ.now + hold))) σ.bookings)) := by
  obtain ⟨client, hfin⟩ := h.finishes
  obtain ⟨ch, st, hstmt, hselect, -⟩ := hfin.of_stmt (by simp)
  have hst : σ.allocateSeat σ.execs.length σ.now ch train b passenger hold .start = some st := hstmt
  simp only [allocateSeat] at hst
  split at hst
  · rename_i s hlive
    obtain ⟨hs, hb, hliveAt⟩ := liveHold_eq_some hlive
    cases hst
    obtain ⟨rfl, rfl⟩ := (hselect _ rfl).of_ret
    exact .inl ⟨s, hs, hb, hliveAt, rfl, hl.leaves⟩
  · rename_i hlive
    cases hst
    refine .inr ⟨liveHold_eq_none hlive, ?_⟩
    obtain ⟨ch', st', hstmt', hselect', hupdate', -, -, hraise, -⟩ := (hselect _ rfl).of_stmt (by simp)
    have hst' : σ.allocateSeat σ.execs.length σ.now ch' train b passenger hold .allocatePick = some st' :=
      hstmt'
    simp only [allocateSeat] at hst'
    split at hst'
    · rename_i hpick
      cases hst'
      obtain ⟨rfl, rfl⟩ := (hselect' _ rfl).of_ret
      exact .inl ⟨hpick, rfl, hl.leaves⟩
    · rename_i s hpick
      split at hst'
      · cases hst'
        exact absurd rfl hraise
      · cases hst'
        obtain ⟨seats, bookings, hseats, hbookings, hrest⟩ := hupdate' _ _ _ rfl
        rw [Versioned.update_skip] at hbookings
        cases hbookings
        obtain ⟨rfl, rfl⟩ := hrest.of_ret
        refine .inr ⟨s, hpick, rfl, ?_⟩
        exact hl.leaves_seats hseats rfl

/-- The booking can be confirmed at once: it is `PENDING`, the seat is a live hold of it, the payment
exists, and nobody has locked its row or the seat. Source: migration `110_fn_confirm_booking`. Kind: D -/
def confirmable (σ : Store) (b : BookingId) (seat : SeatId) (payment : PaymentId) : Bool :=
  ((σ.bookings.committed.find? b).any fun row => row.status == .pending) &&
  ((σ.seats.committed.find? seat).any fun s => (confirmSeatUpdate b seat σ.now).cond s) &&
  (σ.payments.find? payment).isSome && (σ.seats.lock seat).isNone && (σ.bookings.lock b).isNone

/-- A booking that can be confirmed at once, spelled out. Source: migration `110_fn_confirm_booking`.
Kind: L -/
theorem confirmable_iff {seat : SeatId} {payment : PaymentId} : σ.confirmable b seat payment = true ↔
    (∃ row, σ.bookings.committed.find? b = some row ∧ row.status = .pending) ∧
    (∃ s, σ.seats.committed.find? seat = some s ∧ (confirmSeatUpdate b seat σ.now).cond s = true) ∧
    (σ.payments.find? payment).isSome = true ∧ σ.seats.lock seat = none ∧ σ.bookings.lock b = none := by
  simp only [confirmable, Bool.and_eq_true, Option.any_eq_true, beq_iff_eq, Option.isNone_iff_eq_none,
    and_assoc]

/-- **`confirm_booking` alone** confirms a booking that can be; or it returns no row and changes nothing,
and then the booking is not `PENDING` or the seat is no live hold of it. Source: migration
`110_fn_confirm_booking`. Kind: L -/
theorem executed_confirmBooking {seat : SeatId} {payment : PaymentId} (hl : LocksOk σ)
    (h : Executed σ (.confirmBooking b seat payment) r τ) :
    (((∀ row, σ.bookings.committed.find? b = some row → row.status ≠ .pending) ∨
        ∀ s ∈ σ.seats.committed, (confirmSeatUpdate b seat σ.now).cond s = false) ∧
      r = .confirmed none ∧ Leaves σ τ σ.seats σ.bookings) ∨
    (σ.confirmable b seat payment = true ∧ r = .confirmed (some b) ∧
      Leaves σ τ (σ.seats.modify (confirmSeatUpdate b seat σ.now))
        (σ.bookings.modify (confirmRowUpdate b seat payment σ.now))) := by
  obtain ⟨client, hfin⟩ := h.finishes
  obtain ⟨ch, st, hstmt, hselect, -⟩ := hfin.of_stmt (by simp)
  have hst : σ.confirmBooking σ.now b seat payment .start = some st := hstmt
  simp only [confirmBooking] at hst
  split at hst
  · rename_i row hrow
    split at hst
    · rename_i hpending
      cases hst
      obtain ⟨ch', st', hstmt', hselect', hupdate', -⟩ := (hselect _ rfl).of_stmt (by simp)
      have hst' : σ.confirmBooking σ.now b seat payment .confirmSeat = some st' := hstmt'
      simp only [confirmBooking] at hst'
      split at hst'
      · rename_i hempty
        cases hst'
        obtain ⟨rfl, rfl⟩ := (hselect' _ rfl).of_ret
        exact .inl ⟨.inr (select_isEmpty_iff.mp hempty), rfl, hl.leaves⟩
      · rename_i hsome
        cases hst'
        obtain ⟨s, hs, hcond⟩ := exists_of_select_nonempty hsome
        obtain ⟨seats, bookings, hseats, hbookings, hrest⟩ := hupdate' _ _ _ rfl
        rw [Versioned.update_skip] at hbookings
        cases hbookings
        obtain ⟨ch'', st'', hstmt'', hselect'', hupdate'', -, -, hraise, -⟩ := hrest.of_stmt (by simp)
        have hst'' : ({ σ with seats := seats } : Store).confirmBooking σ.now b seat payment .confirmRow =
            some st'' := hstmt''
        simp only [confirmBooking] at hst''
        split at hst''
        · -- the row has not changed since it was read
          rename_i hnone
          have hmatch := select_isEmpty_iff.mp hnone row (Table.mem_of_find? hrow)
          have hcondrow : (confirmRowUpdate b seat payment σ.now).cond row = true :=
            confirmRowUpdate_cond_iff.mpr ⟨Table.key_of_find? hrow, by simpa using hpending⟩
          rw [hcondrow] at hmatch
          cases hmatch
        · split at hst''
          · cases hst''
            exact absurd rfl hraise
          · rename_i hpayment
            cases hst''
            obtain ⟨seats', bookings, hseats', hbookings, hlast⟩ := hupdate'' _ _ _ rfl
            rw [Versioned.update_skip] at hseats'
            cases hseats'
            obtain ⟨rfl, rfl⟩ := hlast.of_ret
            have hpending' : row.status = .pending := by simpa using hpending
            have hseat : σ.seats.committed.find? seat = some s :=
              Table.find?_eq_some_iff.mpr ⟨hs, (confirmSeatUpdate_cond_iff.mp hcond).1⟩
            have hcondrow : (confirmRowUpdate b seat payment σ.now).cond row = true :=
              confirmRowUpdate_cond_iff.mpr ⟨Table.key_of_find? hrow, hpending'⟩
            have hfree : σ.seats.lock seat = none :=
              Versioned.lock_eq_none_of_update hseats hl.seat_lock_ne hseat hcond
            have hfree' : σ.bookings.lock b = none :=
              Versioned.lock_eq_none_of_update hbookings hl.booking_lock_ne hrow hcondrow
            refine .inr ⟨confirmable_iff.mpr ⟨⟨row, hrow, hpending'⟩, ⟨s, hseat, hcond⟩, ?_, hfree, hfree'⟩,
              rfl, hl.leaves_both hseats hbookings rfl⟩
            simpa [Option.isNone_iff_eq_none, Option.isSome_iff_ne_none] using hpayment
    · rename_i hpending
      cases hst
      obtain ⟨rfl, rfl⟩ := (hselect _ rfl).of_ret
      refine .inl ⟨.inl fun row' hrow' hpending' => ?_, rfl, hl.leaves⟩
      obtain rfl := Option.eq_some_unique hrow hrow'
      exact hpending (beq_iff_eq.mpr hpending')
  · rename_i hnone
    cases hst
    obtain ⟨rfl, rfl⟩ := (hselect _ rfl).of_ret
    refine .inl ⟨.inl fun row hrow => ?_, rfl, hl.leaves⟩
    rw [hnone] at hrow
    cases hrow

/-- The snapshot of a release has the seats it is for. Source: migration
`20260418000000_split_release_hold`. Kind: L -/
theorem releaseSeatsUpdate_snapshot :
    ∀ s ∈ σ.seats.committed, (releaseSeatsUpdate b
      ((σ.seats.committed.select (·.heldFor b)).map Seat.id)).cond s = (freeHeld b).cond s := by
  intro s hs
  show (List.contains _ s.id && s.heldFor b) = s.heldFor b
  cases hheld : s.heldFor b with
  | false => exact Bool.and_false _
  | true =>
    rw [Bool.and_true, List.contains_iff_mem]
    exact List.mem_map_of_mem (Table.mem_select.mpr ⟨hs, hheld⟩)

/-- The rows a release selects. Source: migration `20260418000000_split_release_hold`. Kind: L -/
theorem select_releaseSeatsUpdate :
    σ.seats.committed.select (releaseSeatsUpdate b
      ((σ.seats.committed.select (·.heldFor b)).map Seat.id)).cond =
      σ.seats.committed.select (·.heldFor b) :=
  List.filter_congr releaseSeatsUpdate_snapshot

/-- **A release alone** frees the `RESERVED` seats of the booking and, given a reason, fails the booking
if it is `PENDING`; it returns how many seats. Source: migrations `120_fn_release_hold`,
`20260418000000_split_release_hold`. Kind: L -/
theorem executed_release {call : Call} {why : Option String} (hl : LocksOk σ)
    (hcall : call.releases = some (b, why)) (h : Executed σ call r τ) :
    r = .released (σ.seats.committed.select (·.heldFor b)).length ∧
      Leaves σ τ (σ.seats.modify (freeHeld b))
        (σ.bookings.modify (why.elim .skip (failRowUpdate b))) := by
  have hfrees : σ.seats.modify (releaseSeatsUpdate b
      ((σ.seats.committed.select (·.heldFor b)).map Seat.id)) = σ.seats.modify (freeHeld b) :=
    modify_eq_of_cond rfl releaseSeatsUpdate_snapshot
  have hrelease : ∀ (σ₁ : Store) i now ch pc, σ₁.stmt i now ch call pc = σ₁.release b why pc := by
    intro σ₁ i now ch pc
    cases call <;> cases hcall <;> rfl
  obtain ⟨client, hfin⟩ := h.finishes
  obtain ⟨ch, st, hst, hselect, -⟩ := hfin.of_stmt (by simp)
  rw [hrelease] at hst
  cases hst
  obtain ⟨ch', st', hst', -, hupdate', -⟩ := (hselect _ rfl).of_stmt (by simp)
  rw [hrelease] at hst'
  simp only [release] at hst'
  cases hst'
  obtain ⟨seats, bookings, hseats, hbookings, hrest⟩ := hupdate' _ _ _ rfl
  rw [Versioned.update_skip] at hbookings
  cases hbookings
  rw [select_releaseSeatsUpdate] at hrest
  cases why with
  | none =>
    obtain ⟨rfl, rfl⟩ := hrest.of_ret
    refine ⟨rfl, ?_⟩
    have hskip : σ.bookings.modify .skip = σ.bookings := Versioned.modify_eq_self fun _ _ => rfl
    rw [← hfrees, Option.elim_none, hskip]
    exact hl.leaves_seats hseats rfl
  | some why =>
    obtain ⟨ch'', st'', hst'', -, hupdate'', -⟩ := hrest.of_stmt (by simp)
    rw [hrelease] at hst''
    cases hst''
    obtain ⟨seats', bookings, hseats', hbookings, hlast⟩ := hupdate'' _ _ _ rfl
    rw [Versioned.update_skip] at hseats'
    cases hseats'
    obtain ⟨rfl, rfl⟩ := hlast.of_ret
    refine ⟨rfl, ?_⟩
    rw [← hfrees]
    exact hl.leaves_both hseats hbookings rfl

/-- The snapshot of a sweep has the seats it is for. Source: migration `130_fn_sweep_expired_holds`.
Kind: L -/
theorem sweepSeatsUpdate_snapshot {now : Time} :
    ∀ s ∈ σ.seats.committed, (sweepSeatsUpdate
      ((σ.seats.committed.select (·.expiredAt now)).map Seat.id) now).cond s = (freeExpired now).cond s := by
  intro s hs
  show (List.contains _ s.id && s.expiredAt now) = s.expiredAt now
  cases hexp : s.expiredAt now with
  | false => exact Bool.and_false _
  | true =>
    rw [Bool.and_true, List.contains_iff_mem]
    exact List.mem_map_of_mem (Table.mem_select.mpr ⟨hs, hexp⟩)

/-- **A sweep alone** is skipped when another one holds the advisory lock; else it frees the expired holds
and expires the `PENDING` bookings they name. Source: migration `130_fn_sweep_expired_holds`. Kind: L -/
theorem executed_sweepExpiredHolds (hl : LocksOk σ) (h : Executed σ .sweepExpiredHolds r τ) :
    (σ.advisory.isSome = true ∧ r = .swept 0 true ∧ Leaves σ τ σ.seats σ.bookings) ∨
    (σ.advisory = none ∧ r = .swept (σ.seats.committed.select (·.expiredAt σ.now)).length false ∧
      Leaves σ τ (σ.seats.modify (freeExpired σ.now))
        (σ.bookings.modify (sweepRowsUpdate (σ.seats.committed.select (·.expiredAt σ.now))))) := by
  obtain ⟨client, hfin⟩ := h.finishes
  obtain ⟨ch, st, hstmt, hselect, -, hlock, -⟩ := hfin.of_stmt (by simp)
  have hst : σ.sweepExpiredHolds σ.now .start = some st := hstmt
  simp only [sweepExpiredHolds] at hst
  split at hst
  · rename_i hadvisory
    cases hst
    obtain ⟨rfl, rfl⟩ := (hselect _ rfl).of_ret
    exact .inl ⟨hadvisory, rfl, hl.leaves⟩
  · rename_i hadvisory
    cases hst
    have hfree : σ.advisory = none := by simpa using hadvisory
    obtain ⟨ch', st', hstmt', hselect', -⟩ := (hlock _ rfl).of_stmt (by simp)
    have hst' : σ.sweepExpiredHolds σ.now .sweepSnapshot = some st' := hstmt'
    cases hst'
    obtain ⟨ch'', st'', hstmt'', -, hupdate'', -⟩ := (hselect' _ rfl).of_stmt (by simp)
    have hst'' : σ.sweepExpiredHolds σ.now
        (.sweepRun ((σ.seats.committed.select (·.expiredAt σ.now)).map Seat.id)) = some st'' := hstmt''
    have htargets : σ.seats.committed.select (sweepSeatsUpdate
        ((σ.seats.committed.select (·.expiredAt σ.now)).map Seat.id) σ.now).cond =
        σ.seats.committed.select (·.expiredAt σ.now) :=
      List.filter_congr sweepSeatsUpdate_snapshot
    simp only [sweepExpiredHolds, htargets] at hst''
    cases hst''
    obtain ⟨seats, bookings, hseats, hbookings, hlast⟩ := hupdate'' _ _ _ rfl
    obtain ⟨rfl, rfl⟩ := hlast.of_ret
    refine .inr ⟨hfree, rfl, ?_⟩
    have hfrees : σ.seats.modify (sweepSeatsUpdate
        ((σ.seats.committed.select (·.expiredAt σ.now)).map Seat.id) σ.now) =
        σ.seats.modify (freeExpired σ.now) :=
      modify_eq_of_cond rfl sweepSeatsUpdate_snapshot
    rw [← hfrees]
    refine hl.leaves_both hseats hbookings ?_
    rw [hfree]
    simp

/-- **`getBookingById` alone** returns the row of the booking. Source: `lib/db/repositories/bookings.ts`
`getBookingById`. Kind: L -/
theorem executed_getBookingById (hl : LocksOk σ) (h : Executed σ (.getBookingById b) r τ) :
    r = .booking (σ.bookings.committed.find? b) ∧ Leaves σ τ σ.seats σ.bookings := by
  obtain ⟨client, hfin⟩ := h.finishes
  obtain ⟨ch, st, hstmt, hselect, -⟩ := hfin.of_stmt (by simp)
  cases hstmt
  obtain ⟨rfl, rfl⟩ := (hselect _ rfl).of_ret
  exact ⟨rfl, hl.leaves⟩

/-- The store with a response written to the row of the key. Source: migration
`150_fn_write_idempotency_response`. Kind: D -/
def withResponse (σ : Store) (k : IdempotencyKey) (st : ℕ) (body : CachedBody) : Store :=
  let u := writeResponseUpdate k st body
  { σ with idempotencyKeys := σ.idempotencyKeys.modify u.apply u.key_apply }

/-- What is written does not depend on the other tables. Source: none: infrastructure. Kind: L -/
theorem withResponse_congr {k : IdempotencyKey} {st : ℕ} {body : CachedBody}
    (h : τ.idempotencyKeys = σ.idempotencyKeys) :
    (τ.withResponse k st body).idempotencyKeys = (σ.withResponse k st body).idempotencyKeys := by
  simp only [withResponse, h]

/-- **`write_idempotency_response` alone** writes the row of the key. Source: migration
`150_fn_write_idempotency_response`. Kind: L -/
theorem executed_writeIdempotencyResponse {k : IdempotencyKey} {st : ℕ} {body : CachedBody}
    (hl : LocksOk σ) (h : Executed σ (.writeIdempotencyResponse k st body) r τ) :
    r = .unit ∧ Leaves (σ.withResponse k st body) τ σ.seats σ.bookings := by
  obtain ⟨client, hfin⟩ := h.finishes
  obtain ⟨ch, st', hstmt, -, -, -, hkeys, -⟩ := hfin.of_stmt (by simp)
  cases hstmt
  obtain ⟨rfl, rfl⟩ := (hkeys _ _ rfl).of_ret
  have hl' : LocksOk (σ.withResponse k st body) := ⟨hl.seats, hl.bookings⟩
  exact ⟨rfl, hl'.leaves⟩

/-- **`charge` alone** answers from a row for its key, or records what it has drawn. Source:
`lib/payment/mock-service.ts` `charge`. Kind: L -/
theorem executed_charge {amount : ℕ} {k : IdempotencyKey} (hl : LocksOk σ)
    (h : Executed σ (.charge amount k) r τ) :
    (∃ p ∈ σ.payments, p.idempotencyKey = k ∧ Leaves σ τ σ.seats σ.bookings ∧
      (p.status = .succeeded ∧ r = .paid p.id true ∨
        p.status = .failed ∧ ∃ code, r = .paymentError code)) ∨
    ((∀ p ∈ σ.payments, p.idempotencyKey ≠ k) ∧
      ∃ (p : Payment) (hnew : σ.payments.find? (key p) = none), p.idempotencyKey = k ∧
        Leaves { σ with payments := σ.payments.insert p hnew } τ σ.seats σ.bookings ∧
        (p.status = .succeeded ∧ r = .paid p.id false ∨
          p.status = .failed ∧ ∃ code, r = .paymentError code)) := by
  obtain ⟨client, hfin⟩ := h.finishes
  obtain ⟨ch, st, hstmt, hselect, -⟩ := hfin.of_stmt (by simp)
  -- a draw is recorded under a key that has no row
  have hdraw : Finishes σ ⟨.charge amount k, client, σ.now, .chargeInsert⟩ r τ →
      (∀ p ∈ σ.payments, p.idempotencyKey ≠ k) ∧
      ∃ (p : Payment) (hnew : σ.payments.find? (key p) = none), p.idempotencyKey = k ∧
        Leaves { σ with payments := σ.payments.insert p hnew } τ σ.seats σ.bookings ∧
        (p.status = .succeeded ∧ r = .paid p.id false ∨
          p.status = .failed ∧ ∃ code, r = .paymentError code) := by
    intro hinsert
    obtain ⟨ch', st', hstmt', -, -, -, -, hraise, -, hrow⟩ := hinsert.of_stmt (by simp)
    have hst' : σ.charge ch' amount k .chargeInsert = some st' := hstmt'
    simp only [charge] at hst'
    split at hst'
    · cases hst'
      exact absurd rfl hraise
    · split at hst'
      · cases hst'
        obtain ⟨hnew, hfresh, hrest⟩ := hrow _ _ rfl
        obtain ⟨rfl, rfl⟩ := hrest.of_ret
        have hl' : LocksOk { σ with payments := σ.payments.insert _ hnew } := ⟨hl.seats, hl.bookings⟩
        exact ⟨hfresh, _, hnew, rfl, hl'.leaves, .inl ⟨rfl, rfl⟩⟩
      · rename_i code _
        cases hst'
        obtain ⟨hnew, hfresh, hrest⟩ := hrow _ _ rfl
        obtain ⟨rfl, rfl⟩ := hrest.of_ret
        have hl' : LocksOk { σ with payments := σ.payments.insert _ hnew } := ⟨hl.seats, hl.bookings⟩
        exact ⟨hfresh, _, hnew, rfl, hl'.leaves, .inr ⟨rfl, code, rfl⟩⟩
  have hst : σ.charge ch amount k .start = some st := hstmt
  simp only [charge] at hst
  split at hst
  · cases hst
    exact .inr (hdraw (hselect _ rfl))
  · rename_i p hfind
    have hp : p ∈ σ.payments := List.mem_of_find?_eq_some hfind
    have hk : p.idempotencyKey = k := beq_iff_eq.mp (List.find?_some (p := fun p : Payment =>
      p.idempotencyKey == k) hfind)
    split at hst
    · rename_i hpaid
      cases hst
      obtain ⟨rfl, rfl⟩ := (hselect _ rfl).of_ret
      exact .inl ⟨p, hp, hk, hl.leaves, .inl ⟨hpaid, rfl⟩⟩
    · rename_i hfailed
      cases hst
      obtain ⟨rfl, rfl⟩ := (hselect _ rfl).of_ret
      exact .inl ⟨p, hp, hk, hl.leaves, .inr ⟨hfailed, _, rfl⟩⟩
    · cases hst
      exact .inr (hdraw (hselect _ rfl))

/-- **`getDlqJobById` alone** returns the row. Source: `lib/db/repositories/dlq.ts` `getDlqJobById`.
Kind: L -/
theorem executed_getDlqJobById {id : ℕ} (hl : LocksOk σ) (h : Executed σ (.getDlqJobById id) r τ) :
    r = .dlqJob (σ.dlqJobs.find? id) ∧ Leaves σ τ σ.seats σ.bookings := by
  obtain ⟨client, hfin⟩ := h.finishes
  obtain ⟨ch, st, hstmt, hselect, -⟩ := hfin.of_stmt (by simp)
  cases hstmt
  obtain ⟨rfl, rfl⟩ := (hselect _ rfl).of_ret
  exact ⟨rfl, hl.leaves⟩

/-- The store with the row marked as retried. Source: `lib/db/repositories/dlq.ts` `markDlqRetried`.
Kind: D -/
def withRetried (σ : Store) (id : ℕ) : Store :=
  let u := markRetriedUpdate id σ.now
  { σ with dlqJobs := σ.dlqJobs.modify u.apply u.key_apply }

/-- **`markDlqRetried` alone** marks the row. Source: `lib/db/repositories/dlq.ts` `markDlqRetried`.
Kind: L -/
theorem executed_markDlqRetried {id : ℕ} (hl : LocksOk σ) (h : Executed σ (.markDlqRetried id) r τ) :
    r = .unit ∧ Leaves (σ.withRetried id) τ σ.seats σ.bookings := by
  obtain ⟨client, hfin⟩ := h.finishes
  obtain ⟨ch, st, hstmt, -, -, -, -, -, hdlq, -⟩ := hfin.of_stmt (by simp)
  cases hstmt
  obtain ⟨rfl, rfl⟩ := (hdlq _ _ rfl).of_ret
  have hl' : LocksOk (σ.withRetried id) := ⟨hl.seats, hl.bookings⟩
  exact ⟨rfl, hl'.leaves⟩

end functions

end Store

end TrainsAndTracks
