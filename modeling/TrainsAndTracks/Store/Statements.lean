import TrainsAndTracks.Store.Machine

/-!
# What one step of the store can do

The inversion of `Store.step`, said once. `Runs σ i now call pc st` lists every statement a call can
issue, one constructor a branch of the source, each with what the branch has checked, and `Stepped σ a σ'`
lists the shapes of the state after a step. Later proofs take a step apart with `step_cases` and never
unfold the calls.
-/

namespace TrainsAndTracks

open Found

/-- The booking a release function is for, and the reason it records, if it does.
Source: migrations `120_fn_release_hold`, `20260418000000_split_release_hold`. Kind: D.
Fidelity: exact -/
def Call.releases : Call → Option (BookingId × Option String)
  | releaseHold b reason => some (b, some reason)
  | releaseHoldRetryable b => some (b, none)
  | releaseHoldTerminal b reason => some (b, some reason)
  | _ => none

/-- The booking a call fails, and the reason it records. Source: migrations `120_fn_release_hold`,
`20260418000000_split_release_hold`, `app/api/book/route.ts` (publish-failure branch). Kind: D.
Fidelity: exact -/
def Call.fails : Call → Option (BookingId × String)
  | releaseHold b reason => some (b, reason)
  | releaseHoldTerminal b reason => some (b, reason)
  | failUnpublished b => some (b, "upstream_publish_failure")
  | _ => none

/-- A release with a reason fails the booking. Source: none: infrastructure. Kind: L -/
theorem Call.fails_of_releases {call : Call} {b : BookingId} {why : String}
    (h : call.releases = some (b, some why)) : call.fails = some (b, why) := by
  cases call <;> simp_all [releases, fails]

/-- The statements that may raise: a unique violation, or an exception of their own.
Source: none: infrastructure (statement semantics). Kind: D -/
def Stmt.raises : Stmt → Bool
  | .insertBooking .. | .insertPayment .. | .raise => true
  | _ => false

namespace Store

/-! ## The statements of a call -/

/-- `Runs σ i now call pc st`: at the point `pc`, execution `i` of `call` issues `st`.
Source: none: infrastructure (the branches of `Store.stmt`). Kind: D -/
inductive Runs (σ : Store) (i : ℕ) (now : Time) : Call → Pc → Stmt → Prop
  | getBooking {b} :
      Runs σ i now (.getBookingById b) .start
        (.select (.ret (.booking (σ.bookings.committed.find? b))))
  | holdFound {train b passenger hold s} (hs : s ∈ σ.seats.committed) (hb : s.bookingId = some b)
      (hlive : s.liveAt now = true) :
      Runs σ i now (.allocateSeat train b passenger hold) .start
        (.select (.ret (.allocated (some (s.id, s.version)))))
  | holdMissing {train b passenger hold}
      (hno : ∀ s ∈ σ.seats.committed, s.bookingId = some b → s.liveAt now = false) :
      Runs σ i now (.allocateSeat train b passenger hold) .start (.select .allocatePick)
  | soldOut {train b passenger hold} (hno : σ.pickAvailable i train = none) :
      Runs σ i now (.allocateSeat train b passenger hold) .allocatePick
        (.select (.ret (.allocated none)))
  | allocateUnknown {train b passenger hold} :
      Runs σ i now (.allocateSeat train b passenger hold) .allocatePick .raise
  | take {train b passenger hold s r} (hs : s ∈ σ.seats.committed) (htrain : s.trainId = train)
      (hfree : s.status = .available) (hr : σ.bookings.committed.find? b = some r) :
      Runs σ i now (.allocateSeat train b passenger hold) .allocatePick
        (.update (reserve s.id b passenger (now + hold)) .skip
          (.ret (.allocated (some (s.id, s.version + 1)))))
  | confirmSettled {b seat payment}
      (hno : ∀ r, σ.bookings.committed.find? b = some r → r.status ≠ .pending) :
      Runs σ i now (.confirmBooking b seat payment) .start (.select (.ret (.confirmed none)))
  | confirmOpen {b seat payment r} (hr : σ.bookings.committed.find? b = some r) :
      Runs σ i now (.confirmBooking b seat payment) .start (.select .confirmSeat)
  | holdLost {b seat payment}
      (hno : ∀ s ∈ σ.seats.committed, (confirmSeatUpdate b seat now).cond s = false) :
      Runs σ i now (.confirmBooking b seat payment) .confirmSeat (.select (.ret (.confirmed none)))
  | confirmSeat {b seat payment s} (hs : s ∈ σ.seats.committed)
      (hcond : (confirmSeatUpdate b seat now).cond s = true) :
      Runs σ i now (.confirmBooking b seat payment) .confirmSeat
        (.update (confirmSeatUpdate b seat now) .skip .confirmRow)
  | rowLost {b seat payment}
      (hno : ∀ r ∈ σ.bookings.committed, (confirmRowUpdate b seat payment now).cond r = false) :
      Runs σ i now (.confirmBooking b seat payment) .confirmRow (.select (.ret (.confirmed none)))
  | unknownPayment {b seat payment} :
      Runs σ i now (.confirmBooking b seat payment) .confirmRow .raise
  | confirmRow {b seat payment r} (hr : r ∈ σ.bookings.committed)
      (hcond : (confirmRowUpdate b seat payment now).cond r = true) :
      Runs σ i now (.confirmBooking b seat payment) .confirmRow
        (.update .skip (confirmRowUpdate b seat payment now) (.ret (.confirmed (some b))))
  | releaseSnapshot {call b why} (hcall : call.releases = some (b, why)) :
      Runs σ i now call .start
        (.select (.releaseSeats ((σ.seats.committed.select (·.heldFor b)).map Seat.id)))
  | releaseSeatsOnly {call b snapshot n} (hcall : call.releases = some (b, none)) :
      Runs σ i now call (.releaseSeats snapshot)
        (.update (releaseSeatsUpdate b snapshot) .skip (.ret (.released n)))
  | releaseSeatsThenRow {call b why snapshot n} (hcall : call.releases = some (b, some why)) :
      Runs σ i now call (.releaseSeats snapshot)
        (.update (releaseSeatsUpdate b snapshot) .skip (.releaseRow n))
  | releaseRow {call b why n} (hcall : call.releases = some (b, some why)) :
      Runs σ i now call (.releaseRow n)
        (.update .skip (failRowUpdate b why) (.ret (.released n)))
  | sweepSkipped : Runs σ i now .sweepExpiredHolds .start (.select (.ret (.swept 0 true)))
  | sweepLocked (hfree : σ.advisory = none) :
      Runs σ i now .sweepExpiredHolds .start (.tryAdvisoryLock .sweepSnapshot)
  | sweepSnapshot :
      Runs σ i now .sweepExpiredHolds .sweepSnapshot
        (.select (.sweepRun ((σ.seats.committed.select (·.expiredAt now)).map Seat.id)))
  | sweepRun {snapshot n} :
      Runs σ i now .sweepExpiredHolds (.sweepRun snapshot)
        (.update (sweepSeatsUpdate snapshot now)
          (sweepRowsUpdate (σ.seats.committed.select (sweepSeatsUpdate snapshot now).cond))
          (.ret (.swept n false)))
  | chargeReplayed {amount k p} (hp : p ∈ σ.payments) (hk : p.idempotencyKey = k)
      (hst : p.status = .succeeded) :
      Runs σ i now (.charge amount k) .start (.select (.ret (.paid p.id true)))
  | chargeRefused {amount k p} (hp : p ∈ σ.payments) (hk : p.idempotencyKey = k)
      (hst : p.status = .failed) :
      Runs σ i now (.charge amount k) .start
        (.select (.ret (.paymentError (p.errorCode.getD .paymentDeclined))))
  | chargeFresh {amount k} : Runs σ i now (.charge amount k) .start (.select .chargeInsert)
  | chargeZero {amount k} : Runs σ i now (.charge amount k) .chargeInsert .raise
  | chargePaid {amount k uuid} :
      Runs σ i now (.charge amount k) .chargeInsert
        (.insertPayment ⟨uuid, k, amount, .succeeded, none⟩ (.ret (.paid uuid false)))
  | chargeDeclined {amount k uuid code} :
      Runs σ i now (.charge amount k) .chargeInsert
        (.insertPayment ⟨uuid, k, amount, .failed, some code⟩ (.ret (.paymentError code)))
  | keyKnown {k user hash row} (hrow : σ.idempotencyKeys.find? k = some row) :
      Runs σ i now (.idempotencyCheck k user hash) .start (.select (.ret (.idempotency row false)))
  | keyNew {k user hash} :
      Runs σ i now (.idempotencyCheck k user hash) .start
        (.insertKey ⟨k, user, hash, none, none, now⟩
          (.ret (.idempotency ⟨k, user, hash, none, none, now⟩ true)))
  | createBooking {args uuid} (hchecks : bookingChecks args.passengerName args.passengerPhone = true) :
      Runs σ i now (.createBooking args) .start
        (.insertBooking (newBooking uuid args now) (.ret (.created uuid)))
  | createRefused {args} : Runs σ i now (.createBooking args) .start .raise
  | failUnpublished {b} :
      Runs σ i now (.failUnpublished b) .start
        (.update .skip (failRowUpdate b "upstream_publish_failure") (.ret .unit))
  | writeResponse {k status body} :
      Runs σ i now (.writeIdempotencyResponse k status body) .start
        (.updateKeys (writeResponseUpdate k status body) (.ret .unit))
  | dlqKnown {m payload reason attempts j} (hj : j ∈ σ.dlqJobs) (hm : j.qstashMessageId = m) :
      Runs σ i now (.insertDlqJob m payload reason attempts) .start
        (.select (.ret (.dlqInserted none)))
  | dlqNew {m payload reason attempts uuid} :
      Runs σ i now (.insertDlqJob m payload reason attempts) .start
        (.insertDlqJob ⟨uuid, m, payload, reason, attempts, none, none⟩ (.ret (.dlqInserted (some uuid))))
  | getDlqJob {id} :
      Runs σ i now (.getDlqJobById id) .start (.select (.ret (.dlqJob (σ.dlqJobs.find? id))))
  | markRetried {id} :
      Runs σ i now (.markDlqRetried id) .start
        (.updateDlqJobs (markRetriedUpdate id now) (.ret .unit))

section inversion

variable {σ σ' : Store} {i : ℕ} {now : Time} {ch : Choice} {call : Call} {pc : Pc} {st : Stmt}

/-- What the guard of `allocate_seat` returns is a live hold of the booking.
Source: migration `100_fn_allocate_seat`, statement 1. Kind: L -/
theorem liveHold_eq_some {b : BookingId} {row : SeatId} {s : Seat}
    (h : σ.liveHold b now row = some s) :
    s ∈ σ.seats.committed ∧ s.bookingId = some b ∧ s.liveAt now = true := by
  have hmem : s ∈ σ.seats.committed.select fun s => s.bookingId == some b && s.liveAt now := by
    simp only [liveHold, Option.or_eq_some_iff] at h
    rcases h with h | ⟨-, h⟩
    · exact List.mem_of_find?_eq_some h
    · exact List.mem_of_mem_head? h
  obtain ⟨hs, hp⟩ := Table.mem_select.mp hmem
  simp only [Bool.and_eq_true, beq_iff_eq] at hp
  exact ⟨hs, hp⟩

/-- The guard returns nothing only when there is no live hold.
Source: migration `100_fn_allocate_seat`, statement 1. Kind: L -/
theorem liveHold_eq_none {b : BookingId} {row : SeatId} (h : σ.liveHold b now row = none) :
    ∀ s ∈ σ.seats.committed, s.bookingId = some b → s.liveAt now = false := by
  intro s hs hb
  simp only [liveHold, Option.or_eq_none_iff, List.head?_eq_none_iff] at h
  by_contra hlive
  have hmem : s ∈ σ.seats.committed.select fun s => s.bookingId == some b && s.liveAt now :=
    Table.mem_select.mpr ⟨hs, by simpa [hb] using hlive⟩
  rw [h.2] at hmem
  cases hmem

/-- What the allocation picks is a free seat of the train.
Source: migration `100_fn_allocate_seat`, statement 2. Kind: L -/
theorem pickAvailable_eq_some {train : TrainId} {s : Seat} (h : σ.pickAvailable i train = some s) :
    s ∈ σ.seats.committed ∧ s.trainId = train ∧ s.status = .available := by
  obtain ⟨hs, hp⟩ := Table.mem_select.mp (List.argmin_mem h)
  simp only [Bool.and_eq_true, beq_iff_eq] at hp
  exact ⟨hs, hp.1.1, hp.1.2⟩

/-- A table has no row for a statement whose count is zero. Source: none: infrastructure.
Kind: L -/
theorem select_isEmpty_iff {ρ κ : Type*} [Keyed ρ κ] [DecidableEq κ] {t : Table ρ} {p : ρ → Bool} :
    (t.select p).isEmpty = true ↔ ∀ r ∈ t, p r = false := by
  simp [Table.select, List.filter_eq_nil_iff, Table.mem_def]

/-- A table has a row for a statement whose count is not zero. Source: none: infrastructure.
Kind: L -/
theorem exists_of_select_nonempty {ρ κ : Type*} [Keyed ρ κ] [DecidableEq κ] {t : Table ρ}
    {p : ρ → Bool} (h : ¬ (t.select p).isEmpty = true) : ∃ r ∈ t, p r = true := by
  rw [select_isEmpty_iff] at h
  push Not at h
  simpa using h

/-- Inversion of one call. Source: migration `100_fn_allocate_seat`. Kind: L -/
theorem runs_of_allocateSeat {train : TrainId} {b : BookingId} {passenger : String} {hold : ℕ}
    (h : σ.allocateSeat i now ch train b passenger hold pc = some st) :
    Runs σ i now (.allocateSeat train b passenger hold) pc st := by
  cases pc with
  | start =>
    simp only [allocateSeat] at h
    split at h
    · rename_i s hs
      cases h
      obtain ⟨hs, hb, hlive⟩ := liveHold_eq_some hs
      exact .holdFound hs hb hlive
    · rename_i hno
      cases h
      exact .holdMissing (liveHold_eq_none hno)
  | allocatePick =>
    simp only [allocateSeat] at h
    split at h
    · rename_i hno
      cases h
      exact .soldOut hno
    · rename_i s hs
      split at h
      · cases h
        exact .allocateUnknown
      · rename_i hr
        cases h
        obtain ⟨hs, htrain, hfree⟩ := pickAvailable_eq_some hs
        obtain ⟨r, hr⟩ := Option.ne_none_iff_exists'.mp (by simpa using hr)
        exact .take hs htrain hfree hr
  | _ => simp [allocateSeat] at h

/-- Inversion of one call. Source: migration `110_fn_confirm_booking`. Kind: L -/
theorem runs_of_confirmBooking {b : BookingId} {seat : SeatId} {payment : PaymentId}
    (h : σ.confirmBooking now b seat payment pc = some st) :
    Runs σ i now (.confirmBooking b seat payment) pc st := by
  cases pc with
  | start =>
    simp only [confirmBooking] at h
    split at h
    · rename_i r hr
      split at h
      · cases h
        exact .confirmOpen hr
      · rename_i hst
        cases h
        refine .confirmSettled fun r' hr' => ?_
        obtain rfl := Option.eq_some_unique hr hr'
        simpa using hst
    · rename_i hno
      cases h
      exact .confirmSettled fun r hr => by rw [hno] at hr; cases hr
  | confirmSeat =>
    simp only [confirmBooking] at h
    split at h
    · rename_i hno
      cases h
      exact .holdLost (select_isEmpty_iff.mp hno)
    · rename_i hsome
      cases h
      obtain ⟨s, hs, hcond⟩ := exists_of_select_nonempty hsome
      exact .confirmSeat hs hcond
  | confirmRow =>
    simp only [confirmBooking] at h
    split at h
    · rename_i hno
      cases h
      exact .rowLost (select_isEmpty_iff.mp hno)
    · rename_i hsome
      obtain ⟨r, hr, hcond⟩ := exists_of_select_nonempty hsome
      split at h
      · cases h
        exact .unknownPayment
      · cases h
        exact .confirmRow hr hcond
  | _ => simp [confirmBooking] at h

/-- Inversion of one call. Source: migration `20260418000000_split_release_hold`. Kind: L -/
theorem runs_of_release {b : BookingId} {why : Option String}
    (hcall : call.releases = some (b, why)) (h : σ.release b why pc = some st) :
    Runs σ i now call pc st := by
  cases pc with
  | start =>
    simp only [release, Option.some.injEq] at h
    subst h
    exact .releaseSnapshot hcall
  | releaseSeats snapshot =>
    simp only [release, Option.some.injEq] at h
    subst h
    cases why with
    | none => exact .releaseSeatsOnly hcall
    | some why => exact .releaseSeatsThenRow hcall
  | releaseRow n =>
    cases why with
    | none => simp [release] at h
    | some why =>
      simp only [release, Option.map_some, Option.some.injEq] at h
      subst h
      exact .releaseRow hcall
  | _ => simp [release] at h

/-- Inversion of one call. Source: migration `130_fn_sweep_expired_holds`. Kind: L -/
theorem runs_of_sweepExpiredHolds (h : σ.sweepExpiredHolds now pc = some st) :
    Runs σ i now .sweepExpiredHolds pc st := by
  cases pc with
  | start =>
    simp only [sweepExpiredHolds] at h
    split at h
    · cases h
      exact .sweepSkipped
    · rename_i hheld
      cases h
      exact .sweepLocked (by simpa using hheld)
  | sweepSnapshot =>
    simp only [sweepExpiredHolds, Option.some.injEq] at h
    subst h
    exact .sweepSnapshot
  | sweepRun snapshot =>
    simp only [sweepExpiredHolds, Option.some.injEq] at h
    subst h
    exact .sweepRun
  | _ => simp [sweepExpiredHolds] at h

/-- Inversion of one call. Source: `lib/payment/mock-service.ts` `charge`. Kind: L -/
theorem runs_of_charge {amount : ℕ} {k : IdempotencyKey}
    (h : σ.charge ch amount k pc = some st) : Runs σ i now (.charge amount k) pc st := by
  cases pc with
  | start =>
    simp only [charge] at h
    split at h
    · cases h
      exact .chargeFresh
    · rename_i p hp
      have hmem : p ∈ σ.payments := List.mem_of_find?_eq_some hp
      have hk : p.idempotencyKey = k := by simpa using List.find?_some hp
      split at h
      · rename_i hst
        cases h
        exact .chargeReplayed hmem hk hst
      · rename_i hst
        cases h
        exact .chargeRefused hmem hk hst
      · cases h
        exact .chargeFresh
  | chargeInsert =>
    simp only [charge] at h
    split at h
    · cases h
      exact .chargeZero
    · split at h
      · cases h
        exact .chargePaid
      · cases h
        exact .chargeDeclined
  | _ => simp [charge] at h

/-- **Inversion of the calls**: a statement is issued by one of the branches.
Source: none: infrastructure. Kind: L -/
theorem runs_of_stmt (h : σ.stmt i now ch call pc = some st) : Runs σ i now call pc st := by
  cases call with
  | allocateSeat train b passenger hold => exact runs_of_allocateSeat h
  | confirmBooking b seat payment => exact runs_of_confirmBooking h
  | releaseHold b reason => exact runs_of_release rfl h
  | releaseHoldRetryable b => exact runs_of_release rfl h
  | releaseHoldTerminal b reason => exact runs_of_release rfl h
  | sweepExpiredHolds => exact runs_of_sweepExpiredHolds h
  | charge amount k => exact runs_of_charge h
  | getBookingById b =>
    cases pc <;> simp only [stmt, Option.some.injEq, reduceCtorEq] at h
    subst h
    exact .getBooking
  | failUnpublished b =>
    cases pc <;> simp only [stmt, Option.some.injEq, reduceCtorEq] at h
    subst h
    exact .failUnpublished
  | idempotencyCheck k user hash =>
    cases pc <;> simp only [stmt, idempotencyCheck, reduceCtorEq] at h
    split at h
    · rename_i row hrow
      cases h
      exact .keyKnown hrow
    · cases h
      exact .keyNew
  | createBooking args =>
    cases pc <;> simp only [stmt, createBooking, reduceCtorEq] at h
    split at h
    · rename_i hok
      cases h
      exact .createBooking (by simp only [Bool.and_eq_true] at hok; exact hok.1)
    · cases h
      exact .createRefused
  | writeIdempotencyResponse k status body =>
    cases pc <;> simp only [stmt, Option.some.injEq, reduceCtorEq] at h
    subst h
    exact .writeResponse
  | insertDlqJob m payload reason attempts =>
    cases pc <;> simp only [stmt, insertDlqJob, reduceCtorEq] at h
    split at h
    · rename_i hknown
      cases h
      obtain ⟨j, hj, hm⟩ := List.any_eq_true.mp hknown
      exact .dlqKnown hj (by simpa using hm)
    · cases h
      exact .dlqNew
  | getDlqJobById id =>
    cases pc <;> simp only [stmt, Option.some.injEq, reduceCtorEq] at h
    subst h
    exact .getDlqJob
  | markDlqRetried id =>
    cases pc <;> simp only [stmt, Option.some.injEq, reduceCtorEq] at h
    subst h
    exact .markRetried

end inversion

/-! ## The steps of the store -/

/-- `Stepped σ a σ'`: what the action `a` makes of `σ`, with what is known of the execution that
moved. Source: none: infrastructure (the branches of `Store.step`). Kind: D -/
inductive Stepped (σ : Store) : Action → Store → Prop
  | begin {call client} : Stepped σ (.begin call client) (σ.begin call client)
  | start {i e} (he : σ.execs[i]? = some e) (hpc : e.pc = .sent) :
      Stepped σ (.start i)
        { σ with execs := σ.execs.modify i fun e => { e with now := σ.now, pc := .start } }
  | select {i ch e next} (he : σ.execs[i]? = some e)
      (hr : Runs σ i e.now e.call e.pc (.select next)) :
      Stepped σ (.exec i ch) (σ.goto i next)
  | update {i ch e us ub next seats bookings} (he : σ.execs[i]? = some e)
      (hr : Runs σ i e.now e.call e.pc (.update us ub next))
      (hseats : σ.seats.update i us = some seats)
      (hbookings : σ.bookings.update i ub = some bookings) :
      Stepped σ (.exec i ch) ({ σ with seats := seats, bookings := bookings }.goto i next)
  | lockAdvisory {i ch e next} (he : σ.execs[i]? = some e)
      (hr : Runs σ i e.now e.call e.pc (.tryAdvisoryLock next)) :
      Stepped σ (.exec i ch) ({ σ with advisory := some i }.goto i next)
  | insertBooking {i ch e row next} (he : σ.execs[i]? = some e)
      (hr : Runs σ i e.now e.call e.pc (.insertBooking row next))
      (hnew : σ.bookings.committed.find? (key row) = none)
      (hkey : ∀ r ∈ σ.bookings.committed, r.idempotencyKey ≠ row.idempotencyKey) :
      Stepped σ (.exec i ch) ({ σ with bookings := σ.bookings.insert row hnew }.goto i next)
  | insertPayment {i ch e row next} (he : σ.execs[i]? = some e)
      (hr : Runs σ i e.now e.call e.pc (.insertPayment row next))
      (hnew : σ.payments.find? (key row) = none)
      (hkey : ∀ p ∈ σ.payments, p.idempotencyKey ≠ row.idempotencyKey)
      (hstmt : σ.stmt i e.now ch e.call e.pc = some (.insertPayment row next)) :
      Stepped σ (.exec i ch) ({ σ with payments := σ.payments.insert row hnew }.goto i next)
  | insertKey {i ch e row next} (he : σ.execs[i]? = some e)
      (hr : Runs σ i e.now e.call e.pc (.insertKey row next))
      (hnew : σ.idempotencyKeys.find? (key row) = none) :
      Stepped σ (.exec i ch)
        ({ σ with idempotencyKeys := σ.idempotencyKeys.insert row hnew }.goto i next)
  | updateKeys {i ch e u next} (he : σ.execs[i]? = some e)
      (hr : Runs σ i e.now e.call e.pc (.updateKeys u next)) :
      Stepped σ (.exec i ch)
        ({ σ with idempotencyKeys := σ.idempotencyKeys.modify u.apply u.key_apply }.goto i next)
  | insertDlqJob {i ch e row next} (he : σ.execs[i]? = some e)
      (hr : Runs σ i e.now e.call e.pc (.insertDlqJob row next))
      (hnew : σ.dlqJobs.find? (key row) = none) :
      Stepped σ (.exec i ch) ({ σ with dlqJobs := σ.dlqJobs.insert row hnew }.goto i next)
  | updateDlqJobs {i ch e u next} (he : σ.execs[i]? = some e)
      (hr : Runs σ i e.now e.call e.pc (.updateDlqJobs u next)) :
      Stepped σ (.exec i ch) ({ σ with dlqJobs := σ.dlqJobs.modify u.apply u.key_apply }.goto i next)
  | raised {i ch e st} (he : σ.execs[i]? = some e) (hpc : ∀ r, e.pc ≠ .done r)
      (hr : Runs σ i e.now e.call e.pc st) (hst : st.raises = true) :
      Stepped σ (.exec i ch) (σ.fail i)
  | aborted {i e} (he : σ.execs[i]? = some e) (hpc : ∀ r, e.pc ≠ .done r) :
      Stepped σ (.abort i) (σ.fail i)
  | commit {i e r} (he : σ.execs[i]? = some e) (hpc : e.pc = .ret r) :
      Stepped σ (.commit i)
        ({ σ with
          seats := σ.seats.commit i
          bookings := σ.bookings.commit i
          advisory := σ.advisory.filter (· ≠ i) }.goto i (.done r))
  | tick {d} : Stepped σ (.tick d) { σ with now := σ.now + d }

section steps

variable {σ σ' : Store} {i : ℕ} {ch : Choice} {a : Action}

/-- An execution that has returned issues nothing. Source: none: infrastructure. Kind: L -/
theorem Runs.ne_done {now : Time} {call : Call} {pc : Pc} {st : Stmt}
    (h : Runs σ i now call pc st) (r : Reply) : pc ≠ .done r := by
  cases h <;> simp

/-- Inversion of a statement step. Source: none: infrastructure. Kind: L -/
theorem stepped_of_exec (h : σ.exec i ch = some σ') : Stepped σ (.exec i ch) σ' := by
  simp only [exec, Option.bind_eq_bind, Option.bind_eq_some_iff] at h
  obtain ⟨e, he, st, hst, hrun⟩ := h
  have hr := runs_of_stmt hst
  cases st with
  | select next =>
    cases hrun
    exact .select he hr
  | update us ub next =>
    simp only [runStmt] at hrun
    split at hrun
    · rename_i seats bookings hseats hbookings
      cases hrun
      exact .update he hr hseats hbookings
    · cases hrun
  | tryAdvisoryLock next =>
    cases hrun
    exact .lockAdvisory he hr
  | insertBooking row next =>
    simp only [runStmt] at hrun
    split at hrun
    · rename_i hnew
      split at hrun
      · cases hrun
        exact .raised he hr.ne_done hr rfl
      · rename_i hkey
        cases hrun
        exact .insertBooking he hr hnew (by simpa [Table.mem_def] using hkey)
    · cases hrun
  | insertPayment row next =>
    simp only [runStmt] at hrun
    split at hrun
    · rename_i hnew
      split at hrun
      · cases hrun
        exact .raised he hr.ne_done hr rfl
      · rename_i hkey
        cases hrun
        exact .insertPayment he hr hnew (by simpa [Table.mem_def] using hkey) hst
    · cases hrun
  | insertKey row next =>
    simp only [runStmt] at hrun
    split at hrun
    · rename_i hnew
      cases hrun
      exact .insertKey he hr hnew
    · cases hrun
  | updateKeys u next =>
    cases hrun
    exact .updateKeys he hr
  | insertDlqJob row next =>
    simp only [runStmt] at hrun
    split at hrun
    · rename_i hnew
      cases hrun
      exact .insertDlqJob he hr hnew
    · cases hrun
  | updateDlqJobs u next =>
    cases hrun
    exact .updateDlqJobs he hr
  | raise =>
    cases hrun
    exact .raised he hr.ne_done hr rfl

/-- **Inversion of a step of the store.** Source: none: infrastructure. Kind: L -/
theorem step_cases (h : σ.step a = some σ') : Stepped σ a σ' := by
  cases a with
  | begin call client =>
    cases h
    exact .begin
  | start i =>
    simp only [step, start] at h
    split at h
    · rename_i heq
      cases h
      exact .start heq rfl
    · cases h
  | exec i ch => exact stepped_of_exec h
  | commit i =>
    simp only [step, commit] at h
    split at h
    · rename_i r heq
      cases h
      exact .commit heq rfl
    · cases h
  | abort i =>
    simp only [step, abort] at h
    split at h
    · cases h
    · rename_i e hne heq
      cases h
      refine .aborted heq fun r hr => ?_
      obtain ⟨call, client, now, pc⟩ := e
      exact hne call client now r (by rw [show pc = .done r from hr])
    · cases h
  | tick d =>
    cases h
    exact .tick

end steps

end Store

end TrainsAndTracks
