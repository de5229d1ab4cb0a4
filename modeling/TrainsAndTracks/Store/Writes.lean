import TrainsAndTracks.Store.Statements

/-!
# Which calls write which rows

The committed rows of `seats` and `bookings` change only when an execution commits the versions it
has made. `SeatWrite call now r w` and `BookingWrite call now r w` say what an execution may make of a
row `r`; `LocksOk` says that every open version is of this kind, and `seat_change`, `booking_change` read off
what a step can do to a committed row. The rows of `idempotency_keys` are written by single statements, and
`KeyWrite` and `key_change` say the same of them. `Store.Le` collects what no step ever takes back.
-/

set_option linter.unusedSectionVars false

namespace TrainsAndTracks

open Found

namespace Store

/-! ## Executions -/

@[simp] theorem goto_seats (σ : Store) (i : ℕ) (pc : Pc) : (σ.goto i pc).seats = σ.seats := rfl
@[simp] theorem goto_bookings (σ : Store) (i : ℕ) (pc : Pc) :
    (σ.goto i pc).bookings = σ.bookings := rfl
@[simp] theorem goto_payments (σ : Store) (i : ℕ) (pc : Pc) :
    (σ.goto i pc).payments = σ.payments := rfl
@[simp] theorem goto_idempotencyKeys (σ : Store) (i : ℕ) (pc : Pc) :
    (σ.goto i pc).idempotencyKeys = σ.idempotencyKeys := rfl
@[simp] theorem goto_dlqJobs (σ : Store) (i : ℕ) (pc : Pc) :
    (σ.goto i pc).dlqJobs = σ.dlqJobs := rfl

/-- The execution that moved. Source: none: infrastructure. Kind: L -/
@[simp] theorem goto_exec_self (σ : Store) (i : ℕ) (pc : Pc) :
    (σ.goto i pc).execs[i]? = (σ.execs[i]?).map fun e => { e with pc := pc } := by
  simp [goto]

/-- The executions that did not. Source: none: infrastructure. Kind: L -/
theorem goto_exec_of_ne (σ : Store) {i j : ℕ} (pc : Pc) (h : i ≠ j) :
    (σ.goto i pc).execs[j]? = σ.execs[j]? := by
  simp [goto, h]

/-- The execution an action moves. Source: none: infrastructure. Kind: D -/
def Action.actor : Action → Option ℕ
  | start i => some i
  | exec i _ => some i
  | commit i => some i
  | abort i => some i
  | begin .. => none
  | tick _ => none

section executions

variable {σ σ' : Store} {a : Action} {j : ℕ} {e e' : Exec}

/-- An execution that does not move stays as it is. Source: none: infrastructure. Kind: L -/
theorem Stepped.exec_of_ne (h : Stepped σ a σ') (ha : a.actor ≠ some j)
    (hj : σ.execs[j]? = some e) : σ'.execs[j]? = some e := by
  cases h with
  | begin =>
    obtain ⟨hlt, -⟩ := List.getElem?_eq_some_iff.mp hj
    simp only [Store.begin]
    rw [List.getElem?_append_left hlt, hj]
  | tick => exact hj
  | start =>
    rename_i i _ _ _
    have hne : i ≠ j := fun h => ha (congrArg some h)
    simp [hne, hj]
  | _ =>
    have hne := fun h => ha (congrArg some h)
    exact (goto_exec_of_ne _ _ hne).trans hj

/-- An execution keeps its call and its client; its `now()` is fixed when it starts.
Source: none: infrastructure. Kind: L -/
theorem Stepped.exec_old (h : Stepped σ a σ') (hj : σ.execs[j]? = some e) :
    ∃ e', σ'.execs[j]? = some e' ∧ e'.call = e.call ∧ e'.client = e.client ∧
      (e'.now = e.now ∨ e'.now = σ.now) := by
  by_cases ha : a.actor = some j
  · cases h with
    | begin => cases ha
    | tick => cases ha
    | start =>
      cases ha
      exact ⟨{ e with now := σ.now, pc := .start }, by simp [hj], rfl, rfl, .inr rfl⟩
    | _ =>
      cases ha
      exact ⟨_, (goto_exec_self _ _ _).trans (congrArg _ hj), rfl, rfl, .inl rfl⟩
  · exact ⟨e, h.exec_of_ne ha hj, rfl, rfl, .inl rfl⟩

/-- An execution after a step was there before, or was sent by this step.
Source: none: infrastructure. Kind: L -/
theorem Stepped.exec_new (h : Stepped σ a σ') (hj : σ'.execs[j]? = some e') :
    (∃ e, σ.execs[j]? = some e) ∨
    ∃ call client, a = .begin call client ∧ j = σ.execs.length ∧
      e' = ⟨call, client, σ.now, .sent⟩ := by
  cases h with
  | @begin call client =>
    simp only [Store.begin, List.getElem?_append] at hj
    split at hj
    · exact .inl ⟨e', hj⟩
    · right
      simp only [List.getElem?_singleton] at hj
      split at hj
      · cases hj
        exact ⟨call, client, rfl, by omega, rfl⟩
      · cases hj
  | tick => exact .inl ⟨e', hj⟩
  | start =>
    left
    simp only [List.getElem?_modify, Option.map_eq_map, Option.map_eq_some_iff] at hj
    obtain ⟨e, he, -⟩ := hj
    exact ⟨e, he⟩
  | _ =>
    left
    simp only [goto, fail, List.getElem?_modify, Option.map_eq_map, Option.map_eq_some_iff] at hj
    obtain ⟨e, he, -⟩ := hj
    exact ⟨e, he⟩

end executions

/-! ## The writes of a call -/

/-- What an execution of `call` may make of a seat. Source: migrations `100_fn_allocate_seat`,
`110_fn_confirm_booking`, `20260418000000_split_release_hold`, `130_fn_sweep_expired_holds`.
Kind: D -/
inductive SeatWrite (call : Call) (now : Time) (r : Seat) : Seat → Prop
  | reserve {train b passenger hold} (hcall : call = .allocateSeat train b passenger hold)
      (hfree : r.status = .available) (htrain : r.trainId = train) :
      SeatWrite call now r ((reserve r.id b passenger (now + hold)).set r)
  | confirm {b seat payment} (hcall : call = .confirmBooking b seat payment)
      (hcond : (confirmSeatUpdate b seat now).cond r = true) :
      SeatWrite call now r ((confirmSeatUpdate b seat now).set r)
  | release {b why} (hcall : call.releases = some (b, why)) (hheld : r.heldFor b = true) :
      SeatWrite call now r (freed r)
  | sweep (hcall : call = .sweepExpiredHolds) (hexp : r.expiredAt now = true) :
      SeatWrite call now r (freed r)

/-- A write to a seat is its next version. Source: migrations `100_fn_allocate_seat`,
`110_fn_confirm_booking`, `20260418000000_split_release_hold`, `130_fn_sweep_expired_holds`. Kind: L -/
theorem SeatWrite.version {call : Call} {now : Time} {s w : Seat} (h : SeatWrite call now s w) :
    w.version = s.version + 1 := by
  cases h <;> rfl

/-- What an execution of `call` may make of a booking. Source: migrations `110_fn_confirm_booking`,
`20260418000000_split_release_hold`, `130_fn_sweep_expired_holds`, `app/api/book/route.ts`
(publish-failure branch). Kind: D -/
inductive BookingWrite (call : Call) (now : Time) (r : Booking) : Booking → Prop
  | confirm {b seat payment} (hcall : call = .confirmBooking b seat payment)
      (hcond : (confirmRowUpdate b seat payment now).cond r = true) :
      BookingWrite call now r ((confirmRowUpdate b seat payment now).set r)
  | fail {b why} (hcall : call.fails = some (b, why))
      (hcond : (failRowUpdate b why).cond r = true) :
      BookingWrite call now r ((failRowUpdate b why).set r)
  | expire {targets} (hcall : call = .sweepExpiredHolds)
      (hcond : (sweepRowsUpdate targets).cond r = true) :
      BookingWrite call now r ((sweepRowsUpdate targets).set r)

/-- A row with a response. Source: migration `150_fn_write_idempotency_response`. Kind: D.
Fidelity: exact -/
def answeredRow (row : IdempotencyRow) (st : ℕ) (body : CachedBody) : IdempotencyRow :=
  { row with responseStatus := some st, responseBody := some body }

/-- What an execution of `call` may make of the row of `k` (`none`: there is none). Source: migrations
`140_fn_idempotency_check`, `150_fn_write_idempotency_response`. Kind: D -/
inductive KeyWrite (call : Call) (now : Time) (k : IdempotencyKey) :
    Option IdempotencyRow → IdempotencyRow → Prop
  | check {user hash} (hcall : call = .idempotencyCheck k user hash) :
      KeyWrite call now k none ⟨k, user, hash, none, none, now⟩
  | answer {st body row} (hcall : call = .writeIdempotencyResponse k st body) :
      KeyWrite call now k (some row) (answeredRow row st body)

/-- The points at which an execution may hold row locks. Source: none: infrastructure. Kind: D -/
def locking : Pc → Bool
  | .confirmRow => true
  | .releaseRow _ => true
  | .ret _ => true
  | _ => false

section locks

variable {σ σ' : Store} {a : Action} {i : ℕ} {now : Time} {call : Call} {pc next : Pc}
variable {us : Update Seat} {ub : Update Booking}

/-- An execution that holds locks goes on to a point where it may hold them.
Source: none: infrastructure. Kind: L -/
theorem Runs.locking_of_select (h : Runs σ i now call pc (.select next)) (hpc : locking pc = true) :
    locking next = true := by
  cases h <;> first | rfl | cases hpc

/-- After an `UPDATE` an execution is at a point where it may hold locks.
Source: none: infrastructure. Kind: L -/
theorem Runs.locking_of_update (h : Runs σ i now call pc (.update us ub next)) :
    locking next = true := by
  cases h <;> rfl

/-- The statements of transactions that lock rows; the others commit by themselves.
Source: none: infrastructure. Kind: D -/
def transactional : Stmt → Bool
  | .select _ | .update .. | .raise => true
  | _ => false

/-- Statements that commit by themselves come from points without locks.
Source: none: infrastructure. Kind: L -/
theorem Runs.not_locking {st : Stmt} (h : Runs σ i now call pc st) (hst : transactional st = false) :
    locking pc = false := by
  cases h <;> first | rfl | cases hst

/-- The versions an `UPDATE` makes of seats are writes of its call.
Source: none: infrastructure. Kind: L -/
theorem Runs.seatWrite (h : Runs σ i now call pc (.update us ub next)) {r : Seat}
    (hr : r ∈ σ.seats.committed) (hc : us.cond r = true) : SeatWrite call now r (us.set r) := by
  cases h with
  | @take train b passenger hold s rb hs htrain hfree hrb =>
    have hid : r = s := Table.eq_of_key_eq hr hs (by simpa [reserve] using hc)
    subst hid
    exact .reserve rfl hfree htrain
  | confirmSeat => exact .confirm rfl hc
  | releaseSeatsOnly hcall | releaseSeatsThenRow hcall =>
    simp only [releaseSeatsUpdate, Bool.and_eq_true] at hc
    exact .release hcall hc.2
  | sweepRun =>
    simp only [sweepSeatsUpdate, Bool.and_eq_true] at hc
    exact .sweep rfl hc.2
  | confirmRow | releaseRow | failUnpublished => cases hc

/-- The versions an `UPDATE` makes of bookings are writes of its call.
Source: none: infrastructure. Kind: L -/
theorem Runs.bookingWrite (h : Runs σ i now call pc (.update us ub next)) {r : Booking}
    (hc : ub.cond r = true) : BookingWrite call now r (ub.set r) := by
  cases h with
  | confirmRow => exact .confirm rfl hc
  | releaseRow hcall => exact .fail (Call.fails_of_releases hcall) hc
  | failUnpublished => exact .fail rfl hc
  | sweepRun => exact .expire rfl hc
  | take | confirmSeat | releaseSeatsOnly | releaseSeatsThenRow => cases hc

end locks

/-! ## The open versions -/

/-- Execution `i` may hold locks, and `W` holds of its call and its `now()`.
Source: none: infrastructure. Kind: D -/
def Writer (σ : Store) (W : Call → Time → Prop) (i : ℕ) : Prop :=
  ∃ e, σ.execs[i]? = some e ∧ locking e.pc = true ∧ W e.call e.now

/-- **The open versions.** Each is a write of the execution that has locked the row, which is at a
point where it may hold locks. Source: none: infrastructure. Kind: D -/
structure LocksOk (σ : Store) : Prop where
  seats : σ.seats.Based fun i r w => σ.Writer (SeatWrite · · r w) i
  bookings : σ.bookings.Based fun i r w => σ.Writer (BookingWrite · · r w) i

section writers

variable {σ σ' : Store} {a : Action} {W : Call → Time → Prop} {i j : ℕ}

/-- Another execution's writes stay its own through a step. Source: none: infrastructure. Kind: L -/
theorem Writer.of_ne (h : σ.Writer W j) (hs : Stepped σ a σ') (ha : a.actor ≠ some j) :
    σ'.Writer W j := by
  obtain ⟨e, he, hpc, hW⟩ := h
  exact ⟨e, hs.exec_of_ne ha he, hpc, hW⟩

/-- The versions survive a step that leaves both tables alone (an insertion apart) when the
execution that moves held no locks, or keeps them. Source: none: infrastructure. Kind: L -/
theorem LocksOk.kept (h : LocksOk σ) (hs : Stepped σ a σ') (hseats : σ'.seats = σ.seats)
    (hlock : σ'.bookings.lock = σ.bookings.lock)
    (hgrow : ∀ b r, σ.bookings.committed.find? b = some r →
      σ'.bookings.committed.find? b = some r)
    (hmove : ∀ i e, a.actor = some i → σ.execs[i]? = some e → locking e.pc = true →
      ∃ next, locking next = true ∧ σ'.execs[i]? = some { e with pc := next }) : LocksOk σ' := by
  have hW : ∀ {W : Call → Time → Prop} {j}, σ.Writer W j → σ'.Writer W j := by
    intro W j hw
    by_cases ha : a.actor = some j
    · obtain ⟨e, he, hpc, hW⟩ := hw
      obtain ⟨next, hnext, he'⟩ := hmove j e ha he hpc
      exact ⟨_, he', hnext, hW⟩
    · exact hw.of_ne hs ha
  constructor
  · rw [hseats]
    exact h.seats.mono fun s r w hw => hW hw
  · intro k s w hl
    rw [hlock] at hl
    obtain ⟨r, hr, hw⟩ := h.bookings k s w hl
    exact ⟨r, hgrow k r hr, hW hw⟩

/-- The versions of the others survive the end of execution `i`. Source: none: infrastructure.
Kind: L -/
theorem LocksOk.ended (h : LocksOk σ) (hs : Stepped σ a σ') (ha : a.actor = some i)
    (hseats : σ'.seats = σ.seats.commit i ∨ σ'.seats = σ.seats.rollback i)
    (hbookings : σ'.bookings = σ.bookings.commit i ∨ σ'.bookings = σ.bookings.rollback i) :
    LocksOk σ' := by
  have hW : ∀ {W : Call → Time → Prop} {j}, j ≠ i ∧ σ.Writer W j → σ'.Writer W j := by
    rintro W j ⟨hj, hw⟩
    exact hw.of_ne hs (by rw [ha]; simpa using Ne.symm hj)
  constructor
  · rcases hseats with heq | heq <;> rw [heq]
    · exact h.seats.commit.mono fun s r w hw => hW hw
    · exact h.seats.rollback.mono fun s r w hw => hW hw
  · rcases hbookings with heq | heq <;> rw [heq]
    · exact h.bookings.commit.mono fun s r w hw => hW hw
    · exact h.bookings.rollback.mono fun s r w hw => hW hw

/-- An execution whose statement commits by itself has no locks to carry over.
Source: none: infrastructure. Kind: L -/
theorem Runs.no_move {e : Exec} {st : Stmt} {Q : ℕ → Exec → Prop} (he : σ.execs[i]? = some e)
    (hr : Runs σ i e.now e.call e.pc st) (hst : transactional st = false) :
    ∀ j e', some i = some j → σ.execs[j]? = some e' → locking e'.pc = true → Q j e' := by
  rintro j e' hj he' hlock
  cases hj
  obtain rfl := Option.eq_some_unique he he'
  rw [hr.not_locking hst] at hlock
  cases hlock

/-- **The versions stay writes of their executions.** Source: none: infrastructure. Kind: L -/
theorem LocksOk.step (h : LocksOk σ) (hs : Stepped σ a σ') : LocksOk σ' := by
  have hs' := hs
  cases hs with
  | begin =>
    exact h.kept hs' rfl rfl (fun _ _ hr => hr) fun i e hi => by cases hi
  | start he hpc =>
    refine h.kept hs' rfl rfl (fun _ _ hr => hr) fun i e hi he' hlock => ?_
    cases hi
    obtain rfl := Option.eq_some_unique he he'
    rw [hpc] at hlock
    cases hlock
  | select he hr =>
    refine h.kept hs' rfl rfl (fun _ _ hr => hr) fun i e hi he' hlock => ?_
    cases hi
    obtain rfl := Option.eq_some_unique he he'
    exact ⟨_, hr.locking_of_select hlock, by simp [he]⟩
  | @update i ch e us ub next seats bookings he hr hseats hbookings =>
    have hmove : ({ σ with seats := seats, bookings := bookings }.goto i next).execs[i]? =
        some { e with pc := next } := by simp [he]
    have hW : ∀ {W : Call → Time → Prop} {j}, σ.Writer W j →
        ({ σ with seats := seats, bookings := bookings }.goto i next).Writer W j := by
      intro W j hw
      by_cases hij : i = j
      · subst hij
        obtain ⟨e', he', -, hW⟩ := hw
        obtain rfl := Option.eq_some_unique he he'
        exact ⟨_, hmove, hr.locking_of_update, hW⟩
      · exact hw.of_ne hs' (by simpa [Action.actor] using hij)
    have hown : ∀ {W : Call → Time → Prop}, W e.call e.now →
        ({ σ with seats := seats, bookings := bookings }.goto i next).Writer W i :=
      fun hW => ⟨_, hmove, hr.locking_of_update, hW⟩
    constructor
    · exact (h.seats.mono fun s r w hw => hW hw).update
        (fun r hmem hc => hown (hr.seatWrite hmem hc)) hseats
    · exact (h.bookings.mono fun s r w hw => hW hw).update
        (fun r _ hc => hown (hr.bookingWrite hc)) hbookings
  | insertBooking he hr hnew =>
    exact h.kept hs' rfl rfl (fun b r hr => Table.find?_insert_of_some (h := hnew) hr)
      (hr.no_move he rfl)
  | lockAdvisory he hr | insertPayment he hr | insertKey he hr | updateKeys he hr
  | insertDlqJob he hr | updateDlqJobs he hr =>
    exact h.kept hs' rfl rfl (fun _ _ hr => hr) (hr.no_move he rfl)
  | raised he hpc => exact h.ended hs' rfl (.inr rfl) (.inr rfl)
  | aborted he hpc => exact h.ended hs' rfl (.inr rfl) (.inr rfl)
  | commit he hpc => exact h.ended hs' rfl (.inl rfl) (.inl rfl)
  | tick => exact ⟨h.seats, h.bookings⟩

end writers

/-! ## Committed rows -/

section rows

variable {σ σ' : Store} {a : Action}

/-- What a commit does: it publishes the seats and the bookings of its execution, which has returned.
Source: none: infrastructure. Kind: L -/
theorem Stepped.of_commit {i : ℕ} (hs : Stepped σ (.commit i) σ') : σ'.seats = σ.seats.commit i ∧
    σ'.bookings = σ.bookings.commit i ∧ σ'.now = σ.now ∧ ∃ e r, σ.execs[i]? = some e ∧ e.pc = .ret r := by
  cases hs with
  | commit he hpc => exact ⟨rfl, rfl, rfl, _, _, he, hpc⟩

/-- The committed seats change at commits only. Source: none: infrastructure. Kind: L -/
theorem Stepped.seats_committed (hs : Stepped σ a σ') :
    σ'.seats.committed = σ.seats.committed ∨
    ∃ i e r, a = .commit i ∧ σ.execs[i]? = some e ∧ e.pc = .ret r ∧ σ'.seats = σ.seats.commit i := by
  cases hs with
  | update he hr hseats hbookings => exact .inl (Versioned.update_committed hseats)
  | commit he hpc => exact .inr ⟨_, _, _, rfl, he, hpc, rfl⟩
  | _ => exact .inl rfl

/-- **What a step does to a seat**: nothing, or it is the commit of an execution that has locked it,
whose write it becomes. Source: none: infrastructure. Kind: L -/
theorem seat_change (hl : LocksOk σ) (hs : Stepped σ a σ') {k : SeatId} {s s' : Seat}
    (hold : σ.seats.committed.find? k = some s) (hnew : σ'.seats.committed.find? k = some s') :
    s' = s ∨ ∃ i e r, a = .commit i ∧ σ.execs[i]? = some e ∧ e.pc = .ret r ∧
      σ.seats.lock k = some (i, s') ∧ SeatWrite e.call e.now s s' := by
  rcases hs.seats_committed with heq | ⟨i, e, r, rfl, he, hpc, heq⟩
  · rw [heq, hold] at hnew
    exact .inl (Option.some.inj hnew).symm
  · rw [heq] at hnew
    rcases Versioned.find?_commit_cases hnew with ⟨hlock, -⟩ | ⟨hsame, -⟩
    · right
      obtain ⟨s₀, hs₀, e₀, he₀, -, hw⟩ := hl.seats k i s' hlock
      obtain rfl := Option.eq_some_unique hold hs₀
      obtain rfl := Option.eq_some_unique he he₀
      exact ⟨i, e, r, rfl, he, hpc, hlock, hw⟩
    · rw [hold] at hsame
      exact .inl (Option.some.inj hsame).symm

/-- No step adds or removes a seat. Source: none: infrastructure. Kind: L -/
theorem Stepped.seat_isSome (hs : Stepped σ a σ') (k : SeatId) :
    (σ'.seats.committed.find? k).isSome = (σ.seats.committed.find? k).isSome := by
  rcases hs.seats_committed with heq | ⟨i, e, r, -, -, -, heq⟩ <;> rw [heq]
  rw [Versioned.find?_commit, Option.isSome_map]

/-- A seat after a step was there before. Source: none: infrastructure. Kind: L -/
theorem seat_old (hl : LocksOk σ) (hs : Stepped σ a σ') {k : SeatId} {s' : Seat}
    (hnew : σ'.seats.committed.find? k = some s') :
    ∃ s, σ.seats.committed.find? k = some s ∧
      (s' = s ∨ ∃ i e r, a = .commit i ∧ σ.execs[i]? = some e ∧ e.pc = .ret r ∧
        σ.seats.lock k = some (i, s') ∧ SeatWrite e.call e.now s s') := by
  have hsome : (σ.seats.committed.find? k).isSome = true := by
    rw [← hs.seat_isSome k, hnew]
    rfl
  obtain ⟨s, hold⟩ := Option.isSome_iff_exists.mp hsome
  exact ⟨s, hold, seat_change hl hs hold hnew⟩

/-- A seat is there after a step, as it was or as its writer left it. Source: none: infrastructure.
Kind: L -/
theorem seat_next (hl : LocksOk σ) (hs : Stepped σ a σ') {k : SeatId} {s : Seat}
    (hold : σ.seats.committed.find? k = some s) :
    ∃ s', σ'.seats.committed.find? k = some s' ∧
      (s' = s ∨ ∃ i e r, a = .commit i ∧ σ.execs[i]? = some e ∧ e.pc = .ret r ∧
        σ.seats.lock k = some (i, s') ∧ SeatWrite e.call e.now s s') := by
  have hsome : (σ'.seats.committed.find? k).isSome = true := by
    rw [hs.seat_isSome k, hold]
    rfl
  obtain ⟨s', hnew⟩ := Option.isSome_iff_exists.mp hsome
  exact ⟨s', hnew, seat_change hl hs hold hnew⟩

/-- The committed bookings change at commits and at the insertion of a new row.
Source: none: infrastructure. Kind: L -/
theorem Stepped.bookings_committed (hs : Stepped σ a σ') :
    σ'.bookings.committed = σ.bookings.committed ∨
    (∃ i e r, a = .commit i ∧ σ.execs[i]? = some e ∧ e.pc = .ret r ∧
      σ'.bookings = σ.bookings.commit i) ∨
    ∃ i ch e args uuid hnew, a = .exec i ch ∧ σ.execs[i]? = some e ∧
      e.call = .createBooking args ∧
      bookingChecks args.passengerName args.passengerPhone = true ∧
      (∀ r ∈ σ.bookings.committed, r.idempotencyKey ≠ args.idempotencyKey) ∧
      σ'.bookings = σ.bookings.insert (newBooking uuid args e.now) hnew := by
  cases hs with
  | update he hr hseats hbookings => exact .inl (Versioned.update_committed hbookings)
  | commit he hpc => exact .inr (.inl ⟨_, _, _, rfl, he, hpc, rfl⟩)
  | @insertBooking i ch e row next he hr hnew hkey =>
    obtain ⟨call, client, now, pc⟩ := e
    cases hr with
    | createBooking hchecks =>
      exact .inr (.inr ⟨i, ch, _, _, _, hnew, rfl, he, rfl, hchecks, hkey, rfl⟩)
  | _ => exact .inl rfl

/-- **What a step does to a booking**: nothing, or it is the commit of an execution that has locked
it, whose write it becomes. Source: none: infrastructure. Kind: L -/
theorem booking_change (hl : LocksOk σ) (hs : Stepped σ a σ') {b : BookingId} {r r' : Booking}
    (hold : σ.bookings.committed.find? b = some r)
    (hnew : σ'.bookings.committed.find? b = some r') :
    r' = r ∨ ∃ i e reply, a = .commit i ∧ σ.execs[i]? = some e ∧ e.pc = .ret reply ∧
      σ.bookings.lock b = some (i, r') ∧ BookingWrite e.call e.now r r' := by
  rcases hs.bookings_committed with heq | ⟨i, e, reply, rfl, he, hpc, heq⟩ |
    ⟨i, ch, e, args, uuid, hfresh, -, -, -, -, -, heq⟩
  · rw [heq, hold] at hnew
    exact .inl (Option.some.inj hnew).symm
  · rw [heq] at hnew
    rcases Versioned.find?_commit_cases hnew with ⟨hlock, -⟩ | ⟨hsame, -⟩
    · right
      obtain ⟨r₀, hr₀, e₀, he₀, -, hw⟩ := hl.bookings b i r' hlock
      obtain rfl := Option.eq_some_unique hold hr₀
      obtain rfl := Option.eq_some_unique he he₀
      exact ⟨i, e, reply, rfl, he, hpc, hlock, hw⟩
    · rw [hold] at hsame
      exact .inl (Option.some.inj hsame).symm
  · rw [heq, Versioned.insert, Table.find?_insert_of_some (h := hfresh) hold] at hnew
    exact .inl (Option.some.inj hnew).symm

/-- No step removes a booking. Source: none: infrastructure. Kind: L -/
theorem Stepped.booking_stays (hs : Stepped σ a σ') {b : BookingId} {r : Booking}
    (hold : σ.bookings.committed.find? b = some r) :
    ∃ r', σ'.bookings.committed.find? b = some r' := by
  rcases hs.bookings_committed with heq | ⟨i, e, reply, -, -, -, heq⟩ |
    ⟨i, ch, e, args, uuid, hfresh, -, -, -, -, -, heq⟩
  · exact ⟨r, by rw [heq, hold]⟩
  · exact ⟨_, by rw [heq, Versioned.find?_commit, hold]; rfl⟩
  · exact ⟨r, by rw [heq, Versioned.insert, Table.find?_insert_of_some (h := hfresh) hold]⟩

/-- A booking after a step was there before, or it alone has just been inserted.
Source: none: infrastructure. Kind: L -/
theorem booking_old (hs : Stepped σ a σ') {b : BookingId} {r' : Booking}
    (hnew : σ'.bookings.committed.find? b = some r') :
    (∃ r, σ.bookings.committed.find? b = some r) ∨
    (∀ b' r, σ'.bookings.committed.find? b' = some r →
      b' = b ∨ σ.bookings.committed.find? b' = some r) ∧
    ∃ i ch e args, a = .exec i ch ∧ σ.execs[i]? = some e ∧ e.call = .createBooking args ∧
      bookingChecks args.passengerName args.passengerPhone = true ∧
      (∀ r ∈ σ.bookings.committed, r.idempotencyKey ≠ args.idempotencyKey) ∧
      r' = newBooking b args e.now := by
  rcases hs.bookings_committed with heq | ⟨i, e, reply, -, -, -, heq⟩ |
    ⟨i, ch, e, args, uuid, hfresh, rfl, he, hcall, hchecks, hkey, heq⟩
  · exact .inl ⟨r', by rw [← heq, hnew]⟩
  · rw [heq, Versioned.find?_commit, Option.map_eq_some_iff] at hnew
    obtain ⟨r, hr, -⟩ := hnew
    exact .inl ⟨r, hr⟩
  · have hfind : ∀ b' r, σ'.bookings.committed.find? b' = some r →
        (b' = uuid ∧ r = newBooking uuid args e.now) ∨ σ.bookings.committed.find? b' = some r := by
      intro b' r hr
      rw [heq, Versioned.insert, Table.find?_insert] at hr
      split at hr
      · rename_i hid
        exact .inl ⟨hid.symm, (Option.some.inj hr).symm⟩
      · exact .inr hr
    rcases hfind b r' hnew with ⟨rfl, rfl⟩ | hold
    · exact .inr ⟨fun b' r hr => (hfind b' r hr).imp_left And.left,
        i, ch, e, args, rfl, he, hcall, hchecks, hkey, rfl⟩
    · exact .inl ⟨r', hold⟩

end rows

/-! ## Keys -/

section keys

variable {σ σ' : Store} {a : Action}

/-- **What a step does to the row of a key**: nothing, or it is the one statement of a call, whose write it
becomes. Source: migrations `140_fn_idempotency_check`, `150_fn_write_idempotency_response`. Kind: L -/
theorem key_change (hs : Stepped σ a σ') {k : IdempotencyKey} {row' : IdempotencyRow}
    (hnew : σ'.idempotencyKeys.find? k = some row') :
    σ.idempotencyKeys.find? k = some row' ∨ ∃ i ch e, a = .exec i ch ∧ σ.execs[i]? = some e ∧
      e.pc = .start ∧ KeyWrite e.call e.now k (σ.idempotencyKeys.find? k) row' := by
  cases hs with
  | @insertKey i ch e row next he hr hfresh =>
    rw [goto_idempotencyKeys, Table.find?_insert] at hnew
    split at hnew
    · rename_i hk
      subst hk
      cases hnew
      rw [hfresh]
      obtain ⟨call, client, now, pc⟩ := e
      cases hr with
      | keyNew => exact .inr ⟨i, ch, _, rfl, he, rfl, .check rfl⟩
    · exact .inl hnew
  | @updateKeys i ch e u next he hr =>
    rw [goto_idempotencyKeys, Table.find?_modify, Option.map_eq_some_iff] at hnew
    obtain ⟨row, hrow, rfl⟩ := hnew
    have hid : row.idempotencyKey = k := Table.key_of_find? hrow
    obtain ⟨call, client, now, pc⟩ := e
    cases hr with
    | @writeResponse k₁ st body =>
      unfold Update.apply
      split
      · rename_i hk
        obtain rfl : row.idempotencyKey = k₁ := by simpa [writeResponseUpdate] using hk
        subst hid
        rw [hrow]
        exact .inr ⟨i, ch, _, rfl, he, rfl, .answer rfl⟩
      · exact .inl hrow
  | _ => exact .inl hnew

/-- No step removes a key. Source: none: infrastructure. Kind: L -/
theorem Stepped.key_stays (hs : Stepped σ a σ') {k : IdempotencyKey} {row : IdempotencyRow}
    (hold : σ.idempotencyKeys.find? k = some row) :
    ∃ row', σ'.idempotencyKeys.find? k = some row' := by
  cases hs with
  | insertKey he hr hfresh => exact ⟨row, Table.find?_insert_of_some (h := hfresh) hold⟩
  | updateKeys he hr => exact ⟨_, by rw [goto_idempotencyKeys, Table.find?_modify, hold]; rfl⟩
  | _ => exact ⟨row, hold⟩

/-- The row of a key is there after a step, as it was or with a response. Source: migration
`150_fn_write_idempotency_response`. Kind: L -/
theorem key_next (hs : Stepped σ a σ') {k : IdempotencyKey} {row : IdempotencyRow}
    (hold : σ.idempotencyKeys.find? k = some row) :
    ∃ row', σ'.idempotencyKeys.find? k = some row' ∧ (row' = row ∨
      ∃ i ch e st body, a = .exec i ch ∧ σ.execs[i]? = some e ∧ e.pc = .start ∧
        e.call = .writeIdempotencyResponse k st body ∧ row' = answeredRow row st body) := by
  obtain ⟨row', hnew⟩ := hs.key_stays hold
  refine ⟨row', hnew, ?_⟩
  rcases key_change hs hnew with hsame | ⟨i, ch, e, rfl, he, hpc, hw⟩
  · exact .inl (Option.eq_some_unique hsame hold)
  · rw [hold] at hw
    cases hw with
    | answer hcall => exact .inr ⟨i, ch, e, _, _, rfl, he, hpc, hcall, rfl⟩

/-- The statement that writes a response. Source: migration `150_fn_write_idempotency_response`.
Kind: L -/
theorem Runs.of_write {i : ℕ} {now : Time} {call : Call} {pc : Pc} {st : Stmt} {k : IdempotencyKey}
    {status : ℕ} {body : CachedBody} (h : Runs σ i now call pc st)
    (hcall : call = .writeIdempotencyResponse k status body) :
    st = .updateKeys (writeResponseUpdate k status body) (.ret .unit) := by
  subst hcall
  cases h with
  | writeResponse => rfl
  | releaseSnapshot hrel | releaseSeatsOnly hrel | releaseSeatsThenRow hrel | releaseRow hrel =>
    cases hrel

/-- **A response that is written is stored**, whatever was. Source: migration
`150_fn_write_idempotency_response`. Kind: L -/
theorem Stepped.key_answered {i : ℕ} {ch : Choice} {e : Exec} {k : IdempotencyKey} {st : ℕ}
    {body : CachedBody} (hs : Stepped σ (.exec i ch) σ') (he : σ.execs[i]? = some e)
    (hcall : e.call = .writeIdempotencyResponse k st body) {row : IdempotencyRow}
    (hold : σ.idempotencyKeys.find? k = some row) :
    σ'.idempotencyKeys.find? k = some (answeredRow row st body) := by
  cases hs with
  | updateKeys hi hr =>
    obtain rfl := Option.eq_some_unique he hi
    cases hr.of_write hcall
    have hid : row.idempotencyKey = k := Table.key_of_find? hold
    rw [goto_idempotencyKeys, Table.find?_modify, hold]
    simp [Update.apply, writeResponseUpdate, answeredRow, hid]
  | select hi hr | update hi hr | lockAdvisory hi hr | insertBooking hi hr | insertPayment hi hr
  | insertKey hi hr | insertDlqJob hi hr | updateDlqJobs hi hr =>
    obtain rfl := Option.eq_some_unique he hi
    cases hr.of_write hcall
  | raised hi _ hr hraises =>
    obtain rfl := Option.eq_some_unique he hi
    rw [hr.of_write hcall] at hraises
    cases hraises

end keys

/-! ## Locks of the others -/

section others

variable {σ σ' : Store} {a : Action} {i j : ℕ}

/-- A step keeps the seat locks of the executions that do not move. Source: none: infrastructure.
Kind: L -/
theorem Stepped.seat_lock_iff (hs : Stepped σ a σ') (ha : a.actor ≠ some j) {k : SeatId} {w : Seat} :
    σ'.seats.lock k = some (j, w) ↔ σ.seats.lock k = some (j, w) := by
  cases hs with
  | @update i ch e us ub next seats bookings he hr hseats hbookings =>
    have hne : j ≠ i := fun h => ha (by rw [h]; rfl)
    refine ⟨fun hl => ?_, fun hl => Versioned.lock_update_of_ne hseats hl hne⟩
    exact (Versioned.lock_of_update hseats hl).resolve_left fun hown => hne hown.1
  | @commit i e r he hpc =>
    have hne : j ≠ i := fun h => ha (by rw [h]; rfl)
    exact Versioned.lock_commit_iff.trans (and_iff_left hne)
  | @raised i ch e _ he hpc | @aborted i e he hpc =>
    have hne : j ≠ i := fun h => ha (by rw [h]; rfl)
    exact Versioned.lock_rollback_iff.trans (and_iff_left hne)
  | _ => exact Iff.rfl

/-- A step keeps the booking locks of the executions that do not move.
Source: none: infrastructure. Kind: L -/
theorem Stepped.booking_lock_iff (hs : Stepped σ a σ') (ha : a.actor ≠ some j) {b : BookingId}
    {w : Booking} : σ'.bookings.lock b = some (j, w) ↔ σ.bookings.lock b = some (j, w) := by
  cases hs with
  | @update i ch e us ub next seats bookings he hr hseats hbookings =>
    have hne : j ≠ i := fun h => ha (by rw [h]; rfl)
    refine ⟨fun hl => ?_, fun hl => Versioned.lock_update_of_ne hbookings hl hne⟩
    exact (Versioned.lock_of_update hbookings hl).resolve_left fun hown => hne hown.1
  | @commit i e r he hpc =>
    have hne : j ≠ i := fun h => ha (by rw [h]; rfl)
    exact Versioned.lock_commit_iff.trans (and_iff_left hne)
  | @raised i ch e _ he hpc | @aborted i e he hpc =>
    have hne : j ≠ i := fun h => ha (by rw [h]; rfl)
    exact Versioned.lock_rollback_iff.trans (and_iff_left hne)
  | _ => exact Iff.rfl

end others

/-! ## What no step takes back -/

/-- A booking row and a later version of it: what the ingress wrote stays, and a booking that is no
longer `PENDING` stays as it is. Source: migration `060_bookings`. Kind: D -/
structure Grows (r r' : Booking) : Prop where
  idempotencyKey : r'.idempotencyKey = r.idempotencyKey
  trainId : r'.trainId = r.trainId
  passengerName : r'.passengerName = r.passengerName
  pricePaise : r'.pricePaise = r.pricePaise
  settled : r.status ≠ .pending → r' = r

/-- Nothing happened to the row. Source: none: infrastructure. Kind: L -/
theorem Grows.refl (r : Booking) : Grows r r := ⟨rfl, rfl, rfl, rfl, fun _ => rfl⟩

/-- Growth composes. Source: none: infrastructure. Kind: L -/
theorem Grows.trans {r r' r'' : Booking} (h : Grows r r') (h' : Grows r' r'') : Grows r r'' where
  idempotencyKey := h'.idempotencyKey.trans h.idempotencyKey
  trainId := h'.trainId.trans h.trainId
  passengerName := h'.passengerName.trans h.passengerName
  pricePaise := h'.pricePaise.trans h.pricePaise
  settled hne := by
    obtain rfl := h.settled hne
    exact h'.settled hne

/-- A write to a booking finds it `PENDING`. Source: none: infrastructure. Kind: L -/
theorem BookingWrite.pending {call : Call} {now : Time} {r w : Booking}
    (h : BookingWrite call now r w) : r.status = .pending := by
  cases h with
  | confirm hcall hcond => exact (confirmRowUpdate_cond_iff.mp hcond).2
  | fail hcall hcond =>
    simp only [failRowUpdate, Bool.and_eq_true, beq_iff_eq] at hcond
    exact hcond.2
  | expire hcall hcond =>
    simp only [sweepRowsUpdate, Bool.and_eq_true, beq_iff_eq] at hcond
    exact hcond.1

/-- A write to a booking settles it. Source: none: infrastructure. Kind: L -/
theorem BookingWrite.settles {call : Call} {now : Time} {r w : Booking}
    (h : BookingWrite call now r w) : w.status ≠ .pending := by
  cases h <;> simp [confirmRowUpdate, failRowUpdate, sweepRowsUpdate]

/-- What `confirm_booking` writes to its booking. Source: migration `110_fn_confirm_booking`,
statement 3. Kind: L -/
theorem BookingWrite.of_confirmBooking {b : BookingId} {seat : SeatId} {payment : PaymentId}
    {now : Time} {r w : Booking} (h : BookingWrite (.confirmBooking b seat payment) now r w) :
    w.status = .confirmed ∧ w.seatId = some seat ∧ w.paymentId = some payment := by
  cases h with
  | confirm hcall =>
    cases hcall
    exact ⟨rfl, rfl, rfl⟩
  | fail hcall => cases hcall
  | expire hcall => cases hcall

/-- A write to a booking is growth. Source: none: infrastructure. Kind: L -/
theorem BookingWrite.grows {call : Call} {now : Time} {r w : Booking}
    (h : BookingWrite call now r w) : Grows r w := by
  have hp := h.pending
  cases h <;> exact ⟨rfl, rfl, rfl, rfl, fun hne => absurd hp hne⟩

/-- `σ'` is later than `σ`. Source: none: infrastructure. Kind: D -/
structure Le (σ σ' : Store) : Prop where
  booking : ∀ b r, σ.bookings.committed.find? b = some r →
    ∃ r', σ'.bookings.committed.find? b = some r' ∧ Grows r r'
  payment : ∀ p row, σ.payments.find? p = some row → σ'.payments.find? p = some row
  idempotencyKey : ∀ k row, σ.idempotencyKeys.find? k = some row →
    ∃ row', σ'.idempotencyKeys.find? k = some row' ∧ row'.requestHash = row.requestHash
  dlqJob : ∀ id j, σ.dlqJobs.find? id = some j →
    ∃ j', σ'.dlqJobs.find? id = some j' ∧ j'.qstashMessageId = j.qstashMessageId ∧
      j'.payload = j.payload
  now : σ.now ≤ σ'.now

/-- Every store is later than itself. Source: none: infrastructure. Kind: L -/
theorem Le.refl (σ : Store) : Le σ σ where
  booking _ r hr := ⟨r, hr, .refl r⟩
  payment _ _ h := h
  idempotencyKey _ row h := ⟨row, h, rfl⟩
  dlqJob _ j h := ⟨j, h, rfl, rfl⟩
  now := le_rfl

/-- Marking a job as retried keeps its message and its payload. Source:
`lib/db/repositories/dlq.ts` `markDlqRetried`. Kind: L -/
theorem Runs.dlqJobs_update {σ : Store} {i : ℕ} {now : Time} {call : Call} {pc next : Pc}
    {u : Update DlqJob} (h : Runs σ i now call pc (.updateDlqJobs u next)) (j : DlqJob) :
    (u.apply j).qstashMessageId = j.qstashMessageId ∧ (u.apply j).payload = j.payload := by
  cases h
  exact ⟨Update.apply_congr (fun _ => rfl) j, Update.apply_congr (fun _ => rfl) j⟩

/-- The clock does not go back. Source: none: infrastructure. Kind: L -/
theorem Stepped.now_le {σ σ' : Store} {a : Action} (hs : Stepped σ a σ') : σ.now ≤ σ'.now := by
  cases hs with
  | tick => exact Nat.le_add_right _ _
  | _ => exact le_rfl

/-- **A step only goes forward.** Source: none: infrastructure. Kind: L -/
theorem Stepped.le {σ σ' : Store} {a : Action} (hl : LocksOk σ) (hs : Stepped σ a σ') :
    Le σ σ' where
  booking b r hr := by
    obtain ⟨r', hr'⟩ := hs.booking_stays hr
    rcases booking_change hl hs hr hr' with rfl | ⟨_, _, _, -, -, -, -, hw⟩
    · exact ⟨r', hr', .refl r'⟩
    · exact ⟨r', hr', hw.grows⟩
  payment p row hp := by
    cases hs with
    | insertPayment he hr hnew hkey => exact Table.find?_insert_of_some (h := hnew) hp
    | _ => exact hp
  idempotencyKey k row hk := by
    obtain ⟨row', hnew, rfl | ⟨_, _, _, _, _, -, -, -, -, rfl⟩⟩ := key_next hs hk
    · exact ⟨row', hnew, rfl⟩
    · exact ⟨_, hnew, rfl⟩
  dlqJob id j hj := by
    cases hs with
    | insertDlqJob he hr hnew => exact ⟨j, Table.find?_insert_of_some (h := hnew) hj, rfl, rfl⟩
    | @updateDlqJobs i ch e u next he hr =>
      exact ⟨u.apply j, by simp [hj], hr.dlqJobs_update j⟩
    | _ => exact ⟨j, hj, rfl, rfl⟩
  now := hs.now_le

end Store

end TrainsAndTracks
