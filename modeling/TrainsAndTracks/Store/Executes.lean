import TrainsAndTracks.Store.Alone

/-!
# Executions there are

The converse of `Store.Alone`: what has to hold of the store for a call to be executed alone. Where no row
is locked every call is.

* `executed_of_select`, `executed_of_liveHold`, `executed_of_confirmable` — in any store.
* `Idle.executes_allocateSeat`, `Idle.executes_release` — where no row is locked.
-/

namespace TrainsAndTracks

open Found

namespace Store

/-! ## Executions there are -/

section executions

variable {σ τ : Store} {call : Call} {r : Reply} {b : BookingId}

/-- A call of one `SELECT` can be executed. Source: none: infrastructure. Kind: L -/
theorem executed_of_select (ch : Choice)
    (hst : σ.stmt σ.execs.length σ.now ch call .start = some (.select (.ret r))) :
    ∃ τ, Executed σ call r τ :=
  ⟨_, Finishes.executed (finishes_ret.select (e := ⟨call, 0, σ.now, .start⟩) ch hst)⟩

/-- The guard of `allocate_seat` may return any live hold of the booking. Source: migration
`100_fn_allocate_seat`, statement 1. Kind: L -/
theorem executed_of_liveHold (train : TrainId) (passenger : String) (hold : ℕ) {s : Seat}
    (hs : s ∈ σ.seats.committed) (hb : s.bookingId = some b) (hlive : s.liveAt σ.now = true) :
    ∃ τ, Executed σ (.allocateSeat train b passenger hold) (.allocated (some (s.id, s.version))) τ := by
  refine executed_of_select ⟨0, none, s.id⟩ ?_
  have hmem : s ∈ σ.seats.committed.select fun s => s.bookingId == some b && s.liveAt σ.now :=
    Table.mem_select.mpr ⟨hs, by simp [hb, hlive]⟩
  have hfind : (σ.seats.committed.select fun s => s.bookingId == some b && s.liveAt σ.now).find?
      (fun s' => s'.id == s.id) = some s := by
    cases hs' : (σ.seats.committed.select fun s => s.bookingId == some b && s.liveAt σ.now).find?
        (fun s' => s'.id == s.id) with
    | none => exact absurd (by simp) (List.find?_eq_none.mp hs' s hmem)
    | some s' =>
      have hmem' := (Table.mem_select.mp (List.mem_of_find?_eq_some hs')).1
      have hid : s'.id = s.id := by simpa using List.find?_some hs'
      obtain rfl : s' = s := Table.eq_of_key_eq hmem' hs hid
      rfl
  have hlh : σ.liveHold b σ.now s.id = some s := by
    simp only [liveHold, hfind, Option.some_or]
  show σ.allocateSeat σ.execs.length σ.now ⟨0, none, s.id⟩ train b passenger hold .start = _
  simp only [allocateSeat, hlh]

/-- A booking that can be confirmed is confirmed by an execution. Source: migration
`110_fn_confirm_booking`. Kind: L -/
theorem executed_of_confirmable {seat : SeatId} {payment : PaymentId}
    (h : σ.confirmable b seat payment = true) :
    ∃ τ, Executed σ (.confirmBooking b seat payment) (.confirmed (some b)) τ := by
  obtain ⟨⟨row, hrow, hpending⟩, ⟨s, hs, hcond⟩, hpayment, hfree, hfree'⟩ := confirmable_iff.mp h
  have hcondrow : (confirmRowUpdate b seat payment σ.now).cond row = true :=
    confirmRowUpdate_cond_iff.mpr ⟨Table.key_of_find? hrow, hpending⟩
  obtain ⟨seats, hseats⟩ := Versioned.exists_update (v := σ.seats) (u := confirmSeatUpdate b seat σ.now)
    σ.execs.length fun s' _ hc => by
      rw [key_seat, (confirmSeatUpdate_cond_iff.mp hc).1]
      exact hfree
  obtain ⟨bookings, hbookings⟩ := Versioned.exists_update (v := σ.bookings)
    (u := confirmRowUpdate b seat payment σ.now) σ.execs.length fun r _ hc => by
      rw [key_booking, (confirmRowUpdate_cond_iff.mp hc).1]
      exact hfree'
  have hsome : (σ.seats.committed.select (confirmSeatUpdate b seat σ.now).cond).isEmpty = false := by
    refine Bool.eq_false_iff.mpr fun hempty => ?_
    have hno := select_isEmpty_iff.mp hempty s (Table.mem_of_find? hs)
    rw [hcond] at hno
    cases hno
  have hsome' : (σ.bookings.committed.select (confirmRowUpdate b seat payment σ.now).cond).isEmpty =
      false := by
    refine Bool.eq_false_iff.mpr fun hempty => ?_
    have hno := select_isEmpty_iff.mp hempty row (Table.mem_of_find? hrow)
    rw [hcondrow] at hno
    cases hno
  have hknown : (σ.payments.find? payment).isNone = false := by
    rw [← Option.not_isSome, hpayment]
    rfl
  let ch : Choice := ⟨0, none, seat⟩
  have hstart : σ.confirmBooking σ.now b seat payment .start = some (.select .confirmSeat) := by
    simp only [confirmBooking, hrow, hpending, beq_self_eq_true, if_true]
  have hseat : σ.confirmBooking σ.now b seat payment .confirmSeat =
      some (.update (confirmSeatUpdate b seat σ.now) .skip .confirmRow) := by
    simp only [confirmBooking, hsome, Bool.false_eq_true, if_false]
  have hbooking : ({ σ with seats := seats } : Store).confirmBooking σ.now b seat payment .confirmRow =
      some (.update .skip (confirmRowUpdate b seat payment σ.now) (.ret (.confirmed (some b)))) := by
    simp only [confirmBooking, hsome', hknown, Bool.false_eq_true, if_false]
  have hlast := Finishes.update (σ := { σ with seats := seats })
    (e := ⟨.confirmBooking b seat payment, 0, σ.now, .confirmRow⟩) finishes_ret ch hbooking
    (Versioned.update_skip _ _) hbookings
  have hmiddle := Finishes.update (σ := σ)
    (e := ⟨.confirmBooking b seat payment, 0, σ.now, .confirmSeat⟩) hlast ch hseat hseats
    (Versioned.update_skip _ _)
  exact ⟨_, (hmiddle.select (e := ⟨.confirmBooking b seat payment, 0, σ.now, .start⟩) ch
    hstart).executed⟩

/-- `getBookingById` can be executed. Source: `lib/db/repositories/bookings.ts` `getBookingById`.
Kind: L -/
theorem executes_getBookingById (σ : Store) (b : BookingId) :
    ∃ r τ, Executed σ (.getBookingById b) r τ :=
  ⟨_, executed_of_select ⟨0, none, ""⟩ rfl⟩

/-- `write_idempotency_response` can be executed. Source: migration
`150_fn_write_idempotency_response`. Kind: L -/
theorem executes_writeIdempotencyResponse (σ : Store) (k : IdempotencyKey) (st : ℕ) (body : CachedBody) :
    ∃ r τ, Executed σ (.writeIdempotencyResponse k st body) r τ :=
  ⟨_, _, (Finishes.updateKeys (e := ⟨.writeIdempotencyResponse k st body, 0, σ.now, .start⟩) finishes_ret
    ⟨0, none, ""⟩ rfl).executed⟩

/-- `getDlqJobById` can be executed. Source: `lib/db/repositories/dlq.ts` `getDlqJobById`. Kind: L -/
theorem executes_getDlqJobById (σ : Store) (id : ℕ) : ∃ r τ, Executed σ (.getDlqJobById id) r τ :=
  ⟨_, executed_of_select ⟨0, none, ""⟩ rfl⟩

/-- `markDlqRetried` can be executed. Source: `lib/db/repositories/dlq.ts` `markDlqRetried`. Kind: L -/
theorem executes_markDlqRetried (σ : Store) (id : ℕ) : ∃ r τ, Executed σ (.markDlqRetried id) r τ :=
  ⟨_, _, (Finishes.updateDlqJobs (e := ⟨.markDlqRetried id, 0, σ.now, .start⟩) finishes_ret
    ⟨0, none, ""⟩ rfl).executed⟩

/-- A charge can be executed with the gateway accepting what is drawn. Source: `lib/payment/mock-service.ts`
`charge`. Kind: L -/
theorem executes_charge {amount : ℕ} {k : IdempotencyKey} (hl : LocksOk σ) (hamount : amount ≠ 0)
    (hdrawn : ∀ p ∈ σ.payments, p.status ≠ .pending) :
    ∃ r τ, Executed σ (.charge amount k) r τ ∧ ∀ p ∈ τ.payments, p ∈ σ.payments ∨ p.status = .succeeded := by
  obtain ⟨uuid, huuid⟩ := Table.exists_find?_eq_none σ.payments
  let ch : Choice := ⟨uuid, none, ""⟩
  cases hfind : σ.payments.rows.find? fun p => p.idempotencyKey == k with
  | some p =>
    have hmem : p ∈ σ.payments := List.mem_of_find?_eq_some hfind
    obtain ⟨r, hst⟩ : ∃ r, σ.charge ch amount k .start = some (.select (.ret r)) := by
      cases hp : p.status with
      | succeeded => exact ⟨.paid p.id true, by simp only [charge, hfind, hp]⟩
      | failed =>
        exact ⟨.paymentError (p.errorCode.getD .paymentDeclined), by simp only [charge, hfind, hp]⟩
      | pending => exact absurd hp (hdrawn p hmem)
    obtain ⟨τ, hexec⟩ : ∃ τ, Executed σ (.charge amount k) r τ := executed_of_select ch hst
    refine ⟨r, τ, hexec, fun q hq => ?_⟩
    rcases executed_charge hl hexec with ⟨_, -, -, hleaves, -⟩ | ⟨hfresh, -⟩
    · rw [hleaves.payments] at hq
      exact .inl hq
    · exact absurd (beq_iff_eq.mp (List.find?_some (p := fun p : Payment => p.idempotencyKey == k) hfind))
        (hfresh p hmem)
  | none =>
    have hfresh : ∀ p ∈ σ.payments, p.idempotencyKey ≠ k := fun p hp hk =>
      List.find?_eq_none.mp hfind p hp (beq_iff_eq.mpr hk)
    have hstart : σ.charge ch amount k .start = some (.select .chargeInsert) := by
      simp only [charge, hfind]
    have hdraw : σ.charge ch amount k .chargeInsert =
        some (.insertPayment ⟨uuid, k, amount, .succeeded, none⟩ (.ret (.paid uuid false))) := by
      simp only [charge, hamount, if_false, ch]
    have hlast := Finishes.insertPayment (e := ⟨.charge amount k, 0, σ.now, .chargeInsert⟩) huuid hfresh
      finishes_ret ch hdraw
    refine ⟨_, _, (hlast.select (e := ⟨.charge amount k, 0, σ.now, .start⟩) ch hstart).executed,
      fun q hq => ?_⟩
    have hq' : q ∈ σ.payments.insert ⟨uuid, k, amount, .succeeded, none⟩ huuid := hq
    rcases Table.mem_insert.mp hq' with hold | rfl
    · exact .inl hold
    · exact .inr rfl

end executions

/-! ## Stores without locks -/

section idle

variable {σ τ : Store} {r : Reply} {call : Call} {b : BookingId}

/-- No seat is locked. Source: none: infrastructure. Kind: L -/
theorem Idle.seat_lock (h : Idle σ) (k : SeatId) : σ.seats.lock k = none := by
  rw [h.seats]
  rfl

/-- No booking is locked. Source: none: infrastructure. Kind: L -/
theorem Idle.booking_lock (h : Idle σ) (k : BookingId) : σ.bookings.lock k = none := by
  rw [h.bookings]
  rfl

/-- Where no row is locked nobody has to have locked one. Source: none: infrastructure. Kind: L -/
theorem Idle.locks (h : Idle σ) : LocksOk σ where
  seats k _ _ hl := by
    rw [h.seat_lock k] at hl
    cases hl
  bookings k _ _ hl := by
    rw [h.booking_lock k] at hl
    cases hl

/-- A call executed alone leaves no lock. Source: none: infrastructure. Kind: L -/
theorem Leaves.idle {seats : Versioned ℕ Seat} {bookings : Versioned ℕ Booking}
    (h : Leaves σ τ seats bookings) (hseats : ∀ k, seats.lock k = none)
    (hbookings : ∀ k, bookings.lock k = none) : Idle τ := by
  constructor
  · rw [h.seats]
    exact Versioned.eq_ofTable hseats
  · rw [h.bookings]
    exact Versioned.eq_ofTable hbookings

/-- A free seat is picked. Source: migration `100_fn_allocate_seat`, statement 2. Kind: L -/
theorem Idle.pickAvailable_ne_none {i : ℕ} {train : TrainId} {s : Seat} (h : Idle σ)
    (hs : s ∈ σ.seats.committed) (htrain : s.trainId = train) (hfree : s.status = .available) :
    σ.pickAvailable i train ≠ none := by
  intro hnone
  have hunlocked : σ.seats.lockedFor i s.id = false := by
    rw [Versioned.lockedFor, h.seat_lock]
    rfl
  have hmem : s ∈ σ.seats.committed.select fun s =>
      s.trainId == train && s.status == .available && !σ.seats.lockedFor i s.id :=
    Table.mem_select.mpr ⟨hs, by simp [htrain, hfree, hunlocked]⟩
  rw [List.argmin_eq_none.mp hnone] at hmem
  cases hmem

/-- `allocate_seat` can be executed for a booking that exists. Source: migration
`100_fn_allocate_seat`. Kind: L -/
theorem Idle.executes_allocateSeat {row : Booking} (h : Idle σ)
    (hrow : σ.bookings.committed.find? b = some row) (train : TrainId) (passenger : String) (hold : ℕ) :
    ∃ r τ, Executed σ (.allocateSeat train b passenger hold) r τ := by
  let ch : Choice := ⟨0, none, ""⟩
  cases hlive : σ.liveHold b σ.now "" with
  | some s =>
    obtain ⟨hs, hb, hliveAt⟩ := liveHold_eq_some hlive
    exact ⟨_, executed_of_liveHold train passenger hold hs hb hliveAt⟩
  | none =>
    have hstart : σ.allocateSeat σ.execs.length σ.now ch train b passenger hold .start =
        some (.select .allocatePick) := by
      simp only [allocateSeat, ch, hlive]
    cases hpick : σ.pickAvailable σ.execs.length train with
    | none =>
      have hsold : σ.allocateSeat σ.execs.length σ.now ch train b passenger hold .allocatePick =
          some (.select (.ret (.allocated none))) := by
        simp only [allocateSeat, hpick]
      have hlast := finishes_ret.select (σ := σ)
        (e := ⟨.allocateSeat train b passenger hold, 0, σ.now, .allocatePick⟩) ch hsold
      exact ⟨_, _, (hlast.select
        (e := ⟨.allocateSeat train b passenger hold, 0, σ.now, .start⟩) ch hstart).executed⟩
    | some s =>
      have htake : σ.allocateSeat σ.execs.length σ.now ch train b passenger hold .allocatePick =
          some (.update (reserve s.id b passenger (σ.now + hold)) .skip
            (.ret (.allocated (some (s.id, s.version + 1))))) := by
        simp only [allocateSeat, hpick, hrow]
        rfl
      obtain ⟨seats, hseats⟩ := Versioned.exists_update (v := σ.seats)
        (u := reserve s.id b passenger (σ.now + hold)) σ.execs.length fun _ _ _ => h.seat_lock _
      have hlast := finishes_ret.update (σ := σ)
        (e := ⟨.allocateSeat train b passenger hold, 0, σ.now, .allocatePick⟩) ch htake hseats
        (Versioned.update_skip _ _)
      exact ⟨_, _, (hlast.select
        (e := ⟨.allocateSeat train b passenger hold, 0, σ.now, .start⟩) ch hstart).executed⟩

/-- A release can be executed. Source: migration `20260418000000_split_release_hold`. Kind: L -/
theorem Idle.executes_release (call : Call) {why : Option String} (h : Idle σ)
    (hcall : call.releases = some (b, why)) : ∃ r τ, Executed σ call r τ := by
  let ch : Choice := ⟨0, none, ""⟩
  have hrelease : ∀ (σ₁ : Store) i now pc, σ₁.stmt i now ch call pc = σ₁.release b why pc := by
    intro σ₁ i now pc
    cases call <;> cases hcall <;> rfl
  let snapshot := (σ.seats.committed.select (·.heldFor b)).map Seat.id
  obtain ⟨seats, hseats⟩ := Versioned.exists_update (v := σ.seats) (u := releaseSeatsUpdate b snapshot)
    σ.execs.length fun _ _ _ => h.seat_lock _
  cases why with
  | none =>
    have hlast := finishes_ret.update (σ := σ)
      (e := ⟨call, 0, σ.now, .releaseSeats snapshot⟩) ch (hrelease ..) hseats (Versioned.update_skip _ _)
    exact ⟨_, _, (hlast.select (e := ⟨call, 0, σ.now, .start⟩) ch (hrelease ..)).executed⟩
  | some why =>
    let rows := (σ.seats.committed.select (releaseSeatsUpdate b snapshot).cond).length
    obtain ⟨bookings, hbookings⟩ := Versioned.exists_update (v := σ.bookings) (u := failRowUpdate b why)
      σ.execs.length fun _ _ _ => h.booking_lock _
    have hlast := finishes_ret.update (σ := { σ with seats := seats })
      (e := ⟨call, 0, σ.now, .releaseRow rows⟩) ch (hrelease ..) (Versioned.update_skip _ _) hbookings
    have hmiddle := hlast.update (σ := σ)
      (e := ⟨call, 0, σ.now, .releaseSeats snapshot⟩) ch (hrelease ..) hseats (Versioned.update_skip _ _)
    exact ⟨_, _, (hmiddle.select (e := ⟨call, 0, σ.now, .start⟩) ch (hrelease ..)).executed⟩

end idle

end Store

end TrainsAndTracks
