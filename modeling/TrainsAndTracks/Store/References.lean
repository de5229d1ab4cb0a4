import TrainsAndTracks.Store.Reset
import TrainsAndTracks.Store.Tickets

/-!
# What survives a reset

Rows are deleted while executions are under way, so the invariants of `Store.Outcomes`, which rest on
rows that stay, are replaced by what needs no row to stay.

* `Sound` — the references between `seats`, `bookings` and `payments`, and the two versions of
  `confirm_booking`: kept by every step of the store (`Sound.step`) and by every statement of a reset.
* `Backed E` — every `CONFIRMED` booking has its seat, or a payment that `E` excuses. Statement 1 excuses
  every payment (`Sound.backed`) and statement 3 leaves no booking that is excused
  (`Backed.resetPayments`), since its foreign key refuses to delete a payment that a booking names.
* `draws_of_new`, `find?_resetBookings` — a deleted booking stays deleted unless its id is drawn again.
-/

namespace TrainsAndTracks

open Found

namespace Store

/-! ## References and versions -/

/-- Each booking, and each open version of one, that names a payment names one that exists, and a
`CONFIRMED` booking names one. Source: migrations `060_bookings`, `110_fn_confirm_booking`. Kind: D -/
structure PaymentRefOk (σ : Store) : Prop where
  committed : ∀ b r p, σ.bookings.committed.find? b = some r → r.paymentId = some p →
    ∃ pay, σ.payments.find? p = some pay
  open_ : ∀ b i w p, σ.bookings.lock b = some (i, w) → w.paymentId = some p →
    ∃ pay, σ.payments.find? p = some pay
  confirmed : ∀ b r, σ.bookings.committed.find? b = some r → r.status = .confirmed →
    ∃ p, r.paymentId = some p

/-- What execution `i` of `confirm_booking(b, seat, payment)` keeps locked at `pc`: the seat, once it has
been updated and while there is a version of a booking. Source: migration `110_fn_confirm_booking`.
Kind: D -/
structure Coupled (σ : Store) (i : ℕ) (seat : SeatId) (pc : Pc) : Prop where
  updated : pc = .confirmRow → ∃ v, σ.seats.lock seat = some (i, v)
  both : ∀ b w, σ.bookings.lock b = some (i, w) → ∃ v, σ.seats.lock seat = some (i, v)

/-- What no step of the store and no statement of a reset takes away. Source: migrations `060_bookings`,
`160_fk_seats_booking_id`, `110_fn_confirm_booking`. Kind: D -/
structure Sound (σ : Store) : Prop where
  locks : LocksOk σ
  refs : RefOk (fun _ _ => True) σ
  payments : PaymentRefOk σ
  pairs : ∀ (i : ℕ) (e : Exec), σ.execs[i]? = some e → ∀ b seat payment,
    e.call = .confirmBooking b seat payment → Coupled σ i seat e.pc

section sound

variable {σ σ' : Store} {a : Action} {i : ℕ}

/-- The steps of the others keep the seat locked. Source: none: infrastructure. Kind: L -/
theorem Coupled.of_ne {seat : SeatId} {pc : Pc} (h : Coupled σ i seat pc) (hs : Stepped σ a σ')
    (ha : a.actor ≠ some i) : Coupled σ' i seat pc where
  updated hpc := by
    obtain ⟨v, hv⟩ := h.updated hpc
    exact ⟨v, (hs.seat_lock_iff ha).mpr hv⟩
  both b w hlock := by
    obtain ⟨v, hv⟩ := h.both b w ((hs.booking_lock_iff ha).mp hlock)
    exact ⟨v, (hs.seat_lock_iff ha).mpr hv⟩

/-- A `SELECT` does not come before the booking is updated. Source: migration `110_fn_confirm_booking`.
Kind: L -/
theorem Runs.select_ne_confirmRow {now : Time} {call : Call} {pc next : Pc}
    (h : Runs σ i now call pc (.select next)) : next ≠ .confirmRow := by
  cases h <;> simp

/-- An `UPDATE` of its own keeps it. Source: migration `110_fn_confirm_booking`. Kind: L -/
theorem Coupled.of_update {e : Exec} {us : Update Seat} {ub : Update Booking}
    {seats : Versioned ℕ Seat} {bookings : Versioned ℕ Booking} {next : Pc} {b : BookingId}
    {seat : SeatId} {payment : PaymentId} (h : Coupled σ i seat e.pc)
    (hr : Runs σ i e.now (.confirmBooking b seat payment) e.pc (.update us ub next))
    (hseats : σ.seats.update i us = some seats)
    (hbookings : σ.bookings.update i ub = some bookings) :
    Coupled ({ σ with seats := seats, bookings := bookings }.goto i next) i seat next := by
  generalize hpc : e.pc = pc at *
  cases hr with
  | @confirmSeat _ _ _ s hs hcond =>
    have hid : s.id = seat := (confirmSeatUpdate_cond_iff.mp hcond).1
    have hfind : σ.seats.committed.find? seat = some s := by
      rw [← hid]
      exact Table.find?_of_mem hs
    have hlock := Versioned.lock_update_of_cond hseats hfind hcond
    exact ⟨fun _ => ⟨_, hlock⟩, fun _ _ _ => ⟨_, hlock⟩⟩
  | confirmRow =>
    rw [Versioned.update_skip] at hseats
    cases hseats
    exact ⟨by simp, fun _ _ _ => h.updated rfl⟩
  | releaseSeatsOnly hcall | releaseSeatsThenRow hcall | releaseRow hcall => cases hcall

/-- **The two versions of `confirm_booking` stay together.** Source: migration
`110_fn_confirm_booking`. Kind: L -/
theorem Stepped.coupled (hl : LocksOk σ) (hs : Stepped σ a σ')
    (h : ∀ (i : ℕ) (e : Exec), σ.execs[i]? = some e → ∀ b seat payment,
      e.call = .confirmBooking b seat payment → Coupled σ i seat e.pc) :
    ∀ (i : ℕ) (e : Exec), σ'.execs[i]? = some e → ∀ b seat payment,
      e.call = .confirmBooking b seat payment → Coupled σ' i seat e.pc := by
  have hl' := hl.step hs
  refine hs.forall_execs (P := fun σ i e => ∀ b seat payment,
    e.call = .confirmBooking b seat payment → Coupled σ i seat e.pc) h ?_ ?_ ?_ ?_ ?_ ?_
  · intro i e ha he hP b seat payment hcall
    exact (hP b seat payment hcall).of_ne hs ha
  · intro i e he hpc b seat payment hcall
    have hfree := not_locking hpc
    refine ⟨fun h => ?_, fun b w hlock => absurd hlock (hl'.no_booking_lock he hfree b w)⟩
    rw [h] at hfree
    cases hfree
  · intro i e next _ _ he hP hr b seat payment hcall
    exact ⟨fun h => absurd h hr.select_ne_confirmRow, (hP b seat payment hcall).both⟩
  · intro i e us ub next seats bookings _ _ he hP hr hseats hbookings b seat payment hcall
    exact (hP b seat payment hcall).of_update (hcall ▸ hr) hseats hbookings
  · intro i e r he hP hpc _ hbookings _ b seat payment hcall
    refine ⟨by simp, fun b w hlock => ?_⟩
    rw [hbookings] at hlock
    exact absurd rfl (Versioned.lock_commit_iff.mp hlock).2
  · intro i e st he hP hr hst _ _ _ _ b seat payment hcall
    rw [show e.call = .confirmBooking b seat payment from hcall] at hr
    generalize e.pc = pc at hr
    cases hr <;> cases hst

/-- An `UPDATE` that gives a booking a payment has found the payment. Source: migration
`110_fn_confirm_booking`, statement 3, `060_bookings`. Kind: L -/
theorem payment_of_update {now : Time} {ch : Choice} {call : Call} {pc next : Pc} {us : Update Seat}
    {ub : Update Booking} (h : σ.stmt i now ch call pc = some (.update us ub next)) {r : Booking}
    {p : PaymentId} (hp : (ub.set r).paymentId = some p) :
    r.paymentId = some p ∨ ∃ pay, σ.payments.find? p = some pay := by
  have hr := runs_of_stmt h
  cases hr with
  | confirmRow =>
    simp only [stmt, confirmBooking] at h
    split at h
    · cases h
    · split at h
      · cases h
      · rename_i hfound
        cases hp
        exact .inr (Option.ne_none_iff_exists'.mp (by simpa using hfound))
  | _ => exact .inl hp

/-- A version of a booking was there before a step, or an `UPDATE` has just made it. Source: none:
infrastructure. Kind: L -/
theorem booking_version_step (h : σ.step a = some σ') {b : BookingId} {j : ℕ} {w : Booking}
    (hlock : σ'.bookings.lock b = some (j, w)) : σ.bookings.lock b = some (j, w) ∨
      ∃ i now ch call pc us ub next r, σ.stmt i now ch call pc = some (.update us ub next) ∧
        σ.bookings.committed.find? b = some r ∧ w = ub.set r := by
  cases a with
  | exec i ch =>
    simp only [step, exec, Option.bind_eq_bind, Option.bind_eq_some_iff] at h
    obtain ⟨e, he, st, hst, hrun⟩ := h
    have hfail : ∀ {σ₁ : Store}, σ₁ = σ.fail i → σ₁.bookings.lock b = some (j, w) →
        σ.bookings.lock b = some (j, w) := by
      rintro _ rfl hlock
      exact (Versioned.lock_rollback_iff.mp hlock).1
    cases st with
    | update us ub next =>
      simp only [runStmt] at hrun
      split at hrun
      · rename_i seats bookings hseats hbookings
        cases hrun
        rcases Versioned.lock_of_update hbookings hlock with ⟨-, r, hr, -, rfl⟩ | hold
        · exact .inr ⟨i, e.now, ch, e.call, e.pc, us, ub, next, r, hst, hr, rfl⟩
        · exact .inl hold
      · cases hrun
    | insertBooking | insertPayment =>
      simp only [runStmt] at hrun
      split at hrun
      · split at hrun
        · cases hrun
          exact .inl (hfail rfl hlock)
        · cases hrun
          exact .inl hlock
      · cases hrun
    | insertKey | insertDlqJob =>
      simp only [runStmt] at hrun
      split at hrun
      · cases hrun
        exact .inl hlock
      · cases hrun
    | raise =>
      cases hrun
      exact .inl (hfail rfl hlock)
    | select | tryAdvisoryLock | updateKeys | updateDlqJobs =>
      cases hrun
      exact .inl hlock
  | commit =>
    cases step_cases h with
    | commit => exact .inl (Versioned.lock_commit_iff.mp hlock).1
  | abort =>
    cases step_cases h with
    | aborted => exact .inl (Versioned.lock_rollback_iff.mp hlock).1
  | begin =>
    cases h
    exact .inl hlock
  | start =>
    cases step_cases h with
    | start => exact .inl hlock
  | tick =>
    cases h
    exact .inl hlock

/-- **References to payments survive every step.** Source: migrations `060_bookings`,
`110_fn_confirm_booking`. Kind: L -/
theorem PaymentRefOk.step (hl : LocksOk σ) (h : PaymentRefOk σ) (hstep : σ.step a = some σ') :
    PaymentRefOk σ' := by
  have hs := step_cases hstep
  have hle := hs.le hl
  have hlater : ∀ {p}, (∃ pay, σ.payments.find? p = some pay) → ∃ pay, σ'.payments.find? p = some pay := by
    rintro p ⟨pay, hpay⟩
    exact ⟨pay, hle.payment p pay hpay⟩
  constructor
  · intro b r' p hr' hp
    rcases booking_old hs hr' with ⟨r, hr⟩ | ⟨-, i, ch, e, args, -, -, -, -, -, rfl⟩
    · rcases booking_change hl hs hr hr' with rfl | ⟨i, e, reply, -, -, -, hlock, -⟩
      · exact hlater (h.committed b r' p hr hp)
      · exact hlater (h.open_ b i r' p hlock hp)
    · cases hp
  · intro b j w p hlock hp
    rcases booking_version_step hstep hlock with
      hold | ⟨_, _, _, _, _, _, _, _, r, hst, hr, rfl⟩
    · exact hlater (h.open_ b j w p hold hp)
    · rcases payment_of_update hst hp with hold | hpay
      · exact hlater (h.committed b r p hr hold)
      · exact hlater hpay
  · intro b r' hr' hst
    rcases confirmed_cases hl hs hr' hst with hr | ⟨i, e, reply, r, -, -, -, -, -, hw⟩
    · exact h.confirmed b r' hr hst
    · obtain ⟨seat, payment, -, -, hpayment⟩ := hw.of_confirmed hst
      exact ⟨payment, hpayment⟩

/-- **Every step keeps the store sound.** Source: none: infrastructure. Kind: L -/
theorem Sound.step (h : Sound σ) (hstep : σ.step a = some σ') : Sound σ' where
  locks := h.locks.step (step_cases hstep)
  refs := h.refs.step h.locks (step_cases hstep) fun _ _ _ _ _ _ _ _ _ _ => trivial
  payments := h.payments.step h.locks hstep
  pairs := (step_cases hstep).coupled h.locks h.pairs

/-- An initial store is sound. Source: none: infrastructure. Kind: L -/
theorem Initial.sound (h : Initial σ) : Sound σ where
  locks := h.inv.locks
  refs := h.refOk _
  payments :=
    { committed := fun b r p hr => by
        rw [h.bookings_empty] at hr
        cases hr
      open_ := fun b i w p hlock => by
        rw [h.bookings_empty] at hlock
        cases hlock
      confirmed := fun b r hr => by
        rw [h.bookings_empty] at hr
        cases hr }
  pairs _ _ he := absurd he h.no_exec

/-! ## The statements keep the store sound -/

variable {train : TrainId} {n : ℕ}

/-- A seat that still names a booking after an `UPDATE` that clears the column is one that the `UPDATE`
was not for. Source: none: infrastructure. Kind: L -/
theorem seat_of_modify {seats : Versioned ℕ Seat} {u : Update Seat}
    (hnull : ∀ s, (u.set s).bookingId = none) {k : SeatId} {s : Seat} {b : BookingId}
    (hs : (seats.modify u).committed.find? k = some s) (hb : s.bookingId = some b) :
    seats.committed.find? k = some s ∧ u.cond s = false := by
  simp only [Versioned.modify, Table.find?_modify, Option.map_eq_some_iff] at hs
  obtain ⟨s₀, hs₀, rfl⟩ := hs
  unfold Update.apply at hb ⊢
  split at hb
  · rw [hnull] at hb
    cases hb
  · rename_i hcond
    rw [if_neg hcond]
    exact ⟨hs₀, by simpa using hcond⟩

/-- Statement 1 keeps the store sound. Source: `app/api/admin/reset/route.ts` (statement 1). Kind: L -/
theorem Sound.resetSeats (h : Sound σ) (hout : σ.resetSeats train = some (.committed σ' n)) :
    Sound σ' := by
  obtain ⟨hfree, heq⟩ := resetSeats_cases hout
  cases heq
  refine ⟨⟨h.locks.seats.modify hfree, h.locks.bookings⟩, ⟨fun k s b hs hb => ?_, h.refs.open_⟩,
    ⟨h.payments.committed, h.payments.open_, h.payments.confirmed⟩, fun i e he b seat payment hcall => ?_⟩
  · obtain ⟨hold, -⟩ := seat_of_modify (fun _ => rfl) hs hb
    exact h.refs.committed k s b hold hb
  · have hpair := h.pairs i e he b seat payment hcall
    exact ⟨hpair.updated, hpair.both⟩

/-- A booking that a seat or a version of one names is not deleted when the seat is not said to name a
deleted one. Source: migration `160_fk_seats_booking_id`. Kind: L -/
theorem find?_delete_of_namesDeleted {snapshot : List BookingId} {s : Seat} {b : BookingId} {r : Booking}
    (hno : σ.namesDeleted train snapshot s = false) (hb : s.bookingId = some b)
    (hr : σ.bookings.committed.find? b = some r) :
    (σ.bookings.committed.delete (deletes train snapshot)).find? b = some r := by
  refine Table.find?_delete.mpr ⟨hr, ?_⟩
  simpa [namesDeleted, hb, hr] using hno

/-- **Statement 2 keeps the store sound.** Source: `app/api/admin/reset/route.ts` (statement 2), migration
`160_fk_seats_booking_id`. Kind: L -/
theorem Sound.resetBookings {snapshot : List BookingId} (h : Sound σ)
    (hout : σ.resetBookings train snapshot = some (.committed σ' n)) : Sound σ' := by
  rcases resetBookings_cases hout with ⟨heq, -⟩ | ⟨hheld, hpending, hseats, -, heq⟩
  · cases heq
  · cases heq
    refine ⟨⟨h.locks.seats.modify hseats, h.locks.bookings.delete hheld⟩, ⟨?_, ?_⟩, ⟨?_, ?_, ?_⟩, ?_⟩
    · intro k s b hs hb
      obtain ⟨hold, hno⟩ := seat_of_modify (fun _ => rfl) hs hb
      obtain ⟨r, hr, -⟩ := h.refs.committed k s b hold hb
      exact ⟨r, find?_delete_of_namesDeleted hno hb hr, trivial⟩
    · intro k i w b hlock hb
      obtain ⟨s, hs, -⟩ := h.locks.seats k i w hlock
      obtain ⟨r, hr, -⟩ := h.refs.open_ k i w b hlock hb
      exact ⟨r, find?_delete_of_namesDeleted (Versioned.not_of_pending hpending hs hlock) hb hr, trivial⟩
    · intro b r p hr hp
      exact h.payments.committed b r p (Table.find?_delete.mp hr).1 hp
    · exact h.payments.open_
    · intro b r hr hst
      exact h.payments.confirmed b r (Table.find?_delete.mp hr).1 hst
    · intro i e he b seat payment hcall
      have hpair := h.pairs i e he b seat payment hcall
      exact ⟨hpair.updated, hpair.both⟩

/-- **Statement 3 keeps the store sound.** Source: `app/api/admin/reset/route.ts` (statement 3), migration
`060_bookings`. Kind: L -/
theorem Sound.resetPayments {snapshot : List PaymentId} (h : Sound σ)
    (hout : σ.resetPayments snapshot = some (.committed σ' n)) : Sound σ' := by
  rcases resetPayments_cases hout with ⟨heq, -⟩ | ⟨hpending, haccepts, heq⟩
  · cases heq
  · cases heq
    have hkept : ∀ {r : Booking} {p : PaymentId}, references snapshot r = false → r.paymentId = some p →
        (∃ pay, σ.payments.find? p = some pay) →
        ∃ pay, (σ.payments.delete fun p => snapshot.contains p.id).find? p = some pay := by
      rintro r p hno hp ⟨pay, hpay⟩
      obtain rfl : pay.id = p := Table.key_of_find? hpay
      exact ⟨pay, Table.find?_delete.mpr ⟨hpay, by simpa [references, hp] using hno⟩⟩
    refine ⟨⟨h.locks.seats, h.locks.bookings⟩, ⟨h.refs.committed, h.refs.open_⟩, ⟨?_, ?_, ?_⟩, ?_⟩
    · intro b r p hr hp
      have hno := List.any_eq_false.mp haccepts r (Table.mem_of_find? hr)
      exact hkept (by simpa using hno) hp (h.payments.committed b r p hr hp)
    · intro b i w p hlock hp
      obtain ⟨r, hr, -⟩ := h.locks.bookings b i w hlock
      exact hkept (Versioned.not_of_pending hpending hr hlock) hp (h.payments.open_ b i w p hlock hp)
    · exact h.payments.confirmed
    · intro i e he b seat payment hcall
      have hpair := h.pairs i e he b seat payment hcall
      exact ⟨hpair.updated, hpair.both⟩

/-- Nothing about keys and dead letters is part of it. Source: `app/api/admin/reset/route.ts` (statements
4 and 5). Kind: L -/
theorem Sound.other (h : Sound σ) (keys : Table IdempotencyRow) (jobs : Table DlqJob) :
    Sound { σ with idempotencyKeys := keys, dlqJobs := jobs } where
  locks := ⟨h.locks.seats, h.locks.bookings⟩
  refs := ⟨h.refs.committed, h.refs.open_⟩
  payments := ⟨h.payments.committed, h.payments.open_, h.payments.confirmed⟩
  pairs i e he b seat payment hcall :=
    ⟨(h.pairs i e he b seat payment hcall).updated, (h.pairs i e he b seat payment hcall).both⟩

end sound

/-! ## `CONFIRMED` bookings and their seats -/

/-- The seat of booking `r` is `CONFIRMED` and names `r`. Source: `tests/invariants/no-duplicate-seats.ts`
(I1). Kind: D -/
def Named (σ : Store) (r : Booking) : Prop :=
  ∃ k s, r.seatId = some k ∧ σ.seats.committed.find? k = some s ∧ s.status = .confirmed ∧
    s.bookingId = some r.id

/-- Every `CONFIRMED` booking has its seat, or a payment that `E` excuses. Source:
`app/api/admin/reset/route.ts`. Kind: D -/
def Backed (E : PaymentId → Prop) (σ : Store) : Prop :=
  ∀ b r, σ.bookings.committed.find? b = some r → r.status = .confirmed →
    Named σ r ∨ ∃ p, r.paymentId = some p ∧ E p

section backed

variable {σ σ' : Store} {a : Action} {E E' : PaymentId → Prop} {train : TrainId} {n : ℕ}

/-- A booking keeps its seat. Source: none: infrastructure. Kind: L -/
theorem Named.step (hl : LocksOk σ) (hs : Stepped σ a σ') {r : Booking} (h : Named σ r) : Named σ' r := by
  obtain ⟨k, s, hk, hold, hst, hb⟩ := h
  exact ⟨k, s, hk, confirmed_seat_stays hl hs hold hst, hst, hb⟩

/-- More may be excused. Source: none: infrastructure. Kind: L -/
theorem Backed.mono (h : Backed E σ) (hE : ∀ p, E p → E' p) : Backed E' σ := by
  intro b r hr hst
  rcases h b r hr hst with hnamed | ⟨p, hp, hex⟩
  · exact .inl hnamed
  · exact .inr ⟨p, hp, hE p hex⟩

/-- **A step keeps what it finds and seats what it confirms.** Source: migration
`110_fn_confirm_booking`. Kind: L -/
theorem Backed.step (h : Sound σ) (hb : Backed E σ) (hs : Stepped σ a σ') : Backed E σ' := by
  intro b r' hr' hst
  rcases confirmed_cases h.locks hs hr' hst with hr | ⟨i, e, reply, r, rfl, he, -, -, hlock, hw⟩
  · exact (hb b r' hr hst).imp_left (Named.step h.locks hs)
  · left
    obtain ⟨seat, payment, hcall, hseat, -⟩ := hw.of_confirmed hst
    obtain ⟨v, hv⟩ := (h.pairs i e he r'.id seat payment hcall).both b r' hlock
    obtain ⟨hpub, hvst, hname⟩ := seat_of_commit h.locks hs he hcall hv
    exact ⟨seat, v, hseat, hpub, hvst, hname⟩

/-- Every payment is excused after statement 1. Source: `app/api/admin/reset/route.ts` (statement 1).
Kind: L -/
theorem Sound.backed (h : Sound σ) : Backed (fun _ => True) σ := by
  intro b r hr hst
  obtain ⟨p, hp⟩ := h.payments.confirmed b r hr hst
  exact .inr ⟨p, hp, trivial⟩

/-- A `CONFIRMED` seat refuses to lose its booking. Source: migrations `030_seats`,
`160_fk_seats_booking_id`. Kind: L -/
theorem not_namesDeleted_of_confirmed {snapshot : List BookingId} {k : SeatId} {s : Seat}
    (haccepts : σ.seatRefuses train snapshot = false) (hs : σ.seats.committed.find? k = some s)
    (hst : s.status = .confirmed) : σ.namesDeleted train snapshot s = false := by
  have hrow := List.any_eq_false.mp haccepts s (Table.mem_of_find? hs)
  simpa [setNullUpdate, Seat.check, hst] using hrow

/-- **Statement 2 leaves the seats of the bookings it leaves.** Source: `app/api/admin/reset/route.ts`
(statement 2). Kind: L -/
theorem Backed.resetBookings {snapshot : List BookingId} (h : Backed E σ)
    (hout : σ.resetBookings train snapshot = some (.committed σ' n)) : Backed E σ' := by
  rcases resetBookings_cases hout with ⟨heq, -⟩ | ⟨-, -, -, haccepts, heq⟩
  · cases heq
  · cases heq
    intro b r hr hst
    refine (h b r (Table.find?_delete.mp hr).1 hst).imp_left ?_
    rintro ⟨k, s, hk, hs, hsst, hb⟩
    have hno := not_namesDeleted_of_confirmed haccepts hs hsst
    exact ⟨k, s, hk, Versioned.find?_modify_of_not hs hno, hsst, hb⟩

/-- A snapshot of the payments has every payment that a booking names. Source: migration `060_bookings`.
Kind: L -/
theorem Backed.snapshot (h : Sound σ) (hb : Backed E σ) :
    Backed (fun p => E p ∧ p ∈ σ.payments.rows.map Payment.id) σ := by
  intro b r hr hst
  rcases hb b r hr hst with hnamed | ⟨p, hp, hex⟩
  · exact .inl hnamed
  · obtain ⟨pay, hpay⟩ := h.payments.committed b r p hr hp
    obtain rfl : pay.id = p := Table.key_of_find? hpay
    exact .inr ⟨pay.id, hp, hex, List.mem_map_of_mem (Table.mem_of_find? hpay)⟩

/-- **Statement 3 leaves no booking that is excused.** Source: `app/api/admin/reset/route.ts`
(statement 3), migration `060_bookings`. Kind: L -/
theorem Backed.resetPayments {snapshot : List PaymentId} (h : Backed (fun p => E p ∧ p ∈ snapshot) σ)
    (hout : σ.resetPayments snapshot = some (.committed σ' n)) : Backed (fun _ => False) σ' := by
  rcases resetPayments_cases hout with ⟨heq, -⟩ | ⟨-, haccepts, heq⟩
  · cases heq
  · cases heq
    intro b r hr hst
    rcases h b r hr hst with hnamed | ⟨p, hp, -, hmem⟩
    · exact .inl hnamed
    · have hno := List.any_eq_false.mp haccepts r (Table.mem_of_find? hr)
      simp [references, hp, hmem] at hno

end backed

/-! ## Deleted bookings -/

section deleted

variable {σ σ' : Store} {a : Action} {train : TrainId} {n : ℕ}

/-- The action draws `b` as a fresh id. Source: `gen_random_uuid()`. Kind: D -/
def draws (b : ℕ) : Action → Bool
  | .exec _ ch => ch.uuid == b
  | _ => false

/-- A booking that is not there is there after a step that has drawn its id only. Source:
`lib/db/repositories/bookings.ts` `createBooking`. Kind: L -/
theorem draws_of_new {b : BookingId} {r : Booking} (hstep : σ.step a = some σ')
    (hno : σ.bookings.committed.find? b = none) (hr : σ'.bookings.committed.find? b = some r) :
    draws b a = true := by
  rcases booking_old (step_cases hstep) hr with ⟨r₀, hr₀⟩ | ⟨-, i, ch, e, args, rfl, he, hcall, -, -, -⟩
  · rw [hno] at hr₀
    cases hr₀
  · simp only [step, exec, he, Option.bind_eq_bind, Option.bind_some, Option.bind_eq_some_iff, hcall,
      stmt] at hstep
    obtain ⟨st, hst, hrun⟩ := hstep
    cases hpc : e.pc with
    | start =>
      simp only [hpc, createBooking] at hst
      split at hst
      · cases hst
        simp only [runStmt] at hrun
        split at hrun
        · rename_i hnew
          split at hrun
          · cases hrun
            rw [show (σ.fail i).bookings.committed = σ.bookings.committed from rfl, hno] at hr
            cases hr
          · cases hrun
            simp only [goto_bookings, Versioned.insert, Table.find?_insert, hno] at hr
            split at hr
            · rename_i hid
              simpa [draws, newBooking] using hid
            · cases hr
        · cases hrun
      · cases hst
        cases hrun
        rw [show (σ.fail i).bookings.committed = σ.bookings.committed from rfl, hno] at hr
        cases hr
    | _ => simp [hpc, createBooking] at hst

/-- Statement 2 adds no booking. Source: `app/api/admin/reset/route.ts` (statement 2). Kind: L -/
theorem resetBookings_none {snapshot : List BookingId} {b : BookingId}
    (hout : σ.resetBookings train snapshot = some (.committed σ' n))
    (hno : σ.bookings.committed.find? b = none) : σ'.bookings.committed.find? b = none := by
  rcases resetBookings_cases hout with ⟨heq, -⟩ | ⟨-, -, -, -, heq⟩
  · cases heq
  · cases heq
    by_contra hsome
    obtain ⟨r, hr⟩ := Option.ne_none_iff_exists'.mp hsome
    rw [(Table.find?_delete.mp hr).1] at hno
    cases hno

/-- What statement 2 leaves of the bookings it is for: nothing. Source: `app/api/admin/reset/route.ts`
(statement 2). Kind: L -/
theorem find?_resetBookings {snapshot : List BookingId} {b : BookingId} {r : Booking}
    (hout : σ.resetBookings train snapshot = some (.committed σ' n)) (hmem : b ∈ snapshot)
    (hr : σ.bookings.committed.find? b = some r) (htrain : r.trainId = train) :
    σ'.bookings.committed.find? b = none := by
  rcases resetBookings_cases hout with ⟨heq, -⟩ | ⟨-, -, -, -, heq⟩
  · cases heq
  · cases heq
    by_contra hsome
    obtain ⟨r', hr'⟩ := Option.ne_none_iff_exists'.mp hsome
    obtain ⟨hold, hkeep⟩ := Table.find?_delete.mp hr'
    obtain rfl := Option.eq_some_unique hr hold
    obtain rfl : r.id = b := Table.key_of_find? hr
    simp [deletes, hmem, htrain] at hkeep

end deleted

end Store

end TrainsAndTracks
