import TrainsAndTracks.Store.Outcomes

/-!
# Tickets

What a `CONFIRMED` booking points to. Its seat is `CONFIRMED`, points back and is a seat of its train:
`confirm_booking` publishes the version of the seat together with the version of the booking, and a
`CONFIRMED` seat is not written again. Its payment succeeded, for its own key and its own price: the
caller of `confirm_booking` knew the payment, and a payment is only made for a booking's key and price.
-/

namespace TrainsAndTracks

open Found

namespace Store

/-! ## Definitions -/

/-- The seat of booking `r` is `CONFIRMED`, names `r` and is a seat of its train.
Source: `tests/invariants/no-duplicate-seats.ts` (I1). Kind: D -/
def Seated (σ : Store) (r : Booking) : Prop :=
  ∃ k s, r.seatId = some k ∧ σ.seats.committed.find? k = some s ∧ s.status = .confirmed ∧
    s.bookingId = some r.id ∧ s.trainId = r.trainId

/-- The payment of booking `r` succeeded, for its key and its price. Source:
`lib/payment/mock-service.ts` `charge`. Kind: D -/
def Paid (σ : Store) (r : Booking) : Prop :=
  ∃ p pay, r.paymentId = some p ∧ σ.payments.find? p = some pay ∧ pay.status = .succeeded ∧
    pay.idempotencyKey = r.idempotencyKey ∧ pay.amountPaise = r.pricePaise

/-- Payment `pay` is for the key and the price of a booking. Source: `lib/payment/mock-service.ts`
`charge`, `app/api/worker/allocate/route.ts` (step 6). Kind: D -/
def Billed (σ : Store) (pay : Payment) : Prop :=
  ∃ b r, σ.bookings.committed.find? b = some r ∧ r.idempotencyKey = pay.idempotencyKey ∧
    r.pricePaise = pay.amountPaise

/-- What a `CONFIRMED` booking points to, and what payments are for. Source: none: infrastructure.
Kind: D -/
structure TicketsOk (σ : Store) : Prop where
  billed : ∀ pay ∈ σ.payments, Billed σ pay
  seated : ∀ b r, σ.bookings.committed.find? b = some r → r.status = .confirmed → Seated σ r
  paid : ∀ b r, σ.bookings.committed.find? b = some r → r.status = .confirmed → Paid σ r

section tickets

variable {σ σ' : Store} {a : Action}

/-! ## What a step keeps -/

/-- A `CONFIRMED` seat is not written. Source: migrations `100_fn_allocate_seat`,
`110_fn_confirm_booking`, `20260418000000_split_release_hold`, `130_fn_sweep_expired_holds`.
Kind: L -/
theorem SeatWrite.not_confirmed {call : Call} {now : Time} {s w : Seat}
    (h : SeatWrite call now s w) : s.status ≠ .confirmed := by
  cases h with
  | reserve hcall hfree => simp [hfree]
  | confirm hcall hcond =>
    obtain ⟨-, -, hlive⟩ := confirmSeatUpdate_cond_iff.mp hcond
    simp [(Seat.liveAt_iff.mp hlive).1]
  | release hcall hheld => simp [(Seat.heldFor_iff.mp hheld).1]
  | sweep hcall hexp => simp [(Seat.expiredAt_iff.mp hexp).1]

/-- A `CONFIRMED` version of a booking is made by `confirm_booking`. Source: migration
`110_fn_confirm_booking`. Kind: L -/
theorem BookingWrite.of_confirmed {call : Call} {now : Time} {r w : Booking}
    (h : BookingWrite call now r w) (hw : w.status = .confirmed) :
    ∃ seat payment, call = .confirmBooking w.id seat payment ∧ w.seatId = some seat ∧
      w.paymentId = some payment := by
  cases h with
  | @confirm b seat payment hcall hcond =>
    obtain ⟨hid, -⟩ := confirmRowUpdate_cond_iff.mp hcond
    exact ⟨seat, payment, by rw [hcall, ← hid]; rfl, rfl, rfl⟩
  | fail | expire => cases hw

/-- A `CONFIRMED` seat stays what it is. Source: `lib/allocation/hold-state-machine.ts` (header). Kind: L -/
theorem confirmed_seat_stays (hl : LocksOk σ) (hs : Stepped σ a σ') {k : SeatId} {s : Seat}
    (hold : σ.seats.committed.find? k = some s) (hst : s.status = .confirmed) :
    σ'.seats.committed.find? k = some s := by
  obtain ⟨s', hs', rfl | ⟨_, _, _, -, -, -, -, hw⟩⟩ := seat_next hl hs hold
  · exact hs'
  · exact absurd hst hw.not_confirmed

/-- A seated booking stays seated. Source: none: infrastructure. Kind: L -/
theorem Seated.step (hl : LocksOk σ) (hs : Stepped σ a σ') {r : Booking} (h : Seated σ r) :
    Seated σ' r := by
  obtain ⟨k, s, hk, hold, hst, hrest⟩ := h
  exact ⟨k, s, hk, confirmed_seat_stays hl hs hold hst, hst, hrest⟩

/-- A billed payment stays billed. Source: none: infrastructure. Kind: L -/
theorem Billed.mono (hle : Le σ σ') {pay : Payment} (h : Billed σ pay) : Billed σ' pay := by
  obtain ⟨b, r, hr, hk, hprice⟩ := h
  obtain ⟨r', hr', hg⟩ := hle.booking b r hr
  exact ⟨b, r', hr', hg.idempotencyKey.trans hk, hg.pricePaise.trans hprice⟩

/-- A payment made by a step is billed: whoever charged knew the booking. Source:
`app/api/worker/allocate/route.ts` (step 6). Kind: L -/
theorem billed_step (ht : Trusted σ) (h : ∀ pay ∈ σ.payments, Billed σ pay) (hs : Stepped σ a σ') :
    ∀ pay ∈ σ'.payments, Billed σ' pay := by
  have hle := hs.le ht.locks
  intro pay hpay
  cases hs with
  | @insertPayment i ch e row next he hr hnew hkey =>
    rcases (Table.mem_insert (h := hnew)).mp hpay with hmem | rfl
    · exact (h pay hmem).mono hle
    · have hok := ht.informed i e he
      obtain ⟨call, client, now, pc⟩ := e
      cases hr with
      | chargePaid | chargeDeclined => exact Billed.mono hle hok
  | _ => exact (h pay hpay).mono hle

/-- A payment made by a step has succeeded or failed. Source: `lib/payment/mock-service.ts` `charge`.
Kind: L -/
theorem payment_drawn_step (h : ∀ pay ∈ σ.payments, pay.status ≠ .pending) (hs : Stepped σ a σ') :
    ∀ pay ∈ σ'.payments, pay.status ≠ .pending := by
  intro pay hpay
  cases hs with
  | @insertPayment i ch e row next he hr hnew hkey =>
    rcases (Table.mem_insert (h := hnew)).mp hpay with hmem | rfl
    · exact h pay hmem
    · obtain ⟨call, client, now, pc⟩ := e
      cases hr with
      | chargePaid | chargeDeclined => simp
  | _ => exact h pay hpay

/-- A payment with a booking's key is for its price. Source: migration `060_bookings`
(`idempotency_key` is unique). Kind: L -/
theorem Billed.price (hu : UniqueOk σ) {b : BookingId} {r : Booking} {pay : Payment}
    (h : Billed σ pay) (hr : σ.bookings.committed.find? b = some r)
    (hk : pay.idempotencyKey = r.idempotencyKey) : pay.amountPaise = r.pricePaise := by
  obtain ⟨b', r', hr', hk', hprice⟩ := h
  obtain rfl := hu.bookings b b' r r' hr hr' (by rw [hk', hk])
  obtain rfl := Option.eq_some_unique hr hr'
  exact hprice.symm

/-- The seat that a commit of `confirm_booking` publishes is `CONFIRMED` for its booking. Source: migration
`110_fn_confirm_booking`, statement 2. Kind: L -/
theorem seat_of_commit (hl : LocksOk σ) {i : ℕ} {e : Exec} {b : BookingId} {seat : SeatId}
    {payment : PaymentId} {v : Seat} (hs : Stepped σ (.commit i) σ') (he : σ.execs[i]? = some e)
    (hcall : e.call = .confirmBooking b seat payment) (hv : σ.seats.lock seat = some (i, v)) :
    σ'.seats.committed.find? seat = some v ∧ v.status = .confirmed ∧ v.bookingId = some b := by
  obtain ⟨s, hold, hwrite⟩ := hl.seat_write he hv
  have hpub : σ'.seats.committed.find? seat = some v := by
    cases hs with
    | commit => exact Versioned.find?_commit_of_own hold hv
  rw [hcall] at hwrite
  cases hwrite with
  | @confirm b' seat' payment' heq hcond =>
    cases heq
    exact ⟨hpub, rfl, (confirmSeatUpdate_cond_iff.mp hcond).2.1⟩
  | reserve heq => cases heq
  | release heq => cases heq
  | sweep heq => cases heq

/-- A booking that a step confirms is seated. Source: migration `110_fn_confirm_booking`. Kind: L -/
theorem seated_of_commit (ht : Trusted σ) {i : ℕ} {e : Exec} {r w : Booking}
    (hs : Stepped σ (.commit i) σ') (he : σ.execs[i]? = some e)
    (hlock : σ.bookings.lock w.id = some (i, w)) (hw : BookingWrite e.call e.now r w)
    (hnew : σ'.bookings.committed.find? w.id = some w) (hst : w.status = .confirmed) :
    Seated σ' w := by
  obtain ⟨seat, payment, hcall, hseat, -⟩ := hw.of_confirmed hst
  have hok := ht.confirms i e he w.id seat payment hcall
  have hreply : ∃ b', e.pc = .ret (.confirmed (some b')) := by
    by_contra hno
    push Not at hno
    exact hok.row_unlocked hno w.id w hlock
  -- both versions are published by this commit
  obtain ⟨v, hv⟩ := hok.seat_locked (.inr hreply)
  obtain ⟨hpub, hvst, hb⟩ := seat_of_commit ht.locks hs he hcall hv
  have href := (ht.trains.step ht.locks hs fun j e' train b' passenger hold r' he' hcall' hr' => ?_)
  · obtain ⟨r', hr', htrain⟩ := href.committed seat v w.id hpub hb
    obtain rfl := Option.eq_some_unique hnew hr'
    exact ⟨seat, v, hseat, hpub, hvst, hb, htrain.symm⟩
  · have hinf := ht.informed j e' he'
    rw [hcall'] at hinf
    obtain ⟨r₁, hr₁, ht₁⟩ := hinf
    obtain rfl := Option.eq_some_unique hr' hr₁
    exact ht₁

/-- A booking that a step confirms is paid. Source: migration `110_fn_confirm_booking`,
`app/api/worker/allocate/route.ts` (step 7). Kind: L -/
theorem paid_of_write (ht : Trusted σ) (h : TicketsOk σ) {i : ℕ} {e : Exec} {r w : Booking}
    (he : σ.execs[i]? = some e) (hold : σ.bookings.committed.find? w.id = some r)
    (hw : BookingWrite e.call e.now r w) (hst : w.status = .confirmed) : Paid σ w := by
  obtain ⟨seat, payment, hcall, -, hpayment⟩ := hw.of_confirmed hst
  have hok := ht.informed i e he
  rw [hcall] at hok
  obtain ⟨r₁, pay, hr₁, hpay, hpst, hk⟩ := hok
  obtain rfl := Option.eq_some_unique hold hr₁
  have hprice := (h.billed pay (Table.mem_of_find? hpay)).price ht.unique hold hk
  exact ⟨payment, pay, hpayment, hpay, hpst, hk.trans hw.grows.idempotencyKey.symm,
    hprice.trans hw.grows.pricePaise.symm⟩

/-- A paid booking stays paid. Source: none: infrastructure. Kind: L -/
theorem Paid.mono (hle : Le σ σ') {r : Booking} (h : Paid σ r) : Paid σ' r := by
  obtain ⟨p, pay, hp, hpay, hrest⟩ := h
  exact ⟨p, pay, hp, hle.payment p pay hpay, hrest⟩

/-- A `CONFIRMED` booking after a step was so before, or the step has committed it.
Source: none: infrastructure. Kind: L -/
theorem confirmed_cases (hl : LocksOk σ) (hs : Stepped σ a σ') {b : BookingId} {r' : Booking}
    (hr' : σ'.bookings.committed.find? b = some r') (hst : r'.status = .confirmed) :
    σ.bookings.committed.find? b = some r' ∨
    ∃ i e reply r, a = .commit i ∧ σ.execs[i]? = some e ∧ e.pc = .ret reply ∧
      σ.bookings.committed.find? b = some r ∧ σ.bookings.lock b = some (i, r') ∧
      BookingWrite e.call e.now r r' := by
  rcases booking_old hs hr' with ⟨r, hr⟩ | ⟨-, i, ch, e, args, -, -, -, -, -, rfl⟩
  · rcases booking_change hl hs hr hr' with rfl | ⟨i, e, reply, ha, he, hpc, hlock, hw⟩
    · exact .inl hr
    · exact .inr ⟨i, e, reply, r, ha, he, hpc, hr, hlock, hw⟩
  · cases hst

/-- **Tickets stay valid.** Source: migration `110_fn_confirm_booking`. Kind: L -/
theorem TicketsOk.step (ht : Trusted σ) (h : TicketsOk σ) (hs : Stepped σ a σ') : TicketsOk σ' where
  billed := billed_step ht h.billed hs
  seated b r' hr' hst := by
    rcases confirmed_cases ht.locks hs hr' hst with hr | ⟨i, e, reply, r, rfl, he, -, -, hlock, hw⟩
    · exact (h.seated b r' hr hst).step ht.locks hs
    · obtain rfl : r'.id = b := Table.key_of_find? hr'
      exact seated_of_commit ht hs he hlock hw hr' hst
  paid b r' hr' hst := by
    have hle := hs.le ht.locks
    rcases confirmed_cases ht.locks hs hr' hst with hr | ⟨i, e, reply, r, rfl, he, -, hr, -, hw⟩
    · exact (h.paid b r' hr hst).mono hle
    · obtain rfl : r'.id = b := Table.key_of_find? hr'
      exact (paid_of_write ht h he hr hw hst).mono hle

/-- An initial store has no tickets. Source: none: infrastructure. Kind: L -/
theorem Initial.ticketsOk (h : Initial σ) : TicketsOk σ where
  billed pay hpay := by
    rw [h.payments_empty] at hpay
    cases hpay
  seated b r hr := by
    rw [h.bookings_empty] at hr
    cases hr
  paid b r hr := by
    rw [h.bookings_empty] at hr
    cases hr

/-! ## What follows for two tickets -/

/-- Two tickets have two seats. Source: `tests/invariants/no-duplicate-seats.ts` (I1). Kind: L -/
theorem TicketsOk.seat_ne (h : TicketsOk σ) {b b' : BookingId} {r r' : Booking}
    (hr : σ.bookings.committed.find? b = some r) (hr' : σ.bookings.committed.find? b' = some r')
    (hst : r.status = .confirmed) (hst' : r'.status = .confirmed) (hne : b ≠ b') :
    r.seatId ≠ r'.seatId := by
  obtain ⟨k, s, hk, hs, -, hb, -⟩ := h.seated b r hr hst
  obtain ⟨k', s', hk', hs', -, hb', -⟩ := h.seated b' r' hr' hst'
  intro heq
  rw [hk, hk'] at heq
  cases heq
  obtain rfl := Option.eq_some_unique hs hs'
  rw [hb] at hb'
  refine hne ?_
  rw [← show r.id = b from Table.key_of_find? hr, ← show r'.id = b' from Table.key_of_find? hr']
  exact Option.some.inj hb'

/-- Two tickets have two payments. Source: migration `060_bookings` (`idempotency_key` is unique).
Kind: L -/
theorem TicketsOk.payment_ne (h : TicketsOk σ) (hu : UniqueOk σ) {b b' : BookingId}
    {r r' : Booking} (hr : σ.bookings.committed.find? b = some r)
    (hr' : σ.bookings.committed.find? b' = some r') (hst : r.status = .confirmed)
    (hst' : r'.status = .confirmed) (hne : b ≠ b') : r.paymentId ≠ r'.paymentId := by
  obtain ⟨p, pay, hp, hpay, -, hk, -⟩ := h.paid b r hr hst
  obtain ⟨p', pay', hp', hpay', -, hk', -⟩ := h.paid b' r' hr' hst'
  intro heq
  rw [hp, hp'] at heq
  cases heq
  obtain rfl := Option.eq_some_unique hpay hpay'
  exact hne (hu.bookings b b' r r' hr hr' (by rw [← hk, ← hk']))

end tickets

end Store

end TrainsAndTracks
