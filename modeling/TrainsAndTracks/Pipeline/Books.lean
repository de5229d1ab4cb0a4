import TrainsAndTracks.Found.Ledger
import TrainsAndTracks.Pipeline.Compensation

/-!
# The books

What the tables say of seats and of money, added up over all bookings. Single bookings have a seat and a
payment of their own; here the sums over a whole train and over all payments are compared.

* `never_oversold` — the seats of a train are those it had at the beginning, each in one of three states, and
  no more bookings are `CONFIRMED` than seats are.
* `money_accounted` — what was taken is what the paid bookings cost, the `CONFIRMED` ones among them.
* `books_balance` — at rest, when deliveries give up lost bookings only and no refund is left to nobody, what
  was taken and not refunded is what the `CONFIRMED` bookings cost, and those that are paid and still open.
-/

namespace TrainsAndTracks

open Found

namespace Store

/-! ## Seats -/

/-- The seats of a train in a state. Source: `app/api/trains/route.ts`, `app/api/seats/route.ts`. Kind: D -/
def seatsIn (σ : Store) (t : TrainId) (st : SeatStatus) : List Seat :=
  σ.seats.committed.select fun s => s.trainId == t && s.status == st

/-- The seats of a train. Source: `app/api/seats/route.ts`. Kind: D -/
def seatsOf (σ : Store) (t : TrainId) : List Seat := σ.seats.committed.select (·.trainId == t)

/-- The `CONFIRMED` bookings of a train. Source: `tests/invariants/no-duplicate-seats.ts` (I1). Kind: D -/
def ticketsOf (σ : Store) (t : TrainId) : List Booking :=
  σ.bookings.committed.select fun r => r.trainId == t && r.status == .confirmed

section seats

variable {σ σ' : Store} {a : Action}

/-- A seat is written as a seat of its train. Source: migrations `100_fn_allocate_seat`,
`110_fn_confirm_booking`, `20260418000000_split_release_hold`, `130_fn_sweep_expired_holds`. Kind: L -/
theorem SeatWrite.trainId {call : Call} {now : Time} {s w : Seat} (h : SeatWrite call now s w) :
    w.trainId = s.trainId := by
  cases h <;> rfl

/-- No step moves a seat to another train. Source: migration `030_seats`. Kind: L -/
theorem Stepped.seat_trains (hl : LocksOk σ) (hs : Stepped σ a σ') :
    σ'.seats.committed.rows.map Seat.trainId = σ.seats.committed.rows.map Seat.trainId := by
  rcases hs.seats_committed with heq | ⟨i, e, r, -, -, -, heq⟩
  · rw [heq]
  · rw [heq]
    show (σ.seats.committed.rows.map (σ.seats.publish i)).map Seat.trainId = _
    rw [List.map_map]
    refine List.map_congr_left fun s hs => ?_
    simp only [Function.comp_apply, Versioned.publish]
    split
    · rename_i j w hlock
      split
      · obtain ⟨s₀, hs₀, _, _, -, hw⟩ := hl.seats _ _ _ hlock
        obtain rfl := Option.eq_some_unique (Table.find?_of_mem hs) hs₀
        exact hw.trainId
      · rfl
    · rfl

/-- How many seats a train has. Source: none: infrastructure. Kind: L -/
theorem length_seatsOf (σ : Store) (t : TrainId) :
    (σ.seatsOf t).length = (σ.seats.committed.rows.map Seat.trainId).countP (· == t) := by
  rw [List.countP_map, seatsOf, Table.select, ← List.countP_eq_length_filter]
  rfl

/-- **A seat of a train is in one of three states.** Source: migration `010_enums` (`seat_status`). Kind: L -/
theorem length_seatsIn (σ : Store) (t : TrainId) :
    (σ.seatsIn t .available).length + (σ.seatsIn t .reserved).length + (σ.seatsIn t .confirmed).length =
      (σ.seatsOf t).length := by
  simp only [seatsIn, seatsOf, Table.select, ← List.countP_eq_length_filter]
  induction σ.seats.committed.rows with
  | nil => rfl
  | cons s rows ih =>
    simp only [List.countP_cons]
    cases hs : s.status <;> cases ht : s.trainId == t <;> simp <;> omega

/-- **No more tickets than seats**: the seat of a ticket is a `CONFIRMED` seat of its train, and its own.
Source: `tests/invariants/no-duplicate-seats.ts` (I1). Kind: L -/
theorem TicketsOk.length_tickets_le (h : TicketsOk σ) (t : TrainId) :
    (σ.ticketsOf t).length ≤ (σ.seatsIn t .confirmed).length := by
  rw [← total_ones (k := Booking.seatId), ← total_ones (k := fun s : Seat => some s.id)]
  refine total_le (nodup_entries (σ.bookings.committed.nodup_rows.filter _) fun r hr r' hr' heq => ?_)
    fun x hx => ?_
  · obtain ⟨hmem, hcond⟩ := Table.mem_select.mp hr
    obtain ⟨hmem', hcond'⟩ := Table.mem_select.mp hr'
    simp only [Bool.and_eq_true, beq_iff_eq] at hcond hcond'
    by_contra hne
    have hid : r.id ≠ r'.id := fun hid => hne (Table.eq_of_key_eq hmem hmem' hid)
    exact h.seat_ne (Table.find?_of_mem hmem) (Table.find?_of_mem hmem') hcond.2 hcond'.2 hid heq
  · obtain ⟨r, hr, rfl⟩ := mem_entries.mp hx
    obtain ⟨hmem, hcond⟩ := Table.mem_select.mp hr
    simp only [Bool.and_eq_true, beq_iff_eq] at hcond
    obtain ⟨k, s, hk, hs, hst, -, htrain⟩ := h.seated r.id r (Table.find?_of_mem hmem) hcond.2
    refine mem_entries.mpr ⟨s, Table.mem_select.mpr ⟨Table.mem_of_find? hs, ?_⟩, ?_⟩
    · simp [hst, htrain, hcond.1]
    · rw [hk, ← show s.id = k from Table.key_of_find? hs]

end seats

end Store

namespace Store

/-! ## Money -/

/-- The payments that succeeded. Source: migration `050_payments`, `lib/payment/mock-service.ts`. Kind: D -/
def taken (σ : Store) : List Payment := σ.payments.select (·.status == .succeeded)

/-- The booking has a payment that succeeded. Source: migration `050_payments`. Kind: D -/
def paid (σ : Store) (r : Booking) : Bool := σ.taken.any fun pay => pay.idempotencyKey == r.idempotencyKey

/-- The booking is `CONFIRMED`, or paid and still open. Source: migrations `050_payments`,
`060_bookings`. Kind: D -/
def sold (σ : Store) (r : Booking) : Bool := r.status == .confirmed || r.status == .pending && σ.paid r

section money

variable {σ : Store}

/-- A payment that succeeded. Source: none: infrastructure. Kind: L -/
theorem mem_taken {pay : Payment} : pay ∈ σ.taken ↔ pay ∈ σ.payments ∧ pay.status = .succeeded := by
  simp [taken, Table.mem_select]

/-- Bookings have keys of their own. Source: migration `060_bookings` (`idempotency_key` is unique).
Kind: L -/
theorem UniqueOk.booking_eq (hu : UniqueOk σ) {r r' : Booking} (hr : r ∈ σ.bookings.committed)
    (hr' : r' ∈ σ.bookings.committed) (hk : r.idempotencyKey = r'.idempotencyKey) : r = r' :=
  Table.eq_of_key_eq hr hr'
    (hu.bookings r.id r'.id r r' (Table.find?_of_mem hr) (Table.find?_of_mem hr') hk)

/-- A payment is for a booking that is paid. Source: `lib/payment/mock-service.ts` `charge`. Kind: L -/
theorem TicketsOk.booking_of_taken (h : TicketsOk σ) {pay : Payment} (hpay : pay ∈ σ.taken) :
    ∃ r ∈ σ.bookings.committed, r.idempotencyKey = pay.idempotencyKey ∧
      r.pricePaise = pay.amountPaise ∧ σ.paid r = true := by
  obtain ⟨b, r, hr, hk, hprice⟩ := h.billed pay (mem_taken.mp hpay).1
  exact ⟨r, Table.mem_of_find? hr, hk, hprice, List.any_eq_true.mpr ⟨pay, hpay, beq_iff_eq.mpr hk.symm⟩⟩

/-- A booking that is paid has a payment of its price. Source: `lib/payment/mock-service.ts` `charge`.
Kind: L -/
theorem TicketsOk.taken_of_paid (h : TicketsOk σ) (hu : UniqueOk σ) {r : Booking}
    (hr : r ∈ σ.bookings.committed) (hpaid : σ.paid r = true) :
    ∃ pay ∈ σ.taken, pay.idempotencyKey = r.idempotencyKey ∧ pay.amountPaise = r.pricePaise := by
  obtain ⟨pay, hpay, hk⟩ := List.any_eq_true.mp hpaid
  have hk := beq_iff_eq.mp hk
  exact ⟨pay, hpay, hk, (h.billed pay (mem_taken.mp hpay).1).price hu (Table.find?_of_mem hr) hk⟩

/-- A ticket is paid. Source: migration `110_fn_confirm_booking`. Kind: L -/
theorem TicketsOk.paid_of_ticket (h : TicketsOk σ) {r : Booking} (hr : r ∈ σ.bookings.committed)
    (hst : r.status = .confirmed) : σ.paid r = true := by
  obtain ⟨p, pay, -, hpay, hpst, hk, -⟩ := h.paid r.id r (Table.find?_of_mem hr) hst
  exact List.any_eq_true.mpr ⟨pay, mem_taken.mpr ⟨Table.mem_of_find? hpay, hpst⟩, beq_iff_eq.mpr hk⟩

/-- **Payments and bookings that match have the same total.** Source: migrations `050_payments`,
`060_bookings` (`idempotency_key` is unique). Kind: L -/
theorem UniqueOk.sum_eq (hu : UniqueOk σ) {p : Payment → Bool} {q : Booking → Bool}
    (hto : ∀ pay ∈ σ.taken, p pay = true → ∃ r ∈ σ.bookings.committed,
      r.idempotencyKey = pay.idempotencyKey ∧ r.pricePaise = pay.amountPaise ∧ q r = true)
    (hfrom : ∀ r ∈ σ.bookings.committed, q r = true → ∃ pay ∈ σ.taken,
      pay.idempotencyKey = r.idempotencyKey ∧ pay.amountPaise = r.pricePaise ∧ p pay = true) :
    ((σ.taken.filter p).map Payment.amountPaise).sum =
      ((σ.bookings.committed.select q).map Booking.pricePaise).sum := by
  have hpay : ∀ {pay}, pay ∈ σ.taken.filter p → pay ∈ σ.payments := fun h =>
    (mem_taken.mp (List.mem_filter.mp h).1).1
  rw [← total_entries (k := Payment.idempotencyKey), ← total_entries (k := Booking.idempotencyKey)]
  refine total_eq
    (nodup_entries ((σ.payments.nodup_rows.filter _).filter _) fun pay h pay' h' =>
      hu.payments pay (hpay h) pay' (hpay h'))
    (nodup_entries (σ.bookings.committed.nodup_rows.filter _) fun r h r' h' =>
      hu.booking_eq (Table.mem_select.mp h).1 (Table.mem_select.mp h').1)
    fun x => ⟨fun hx => ?_, fun hx => ?_⟩
  · obtain ⟨pay, hmem, rfl⟩ := mem_entries.mp hx
    obtain ⟨htaken, hp⟩ := List.mem_filter.mp hmem
    obtain ⟨r, hr, hk, hprice, hq⟩ := hto pay htaken hp
    exact mem_entries.mpr ⟨r, Table.mem_select.mpr ⟨hr, hq⟩, by rw [hk, hprice]⟩
  · obtain ⟨r, hmem, rfl⟩ := mem_entries.mp hx
    obtain ⟨hr, hq⟩ := Table.mem_select.mp hmem
    obtain ⟨pay, htaken, hk, hprice, hp⟩ := hfrom r hr hq
    exact mem_entries.mpr ⟨pay, List.mem_filter.mpr ⟨htaken, hp⟩, by rw [hk, hprice]⟩

end money

end Store

namespace Sys

/-- What is taken and not refunded. Source: `lib/payment/mock-service.ts` `charge`, `refund`. Kind: D -/
def kept (s : Sys) : List Payment := s.store.taken.filter fun pay => pay.id ∉ s.refunds

section books

variable {cfg : Config} {s₀ s : Sys}

/-- A payment is kept for a booking that is sold. Source: `app/api/worker/allocate/route.ts` (steps 6, 7).
Kind: L -/
theorem sold_of_kept (hinv : Inv cfg s) (hrefunded : s.PaymentsRefunded) {pay : Payment}
    (hpay : pay ∈ s.store.taken) (hno : pay.id ∉ s.refunds) :
    ∃ r ∈ s.store.bookings.committed, r.idempotencyKey = pay.idempotencyKey ∧
      r.pricePaise = pay.amountPaise ∧ s.store.sold r = true := by
  obtain ⟨r, hr, hk, hprice, hpaid⟩ := hinv.tickets.booking_of_taken hpay
  refine ⟨r, hr, hk, hprice, ?_⟩
  obtain ⟨hmem, hst⟩ := Store.mem_taken.mp hpay
  have hnotLost : r.status.lost ≠ true := fun hlost =>
    hno (hrefunded r.id r (Table.find?_of_mem hr) hlost pay hmem hst hk.symm)
  cases hstatus : r.status with
  | confirmed | pending => simp [Store.sold, hstatus, hpaid]
  | failed | expired =>
    rw [hstatus] at hnotLost
    exact absurd rfl hnotLost

/-- The payment of a booking that is sold is kept. Source: `app/api/worker/allocate/route.ts` (step 7).
Kind: L -/
theorem kept_of_sold (hinv : Inv cfg s) (hunsold : ∀ p ∈ s.refunds, s.store.Unsold p) {r : Booking}
    (hr : r ∈ s.store.bookings.committed) (hsold : s.store.sold r = true) :
    ∃ pay ∈ s.store.taken, pay.idempotencyKey = r.idempotencyKey ∧ pay.amountPaise = r.pricePaise ∧
      pay.id ∉ s.refunds := by
  have hpaid : s.store.paid r = true ∧ r.status.lost = false := by
    simp only [Store.sold, Bool.or_eq_true, Bool.and_eq_true, beq_iff_eq] at hsold
    rcases hsold with hst | ⟨hst, hpaid⟩
    · exact ⟨hinv.tickets.paid_of_ticket hr hst, by rw [hst]; rfl⟩
    · exact ⟨hpaid, by rw [hst]; rfl⟩
  obtain ⟨pay, hpay, hk, hprice⟩ := hinv.tickets.taken_of_paid hinv.store.unique hr hpaid.1
  refine ⟨pay, hpay, hk, hprice, fun hrefund => ?_⟩
  -- a refunded payment is for a lost booking, which has the same key
  obtain ⟨b', r', pay', hr', hlost, hpay', hk'⟩ := hunsold _ hrefund
  obtain rfl := Table.eq_of_key_eq (Store.mem_taken.mp hpay).1 (Table.mem_of_find? hpay')
    (Table.key_of_find? hpay').symm
  obtain rfl := hinv.store.unique.booking_eq hr (Table.mem_of_find? hr') (hk.symm.trans hk')
  rw [hpaid.2] at hlost
  cases hlost

/-! ## Over whole runs -/

/-- The seats of a train are those of the beginning. Source: migration `030_seats`. Kind: L -/
theorem length_seatsOf_run (hinit : Initial s₀) (h : Steps (step cfg) Always s₀ s) (t : TrainId) :
    (s.store.seatsOf t).length = (s₀.store.seatsOf t).length := by
  have hreach : ∀ {s}, Steps (step cfg) Always s₀ s → Reach (step cfg) Initial Always s := fun h =>
    ⟨s₀, hinit, h⟩
  rw [Store.length_seatsOf, Store.length_seatsOf]
  congr 1
  induction h with
  | refl => rfl
  | tail hrun hst ih =>
    obtain ⟨a, -, ha⟩ := hst
    rcases (step_cases ha).store_cases with heq | ⟨b, hb, -⟩
    · rw [heq, ih]
    · rw [(Store.step_cases hb).seat_trains (inv_of_reach (hreach hrun)).store.locks, ih]

/-- **Never oversold.** In every run the seats of a train stay as many as at the beginning, each is
`AVAILABLE`, `RESERVED` or `CONFIRMED`, and at most as many bookings of the train are `CONFIRMED` as seats
are. Source: migrations `100_fn_allocate_seat`, `110_fn_confirm_booking`,
`20260418000000_split_release_hold`, `130_fn_sweep_expired_holds`, `tests/invariants/no-duplicate-seats.ts`.
Kind: P -/
theorem never_oversold (hinit : Initial s₀) (h : Steps (step cfg) Always s₀ s) (t : TrainId) :
    (s.store.seatsIn t .available).length + (s.store.seatsIn t .reserved).length +
        (s.store.seatsIn t .confirmed).length = (s₀.store.seatsOf t).length ∧
      (s.store.ticketsOf t).length ≤ (s.store.seatsIn t .confirmed).length := by
  have hinv : Inv cfg s := inv_of_reach (C := Always) ⟨s₀, hinit, h⟩
  exact ⟨(s.store.length_seatsIn t).trans (length_seatsOf_run hinit h t), hinv.tickets.length_tickets_le t⟩

/-- **The money is accounted for.** In every reachable pipeline what the payments that succeeded have taken
is what the bookings cost that have such a payment, and every `CONFIRMED` booking is among them. Source:
`lib/payment/mock-service.ts` `charge`, migration `110_fn_confirm_booking`,
`app/api/worker/allocate/route.ts` (steps 6, 7). Kind: P -/
theorem money_accounted (h : Reachable cfg s) :
    (s.store.taken.map Payment.amountPaise).sum =
        ((s.store.bookings.committed.select s.store.paid).map Booking.pricePaise).sum ∧
      ∀ r ∈ s.store.bookings.committed, r.status = .confirmed → s.store.paid r = true := by
  have hinv := inv_of_reach h
  refine ⟨?_, fun r hr hst => hinv.tickets.paid_of_ticket hr hst⟩
  have hsum := hinv.store.unique.sum_eq (p := fun _ => true) (q := s.store.paid)
    (fun pay hpay _ => hinv.tickets.booking_of_taken hpay) fun r hr hpaid => by
      obtain ⟨pay, hpay, hk, hprice⟩ := hinv.tickets.taken_of_paid hinv.store.unique hr hpaid
      exact ⟨pay, hpay, hk, hprice, rfl⟩
  rwa [List.filter_true] at hsum

/-- Deliveries give up lost bookings only, and no refund is left to nobody. Source:
`app/api/worker/allocate/route.ts` (steps 4 to 7). Kind: D -/
def Refunding (s : Sys) (a : Action) : Prop := OnNull Store.Lost s a ∧ Compensated s a

instance (s : Sys) (a : Action) : Decidable (Refunding s a) := inferInstanceAs (Decidable (_ ∧ _))

/-- Then refunds are of lost bookings, and those that are due are owed. Source:
`app/api/worker/allocate/route.ts` (steps 4 to 7). Kind: L -/
theorem owed_of_refunding (h : Reach (step cfg) Initial Refunding s) :
    (∀ b, s.GaveUp b → s.store.Lost b) ∧ (∀ p ∈ s.refunds, s.store.Unsold p) ∧ s.Due := by
  refine h.invariant (P := fun s => (∀ b, s.GaveUp b → s.store.Lost b) ∧
      (∀ p ∈ s.refunds, s.store.Unsold p) ∧ s.Due)
    (fun s hinit => ⟨fun b hgave => absurd hgave (hinit.not_gaveUp b), fun p hp => ?_, fun b r hr => ?_⟩)
    fun s a s' hreach hP hC hstep => ?_
  · rw [hinit.no_refunds] at hp
    cases hp
  · rw [hinit.store_initial.bookings_empty] at hr
    cases hr
  · have hinv := inv_of_reach hreach
    have hs := step_cases hstep
    have hle := (hs.le hinv.store.locks).store
    obtain ⟨hgave, hunsold, hdue⟩ := hP
    exact ⟨gaveUp_step hinv hs hC.1 hgave fun b _ hlost => hlost.mono hle, unsold_step hinv hs hgave hunsold,
      hdue.step hinv hs hC.2⟩

/-- Where nothing runs every refund that is due was made. Source: `app/api/worker/allocate/route.ts`
(step 7). Kind: L -/
theorem Due.refunded (h : s.Due) (hrest : s.Quiescent) : s.PaymentsRefunded := by
  intro b r hr hlost pay hpay hst hk
  by_contra hno
  obtain ⟨c, cl, hcl, hcomp⟩ := h b r hr hlost ⟨pay, hpay, hst, hk, hno⟩
  obtain ⟨d, pc, ph, rfl, hlive, -⟩ := compensates_iff.mp hcomp
  rw [hrest.no_handler _ (List.mem_of_getElem? hcl)] at hlive
  cases hlive

/-- **The books balance at rest**, after every run in which deliveries give up lost bookings only and no
refund is left to nobody. Source: `app/api/worker/allocate/route.ts` (steps 6, 7),
`lib/payment/mock-service.ts`. Kind: P -/
theorem books_balance (h : Reach (step cfg) Initial Refunding s) (hrest : s.Quiescent) :
    (s.kept.map Payment.amountPaise).sum =
      ((s.store.bookings.committed.select s.store.sold).map Booking.pricePaise).sum := by
  have hinv := inv_of_reach h
  obtain ⟨-, hunsold, hdue⟩ := owed_of_refunding h
  refine hinv.store.unique.sum_eq (fun pay hpay hno => ?_) fun r hr hsold => ?_
  · exact sold_of_kept hinv (hdue.refunded hrest) hpay (of_decide_eq_true hno)
  · obtain ⟨pay, hpay, hk, hprice, hno⟩ := kept_of_sold hinv hunsold hr hsold
    exact ⟨pay, hpay, hk, hprice, decide_eq_true hno⟩

end books

/-- One train with two seats sells one of them. Source: none: infrastructure. Kind: L -/
theorem never_oversold_ticketing : ∃ s : Sys, (s.store.ticketsOf "12951").length = 1 ∧
    (s.store.seatsIn "12951" .available).length + (s.store.seatsIn "12951" .reserved).length +
      (s.store.seatsIn "12951" .confirmed).length = (opening.store.seatsOf "12951").length ∧
    (s.store.ticketsOf "12951").length ≤ (s.store.seatsIn "12951" .confirmed).length := by
  have hrun : (run (step config) opening ticketing).map
      (fun s => (s.store.ticketsOf "12951").length == 1) = some true := by decide +kernel
  obtain ⟨s, hs, hp⟩ := Option.map_eq_some_iff.mp hrun
  exact ⟨s, beq_iff_eq.mp hp, never_oversold initial_opening (steps_of_run hs) "12951"⟩

/-- The ticket is paid. Source: none: infrastructure. Kind: L -/
theorem money_accounted_ticketing : ∃ s : Sys, (s.store.taken.map Payment.amountPaise).sum = 126000 ∧
    (s.store.taken.map Payment.amountPaise).sum =
      ((s.store.bookings.committed.select s.store.paid).map Booking.pricePaise).sum := by
  have hrun : (run (step config) opening ticketing).map
      (fun s => (s.store.taken.map Payment.amountPaise).sum == 126000) = some true := by decide +kernel
  obtain ⟨s, hreach, hp⟩ := reach_of_run initial_opening hrun
  exact ⟨s, beq_iff_eq.mp hp, (money_accounted hreach).1⟩

/-- A delivery gives up its booking and refunds it; then another booking is sold. Source: none:
infrastructure. Kind: D -/
def refundedAndSold : List Action :=
  refunding ++ [.post ravi, .gate 3 true true] ++ callReturns 3 9 1 ++
    [.issue 3, .store (.start 10), .store (.exec 10 { Store.usualChoice with uuid := 2 }),
      .store (.commit 10), .receive 3, .publish 3 true true] ++
    callReturns 3 11 1 ++ [.answer 3, .deliver 1 0, .chaos 4 none] ++ callReturns 4 12 1 ++
    callReturns 4 13 2 ++
    [.issue 4, .store (.start 14), .store (.exec 14 Store.usualChoice),
      .store (.exec 14 { Store.usualChoice with uuid := 2 }), .store (.commit 14), .receive 4] ++
    callReturns 4 15 3 ++ callReturns 4 16 1 ++ [.answer 4]

/-- Two payments are taken and one is kept. Source: none: infrastructure. Kind: L -/
theorem books_balance_refundedAndSold : ∃ s : Sys, s.refunds = [1] ∧ s.store.taken.length = 2 ∧
    (s.kept.map Payment.amountPaise).sum = 126000 ∧
    (s.kept.map Payment.amountPaise).sum =
      ((s.store.bookings.committed.select s.store.sold).map Booking.pricePaise).sum := by
  have hrun : (run (guarded (step config) Refunding) opening refundedAndSold).map
      (fun s => s.atRest && s.refunds == [1] && s.store.taken.length == 2 &&
        (s.kept.map Payment.amountPaise).sum == 126000) = some true := by
    decide +kernel
  obtain ⟨s, hreach, hp⟩ := reach_of_guarded initial_opening hrun
  simp only [Bool.and_eq_true, beq_iff_eq] at hp
  obtain ⟨⟨⟨hrest, hrefund⟩, htaken⟩, hsum⟩ := hp
  exact ⟨s, hrefund, htaken, hsum, books_balance hreach (quiescent_of_atRest hrest).1⟩

end Sys

end TrainsAndTracks
