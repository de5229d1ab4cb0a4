import TrainsAndTracks.Pipeline.Invariants

/-!
# Tickets in the pipeline

What the invariant says of `CONFIRMED` bookings in every reachable pipeline, whatever the order of
deliveries, sweeps, callbacks and retries: each has its own seat and its own payment.
-/

namespace TrainsAndTracks

open Found

namespace Sys

/-! ## Schedules -/

/-- A configuration for single schedules. Source: `app/api/worker/allocate/route.ts`
`HOLD_DURATION_SEC` (default). Kind: D -/
def config : Config := ⟨300, BookRequest.passengerName⟩

/-- A pipeline in front of one train with two free seats. Source: none: infrastructure. Kind: D -/
def opening : Sys := ⟨Store.twoSeats, [], [], []⟩

/-- It is initial. Source: none: infrastructure. Kind: L -/
theorem initial_opening : Initial opening := ⟨Store.initial_twoSeats, rfl, rfl, rfl⟩

/-- A pipeline in front of two trains with a free seat each. Source: none: infrastructure. Kind: D -/
def twoTrains : Sys :=
  ⟨Store.fresh ["12951", "12952"]
    ⟨[Store.freeSeat "12951-A1" "12951", Store.freeSeat "12952-A1" "12952"], by decide⟩, [], [], []⟩

/-- It is initial. Source: none: infrastructure. Kind: L -/
theorem initial_twoTrains : Initial twoTrains := ⟨Store.initial_fresh _ (by decide), rfl, rfl, rfl⟩

/-- A request for a seat. Source: `app/api/book/route.ts`. Kind: D -/
def asha : PostRequest where
  idempotencyKey := some "0b8e4c1a-5f2d-4e3a-9c7b-1a2b3c4d5e6f"
  body := some ⟨"12951", "Asha", none⟩
  ip := "10.0.0.1"
  requestId := "req_1"

/-- Another request for a seat. Source: `app/api/book/route.ts`. Kind: D -/
def ravi : PostRequest where
  idempotencyKey := some "7d1f0a52-9b3e-4c86-8f21-6e5d4c3b2a19"
  body := some ⟨"12951", "Ravi", none⟩
  ip := "10.0.0.2"
  requestId := "req_2"

/-- Handler `c` sends its call as execution `i`, of `n` statements, which commits.
Source: none: infrastructure. Kind: D -/
def callCommits (c i n : ℕ) : List Action :=
  [.issue c, .store (.start i)] ++ List.replicate n (.store (.exec i Store.usualChoice)) ++
    [.store (.commit i)]

/-- Handler `c` sends its call as execution `i` and receives the reply.
Source: none: infrastructure. Kind: D -/
def callReturns (c i n : ℕ) : List Action := callCommits c i n ++ [.receive c]

/-- Handler 0 books: the key is registered, the booking created and the message published.
Source: none: infrastructure. Kind: D -/
def booking : List Action :=
  [.post asha, .gate 0 true true] ++ callReturns 0 0 1 ++ callReturns 0 1 1 ++ [.publish 0 true true]

/-- The request is answered `202`. Source: none: infrastructure. Kind: D -/
def accepting : List Action := booking ++ callReturns 0 2 1 ++ [.answer 0]

/-- Handler 1 is the delivery that allocates, charges, confirms and answers.
Source: none: infrastructure. Kind: D -/
def ticketing : List Action :=
  accepting ++ [.deliver 0 0, .chaos 1 none] ++ callReturns 1 3 1 ++ callReturns 1 4 2 ++ callReturns 1 5 2 ++
    callReturns 1 6 3 ++ callReturns 1 7 1 ++ [.answer 1]

/-- `Quiescent` and `Swept`, computed. Source: none: infrastructure. Kind: D -/
def atRest (s : Sys) : Bool :=
  s.clients.all (!·.phase.live) && s.store.execs.all (ended ·.pc) &&
    s.messages.all (fun m => match m.state with
      | .acked | .closed .. => true
      | _ => false) &&
    s.store.seats.committed.rows.all (·.status != .reserved)

/-- The computation is right. Source: none: infrastructure. Kind: L -/
theorem quiescent_of_atRest {s : Sys} (h : s.atRest = true) : s.Quiescent ∧ s.Swept := by
  simp only [atRest, Bool.and_eq_true, List.all_eq_true, Bool.not_eq_true', bne_iff_ne] at h
  obtain ⟨⟨⟨hclients, hexecs⟩, hmessages⟩, hseats⟩ := h
  refine ⟨⟨hclients, hexecs, fun m hm => ?_⟩, hseats⟩
  have hstate := hmessages m hm
  split at hstate
  · exact .inl ‹_›
  · exact .inr ⟨_, _, ‹_›⟩
  · cases hstate

/-- Some booking is `CONFIRMED`. Source: none: infrastructure. Kind: D -/
def hasTicket (s : Sys) : Bool := s.store.bookings.committed.rows.any (·.status == .confirmed)

/-- The schedule reaches a ticket. Source: none: infrastructure. Kind: L -/
theorem reach_ticket : ∃ s, Reachable config s ∧
    ∃ b r, s.store.bookings.committed.find? b = some r ∧ r.status = .confirmed := by
  have hrun : (run (step config) opening ticketing).map hasTicket = some true := by decide +kernel
  obtain ⟨s, hreach, hticket⟩ := reach_of_run initial_opening hrun
  obtain ⟨r, hr, hst⟩ := List.any_eq_true.mp hticket
  exact ⟨s, hreach, r.id, r, Table.find?_of_mem hr, beq_iff_eq.mp hst⟩

/-! ## Seats -/

/-- **No duplicate allocation.** In every reachable pipeline the seat of a `CONFIRMED` booking is
`CONFIRMED`, points back and is a seat of the booking's train, and two `CONFIRMED` bookings have
different seats. Source: migrations `100_fn_allocate_seat`, `110_fn_confirm_booking`,
`tests/invariants/no-duplicate-seats.ts` (I1). Kind: P -/
theorem no_duplicate_allocation {cfg : Config} {s : Sys} (h : Reachable cfg s) :
    (∀ b r, s.store.bookings.committed.find? b = some r → r.status = .confirmed →
      ∃ k seat, r.seatId = some k ∧ s.store.seats.committed.find? k = some seat ∧
        seat.status = .confirmed ∧ seat.bookingId = some b ∧ seat.trainId = r.trainId) ∧
    ∀ b b' r r', s.store.bookings.committed.find? b = some r →
      s.store.bookings.committed.find? b' = some r' → r.status = .confirmed →
      r'.status = .confirmed → b ≠ b' → r.seatId ≠ r'.seatId := by
  have htickets := (inv_of_reach h).tickets
  refine ⟨fun b r hr hst => ?_, fun b b' r r' hr hr' hst hst' hne =>
    htickets.seat_ne hr hr' hst hst' hne⟩
  obtain rfl : r.id = b := Table.key_of_find? hr
  exact htickets.seated r.id r hr hst

/-- A run that ends with a ticket has a seat that points back. Source: none: infrastructure.
Kind: L -/
theorem no_duplicate_allocation_ticketing : ∃ s : Sys, ∃ b r k seat,
    s.store.bookings.committed.find? b = some r ∧ r.status = .confirmed ∧ r.seatId = some k ∧
    s.store.seats.committed.find? k = some seat ∧ seat.bookingId = some b := by
  obtain ⟨s, hreach, b, r, hr, hst⟩ := reach_ticket
  obtain ⟨k, seat, hk, hseat, -, hb, -⟩ := (no_duplicate_allocation hreach).1 b r hr hst
  exact ⟨s, b, r, k, seat, hr, hst, hk, hseat, hb⟩

/-! ## Payments -/

/-- **Every ticket is backed by its own payment.** In every reachable pipeline a `CONFIRMED` booking
names a payment that succeeded, for its key and its price; two `CONFIRMED` bookings name different
payments; and a booking has at most one payment. Source: `lib/payment/mock-service.ts` `charge`,
migration `110_fn_confirm_booking`. Kind: P -/
theorem tickets_paid {cfg : Config} {s : Sys} (h : Reachable cfg s) :
    (∀ b r, s.store.bookings.committed.find? b = some r → r.status = .confirmed →
      ∃ p pay, r.paymentId = some p ∧ s.store.payments.find? p = some pay ∧
        pay.status = .succeeded ∧ pay.idempotencyKey = r.idempotencyKey ∧
        pay.amountPaise = r.pricePaise) ∧
    (∀ b b' r r', s.store.bookings.committed.find? b = some r →
      s.store.bookings.committed.find? b' = some r' → r.status = .confirmed →
      r'.status = .confirmed → b ≠ b' → r.paymentId ≠ r'.paymentId) ∧
    ∀ b r, s.store.bookings.committed.find? b = some r → ∀ pay ∈ s.store.payments,
      ∀ pay' ∈ s.store.payments, pay.idempotencyKey = r.idempotencyKey →
      pay'.idempotencyKey = r.idempotencyKey → pay = pay' := by
  have hinv := inv_of_reach h
  have hunique := hinv.store.unique
  exact ⟨hinv.tickets.paid,
    fun b b' r r' hr hr' hst hst' hne => hinv.tickets.payment_ne hunique hr hr' hst hst' hne,
    fun b r _ pay hpay pay' hpay' hk hk' => hunique.payments pay hpay pay' hpay' (hk.trans hk'.symm)⟩

/-- A run that ends with a ticket has a payment for it. Source: none: infrastructure. Kind: L -/
theorem tickets_paid_ticketing : ∃ s : Sys, ∃ b r p pay,
    s.store.bookings.committed.find? b = some r ∧ r.status = .confirmed ∧ r.paymentId = some p ∧
    s.store.payments.find? p = some pay ∧ pay.status = .succeeded := by
  obtain ⟨s, hreach, b, r, hr, hst⟩ := reach_ticket
  obtain ⟨p, pay, hp, hpay, hpst, -⟩ := (tickets_paid hreach).1 b r hr hst
  exact ⟨s, b, r, p, pay, hr, hst, hp, hpay, hpst⟩

end Sys

end TrainsAndTracks
