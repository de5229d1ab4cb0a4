import TrainsAndTracks.Pipeline.Deliveries
import TrainsAndTracks.Pipeline.Tickets

/-!
# Tickets and refunds

A delivery calls `refund` when `confirm_booking` returns no row, whatever the reason, and nowhere else.

* `refunded_ticket` — a run in which the first execution of `confirm_booking` has confirmed the booking
  and its repetition by `pgPolicy` returns no row: the ticket's payment is refunded.
* `tickets_not_refunded` — no refunded payment is a ticket's, in runs in which a missing row is
  received only for a `FAILED` or `EXPIRED` booking.
-/

namespace TrainsAndTracks

open Found

open Store (JobOk PaidFor)

/-- `FAILED` or `EXPIRED`. Source: migration `010_enums`. Kind: D -/
def BookingStatus.lost : BookingStatus → Bool
  | failed | expired => true
  | _ => false

/-- A lost booking is settled. Source: none: infrastructure. Kind: L -/
theorem BookingStatus.ne_pending_of_lost {st : BookingStatus} (h : st.lost = true) :
    st ≠ .pending := by
  rintro rfl
  cases h

namespace Store

/-- The booking is `FAILED` or `EXPIRED`. Source: migrations `20260418000000_split_release_hold`,
`130_fn_sweep_expired_holds`. Kind: D -/
def Lost (σ : Store) (b : BookingId) : Prop :=
  ((σ.bookings.committed.find? b).any (·.status.lost)) = true

instance (σ : Store) (b : BookingId) : Decidable (Lost σ b) :=
  inferInstanceAs (Decidable (_ = true))

/-- The payment is for the key of a booking that is `FAILED` or `EXPIRED`. Source:
`lib/payment/mock-service.ts`. Kind: D -/
def Unsold (σ : Store) (p : PaymentId) : Prop :=
  ∃ b r pay, σ.bookings.committed.find? b = some r ∧ r.status.lost = true ∧
    σ.payments.find? p = some pay ∧ pay.idempotencyKey = r.idempotencyKey

section lost

variable {σ σ' : Store} {b : BookingId} {p : PaymentId}

/-- A booking is lost when its row says so. Source: none: infrastructure. Kind: L -/
theorem lost_iff : Lost σ b ↔
    ∃ r, σ.bookings.committed.find? b = some r ∧ r.status.lost = true :=
  Option.any_eq_true _ _

/-- A lost booking stays lost. Source: none: infrastructure. Kind: L -/
theorem Lost.mono (hle : Le σ σ') (h : Lost σ b) : Lost σ' b := by
  obtain ⟨r, hr, hlost⟩ := lost_iff.mp h
  exact lost_iff.mpr ⟨r, hle.settled hr (BookingStatus.ne_pending_of_lost hlost), hlost⟩

/-- The payment of a lost booking stays so. Source: none: infrastructure. Kind: L -/
theorem Unsold.mono (hle : Le σ σ') (h : Unsold σ p) : Unsold σ' p := by
  obtain ⟨b, r, pay, hr, hlost, hpay, hk⟩ := h
  exact ⟨b, r, pay, hle.settled hr (BookingStatus.ne_pending_of_lost hlost), hlost,
    hle.payment p pay hpay, hk⟩

/-- The payment of a lost booking is not a ticket's. Source: migration `060_bookings`
(`idempotency_key` is unique). Kind: L -/
theorem Unsold.ne_ticket (hu : UniqueOk σ) (ht : TicketsOk σ) (h : Unsold σ p) {r : Booking}
    (hr : σ.bookings.committed.find? b = some r) (hst : r.status = .confirmed) :
    r.paymentId ≠ some p := by
  intro hp
  obtain ⟨b', r', pay, hr', hlost, hpay, hk⟩ := h
  obtain ⟨p', pay', hp', hpay', -, hk', -⟩ := ht.paid b r hr hst
  obtain rfl := Option.eq_some_unique hp hp'
  obtain rfl := Option.eq_some_unique hpay hpay'
  obtain rfl := hu.bookings b b' r r' hr hr' (by rw [← hk, ← hk'])
  obtain rfl := Option.eq_some_unique hr hr'
  rw [hst] at hlost
  cases hlost

end lost

end Store

namespace Sys

/-! ## No ticket without payment -/

/-- No refunded payment is the payment of a `CONFIRMED` booking. Source:
`app/api/worker/allocate/route.ts` (step 7). Kind: D -/
def TicketsKept (s : Sys) : Prop :=
  ∀ p ∈ s.refunds, ∀ b r, s.store.bookings.committed.find? b = some r → r.status = .confirmed →
    r.paymentId ≠ some p

/-- The delivery confirms, its `confirm_booking` is repeated although it has committed, and the
repetition returns no row. Source: none: infrastructure. Kind: D -/
def repeating : List Action :=
  accepting ++ [.deliver 0 0, .chaos 1 none] ++ callReturns 1 3 1 ++ callReturns 1 4 2 ++ callReturns 1 5 2 ++
    callCommits 1 6 3 ++ callReturns 1 7 1 ++ [.refund 1]

/-- Payment 1 is refunded and the payment of a `CONFIRMED` booking. Source: none: infrastructure.
Kind: D -/
def hasRefundedTicket (s : Sys) : Bool :=
  s.refunds.contains 1 && s.store.bookings.committed.rows.any fun r =>
    r.status == .confirmed && r.paymentId == some 1

/-- **A missing row does not mean a lost hold.** In some reachable pipeline the payment of a
`CONFIRMED` booking is refunded. Source: `app/api/worker/allocate/route.ts` (step 7). Kind: P -/
theorem refunded_ticket : ¬ ∀ s, Reachable config s → s.TicketsKept := by
  intro h
  have hrun : (run (step config) opening repeating).map hasRefundedTicket = some true := by
    decide +kernel
  obtain ⟨s, hreach, hp⟩ := reach_of_run initial_opening hrun
  simp only [hasRefundedTicket, Bool.and_eq_true, List.contains_iff_mem, List.any_eq_true,
    beq_iff_eq] at hp
  obtain ⟨hrefund, r, hr, hst, hpay⟩ := hp
  exact h s hreach 1 hrefund r.id r (Table.find?_of_mem hr) hst hpay

section kept

variable {cfg : Config} {s s' : Sys} {a : Action}

/-- Refunded payments stay payments of lost bookings, when deliveries give up lost bookings only.
Source: `app/api/worker/allocate/route.ts` (step 7). Kind: L -/
theorem unsold_step (hinv : Inv cfg s) (hs : Stepped cfg s a s')
    (hgave : ∀ b, s.GaveUp b → s.store.Lost b) (h : ∀ p ∈ s.refunds, s.store.Unsold p) :
    ∀ p ∈ s'.refunds, s'.store.Unsold p := by
  have hle := (hs.le hinv.store.locks).store
  intro p hp
  suffices hold : s.store.Unsold p from hold.mono hle
  rcases hs.refund_cases with heq | ⟨c, d, p', phase, -, hcl, heq⟩
  · rw [heq] at hp
    exact h p hp
  · rw [heq, List.mem_append, List.mem_singleton] at hp
    rcases hp with hp | rfl
    · exact h p hp
    · have hcl := (running_eq_some.mp hcl).1
      obtain ⟨hjob, -, pay, hpay, -, hk⟩ := hinv.tasks c _ hcl
      obtain ⟨r, hr, hlost⟩ := Store.lost_iff.mp (hgave _ ⟨c, d, _, phase, hcl, rfl, rfl⟩)
      obtain ⟨r', hr', hk', -⟩ := hjob.booked
      obtain rfl := Option.eq_some_unique hr hr'
      exact ⟨_, r, pay, hr, hlost, hpay, hk.trans hk'.symm⟩

/-- **No ticket without payment.** In every run in which a delivery that receives no row from
`confirm_booking` finds its booking `FAILED` or `EXPIRED`, no refunded payment is a ticket's.
Source: `app/api/worker/allocate/route.ts` (step 7). Kind: P -/
theorem tickets_not_refunded (h : Reach (step cfg) Initial (OnNull Store.Lost) s) :
    s.TicketsKept := by
  have key : (∀ b, s.GaveUp b → s.store.Lost b) ∧ ∀ p ∈ s.refunds, s.store.Unsold p := by
    refine h.invariant
      (P := fun s => (∀ b, s.GaveUp b → s.store.Lost b) ∧ ∀ p ∈ s.refunds, s.store.Unsold p)
      (fun s hinit => ⟨fun b hgave => absurd hgave (hinit.not_gaveUp b), fun p hp => ?_⟩)
      fun s a s' hreach hP hC hstep => ?_
    · rw [hinit.no_refunds] at hp
      cases hp
    · have hinv := inv_of_reach hreach
      have hs := step_cases hstep
      have hle := (hs.le hinv.store.locks).store
      exact ⟨gaveUp_step hinv hs hC hP.1 fun b _ hlost => hlost.mono hle,
        unsold_step hinv hs hP.1 hP.2⟩
  have hinv := inv_of_reach h
  exact fun p hp b r hr hst => (key.2 p hp).ne_ticket hinv.store.unique hinv.tickets hr hst

end kept

/-- The hold expires, the sweep expires the booking, and the delivery receives no row and refunds.
Source: none: infrastructure. Kind: D -/
def expiring : List Action :=
  accepting ++ [.deliver 0 0, .chaos 1 none] ++ callReturns 1 3 1 ++ callReturns 1 4 2 ++ callReturns 1 5 2 ++
    [.store (.tick 400), .sweep] ++ callReturns 2 6 3 ++ callReturns 1 7 1 ++ [.refund 1]

/-- A run with a refund that keeps the tickets. Source: none: infrastructure. Kind: L -/
theorem tickets_not_refunded_expiring : ∃ s : Sys, s.refunds = [1] ∧ s.TicketsKept := by
  have hrun : (run (guarded (step config) (OnNull Store.Lost)) opening expiring).map
      (·.refunds == [1]) = some true := by decide +kernel
  obtain ⟨s, hreach, hrefund⟩ := reach_of_guarded initial_opening hrun
  exact ⟨s, beq_iff_eq.mp hrefund, tickets_not_refunded hreach⟩

end Sys

end TrainsAndTracks
