import TrainsAndTracks.Pipeline.Recovery
import TrainsAndTracks.Pipeline.Budget

/-!
# The manual retry of a dead letter

An operator has the message of a dead letter published again, and the republished message is delivered:
two handlers, one after the other, with nobody else at work.

* `Solo` — a handler that runs alone. `Solo.Step` is one `await`, with its call executed alone; nothing
  throws but a `charge` that answers from a failed payment, and the gateway accepts what it is asked.
* `Retries` — the retry and the delivery, each up to its answer.
* `Posted`, `Under` — where the two handlers stand, and what the tables are there.
* `retry_changes_nothing` — a dead letter whose booking the failure callback has failed stays failed.
* `retry_confirms_iff` — the retry confirms exactly the bookings that are still `PENDING` and whose charge
  has not failed.
-/

namespace TrainsAndTracks

open Found

/-! ## Handlers that run alone -/

namespace Store

/-- The call finds no seat in time: the booking has no live hold and all free seats of the train are locked
by open transactions, or the hold to be confirmed has run out. Source: migrations `100_fn_allocate_seat`,
`110_fn_confirm_booking`. Kind: D -/
def missesSeat (σ : Store) : Call → Bool
  | .allocateSeat train b _ _ =>
    σ.seats.committed.rows.all fun s => !(s.bookingId == some b && s.liveAt σ.now) &&
      (!(s.trainId == train && s.status == .available) || (σ.seats.lock s.id).isSome)
  | .confirmBooking _ seat _ => !(σ.seats.committed.find? seat).any (·.liveAt σ.now)
  | _ => false

/-- The gateway has accepted what was charged between `σ` and `τ`. Source: `lib/payment/mock-service.ts`
`charge`. Kind: D -/
def GatewayAccepts (σ τ : Store) : Prop := ∀ p ∈ τ.payments, p ∈ σ.payments ∨ p.status = .succeeded

/-- The booking of the job is `PENDING` and no payment for its key has failed. Source:
`app/api/worker/allocate/route.ts` (step 3), `lib/payment/mock-service.ts` `charge`. Kind: D -/
def Recoverable (σ : Store) (job : AllocateJobPayload) : Prop :=
  σ.HasStatus job.bookingId .pending ∧
    ∀ p ∈ σ.payments, p.idempotencyKey = job.idempotencyKey → p.status ≠ .failed

section misses

variable {σ τ : Store} {b : BookingId} {train : TrainId} {passenger : String} {hold : ℕ} {s : Seat}

/-- Nothing was to be had. Source: migration `100_fn_allocate_seat`. Kind: L -/
theorem missesSeat_of_pick_none
    (hlive : ∀ s ∈ σ.seats.committed, s.bookingId = some b → s.liveAt σ.now = false)
    (hpick : σ.pickAvailable σ.execs.length train = none) :
    σ.missesSeat (.allocateSeat train b passenger hold) = true := by
  refine List.all_eq_true.mpr fun s hs => ?_
  have hno : (s.bookingId == some b && s.liveAt σ.now) = false := by
    by_cases hb : s.bookingId = some b
    · simp [hlive s hs hb]
    · simp [hb]
  have hlocked : (!(s.trainId == train && s.status == .available) || (σ.seats.lock s.id).isSome) = true := by
    cases hfree : s.trainId == train && s.status == .available with
    | false => rfl
    | true =>
      cases hlock : σ.seats.lock s.id with
      | some _ => rfl
      | none =>
        have hmem : s ∈ σ.seats.committed.select fun s =>
            s.trainId == train && s.status == .available && !σ.seats.lockedFor σ.execs.length s.id :=
          Table.mem_select.mpr ⟨hs, by simp [hfree, Versioned.lockedFor, hlock]⟩
        rw [List.argmin_eq_none.mp hpick] at hmem
        cases hmem
  show (!(s.bookingId == some b && s.liveAt σ.now) && _) = true
  rw [hno, hlocked]
  rfl

/-- A live hold was there. Source: migration `100_fn_allocate_seat`, statement 1. Kind: L -/
theorem missesSeat_of_live (hs : s ∈ σ.seats.committed) (hb : s.bookingId = some b)
    (hlive : s.liveAt σ.now = true) : σ.missesSeat (.allocateSeat train b passenger hold) = false := by
  refine List.all_eq_false.mpr ⟨s, hs, ?_⟩
  simp [hb, hlive]

/-- A free seat was there. Source: migration `100_fn_allocate_seat`, statement 2. Kind: L -/
theorem missesSeat_of_pick (hl : σ.LocksOk) (hpick : σ.pickAvailable σ.execs.length train = some s) :
    σ.missesSeat (.allocateSeat train b passenger hold) = false := by
  obtain ⟨hs, hfree⟩ := Table.mem_select.mp (List.argmin_mem hpick)
  obtain ⟨hfree, hunlocked⟩ := (Bool.and_eq_true _ _).mp hfree
  have hlock : σ.seats.lock s.id = none := by
    cases hlock : σ.seats.lock s.id with
    | none => rfl
    | some own =>
      have hne : own.1 ≠ σ.execs.length := fun heq => hl.seat_lock_ne s.id own.2 (by rw [hlock, ← heq])
      simp [Versioned.lockedFor, hlock, hne] at hunlocked
  refine List.all_eq_false.mpr ⟨s, hs, ?_⟩
  simp only [hfree, hlock]
  simp

end misses

end Store

/-- A handler that runs alone: the store, what it has published, and whether a call of it has missed the
seat. Source: the routes of `app/api`. Kind: D -/
structure Solo where
  task : Task
  store : Store
  published : List AllocateJobPayload
  missed : Bool

namespace Solo

/-- One `await` of a handler that runs alone. `paymentPolicy` may repeat a charge that was rejected, and time
may pass. Source: the routes of `app/api`, `lib/resilience/payment-policy.ts`. Kind: D -/
inductive Step (cfg : Config) : Solo → Solo → Prop
  | call {t t' : Task} {σ τ log missed call r} (hcall : t.call cfg = some call)
      (hexec : Store.Executed σ call r τ) (haccepts : σ.GatewayAccepts τ)
      (hreply : t.onReply cfg τ.now r = some t') :
      Step cfg ⟨t, σ, log, missed⟩ ⟨t', τ, log, missed || σ.missesSeat call⟩
  | again {d : Delivery} {price seat σ τ log missed code}
      (hexec : Store.Executed σ (.charge price d.job.idempotencyKey) (.paymentError code) τ)
      (haccepts : σ.GatewayAccepts τ) :
      Step cfg ⟨.worker d (.charge price seat), σ, log, missed⟩
        ⟨.worker d (.charge price seat), τ, log, missed⟩
  | publish {t : Task} {σ log missed job} (hjob : t.publishing = some job) :
      Step cfg ⟨t, σ, log, missed⟩ ⟨t.onPublished, σ, log ++ [job], missed⟩
  | gate {d : Delivery} {σ log missed} :
      Step cfg ⟨.worker d .chaosGate, σ, log, missed⟩ ⟨.worker d (.parse d.job), σ, log, missed⟩
  | refund {d : Delivery} {p σ log missed} :
      Step cfg ⟨.worker d (.refund p), σ, log, missed⟩ ⟨.worker d .commitExpired, σ, log, missed⟩
  | tick {t : Task} {σ log missed} (δ : ℕ) :
      Step cfg ⟨t, σ, log, missed⟩ ⟨t, { σ with now := σ.now + δ }, log, missed⟩

/-- The dead letter `id` is retried, and the message that is published is delivered, as message `m` and after
`n` failures: both handlers have answered. Source: `app/api/admin/dlq/[id]/retry/route.ts` `POST`,
`app/api/worker/allocate/route.ts` `handler`. Kind: D -/
def Retries (cfg : Config) (id : ℕ) (σ : Store) (h : Solo) : Prop :=
  ∃ (retry : Solo) (job : AllocateJobPayload) (m : MessageId) (n : ℕ) (answer : WorkerResponse),
    Relation.ReflTransGen (Step cfg) ⟨.dlqRetry id .lookup, σ, [], false⟩ retry ∧
    retry.task = .dlqRetry id (.respond 200) ∧ retry.published = [job] ∧
    Relation.ReflTransGen (Step cfg) ⟨.worker ⟨m, n, job⟩ .chaosGate, retry.store, [], false⟩ h ∧
    h.task = .worker ⟨m, n, job⟩ (.respond answer)

/-- What the two handlers need to find: a valid payload, whose booking has a price and is not `CONFIRMED`, a
free seat of its train, and payments that are answered, one for each key. Source:
`app/api/worker/allocate/route.ts` (steps 2 to 6). Kind: D -/
structure Ready (σ : Store) (job : AllocateJobPayload) : Prop where
  valid : job.valid = true
  booking : ∃ row, σ.bookings.committed.find? job.bookingId = some row ∧ row.pricePaise ≠ 0 ∧
    row.status ≠ .confirmed
  seat : ∃ s ∈ σ.seats.committed, s.trainId = job.trainId ∧ s.status = .available
  unique : ∀ p ∈ σ.payments, ∀ q ∈ σ.payments, p.idempotencyKey = q.idempotencyKey → p = q
  drawn : ∀ p ∈ σ.payments, p.status ≠ .pending

/-- The seats, bookings and payments are the same. Source: none: infrastructure. Kind: D -/
structure Kept (σ τ : Store) : Prop where
  seats : τ.seats = σ.seats
  bookings : τ.bookings = σ.bookings
  payments : τ.payments = σ.payments

/-! ## The retry -/

/-- The `await`s of the retry. Source: `app/api/admin/dlq/[id]/retry/route.ts` `POST`. Kind: D -/
inductive Posting (id : ℕ) (row : DlqJob) : DlqRetryPc → List AllocateJobPayload → Store → Prop
  | lookup {τ} (hrow : τ.dlqJobs.find? id = some row) : Posting id row .lookup [] τ
  | publish {τ} : Posting id row (.publish row.payload) [] τ
  | mark {τ} : Posting id row .mark [row.payload] τ
  | done {τ} : Posting id row (.respond 200) [row.payload] τ

/-- Where the retry stands. Source: `app/api/admin/dlq/[id]/retry/route.ts` `POST`. Kind: D -/
structure Posted (id : ℕ) (row : DlqJob) (σ : Store) (h : Solo) : Prop where
  pc : ∃ pc, h.task = .dlqRetry id pc ∧ Posting id row pc h.published h.store
  kept : Kept σ h.store
  locks : h.store.LocksOk

section posted

variable {cfg : Config} {id : ℕ} {row : DlqJob} {σ τ : Store} {h h' : Solo} {call : Call} {r : Reply}

/-- Time does not change a row. Source: none: infrastructure. Kind: L -/
theorem Kept.tick (hkept : Kept σ τ) (δ : ℕ) : Kept σ { τ with now := τ.now + δ } :=
  ⟨hkept.seats, hkept.bookings, hkept.payments⟩

/-- A call that changes no seat and no booking. Source: none: infrastructure. Kind: L -/
theorem Kept.leaves {τ₀ τ' : Store} (hkept : Kept σ τ) (hleaves : Store.Leaves τ₀ τ' τ.seats τ.bookings)
    (hpayments : τ₀.payments = τ.payments) : Kept σ τ' where
  seats := hleaves.seats.trans hkept.seats
  bookings := hleaves.bookings.trans hkept.bookings
  payments := (hleaves.payments.trans hpayments).trans hkept.payments

/-- **One `await` of the retry.** Source: `app/api/admin/dlq/[id]/retry/route.ts` `POST`. Kind: L -/
theorem Posted.step (hvalid : row.payload.valid = true) (hp : Posted id row σ h) (hs : Step cfg h h') :
    Posted id row σ h' := by
  obtain ⟨⟨pc, htask, hpc⟩, hkept, hl⟩ := hp
  cases hs with
  | @call t t' τ τ' log missed call r hcall hexec haccepts hreply =>
    obtain rfl : t = .dlqRetry id pc := htask
    have hl' := hexec.locks hl
    cases hpc with
    | lookup hrow =>
      cases hcall
      obtain ⟨rfl, hleaves⟩ := Store.executed_getDlqJobById hl hexec
      have hfound : τ.dlqJobs.find? id = some row := hrow
      rw [hfound] at hreply
      simp only [Task.onReply, DlqRetryPc.onReply, hvalid, if_true, Option.map_some,
        Option.some.injEq] at hreply
      subst hreply
      exact ⟨⟨_, rfl, .publish⟩, hkept.leaves hleaves rfl, hl'⟩
    | publish => cases hcall
    | mark =>
      cases hcall
      obtain ⟨rfl, hleaves⟩ := Store.executed_markDlqRetried hl hexec
      cases hreply
      exact ⟨⟨_, rfl, .done⟩, hkept.leaves hleaves rfl, hl'⟩
    | done => cases hcall
  | again => cases htask
  | publish hjob =>
    obtain rfl := htask
    cases hpc with
    | publish =>
      cases hjob
      exact ⟨⟨_, rfl, .mark⟩, hkept, hl⟩
    | _ => cases hjob
  | gate => cases htask
  | refund => cases htask
  | tick δ =>
    refine ⟨⟨pc, htask, ?_⟩, hkept.tick δ, hl.tick δ⟩
    cases hpc with
    | lookup hrow => exact .lookup hrow
    | publish => exact .publish
    | mark => exact .mark
    | done => exact .done

/-- **The whole retry** publishes the payload of the dead letter and touches no seat, booking or payment.
Source: `app/api/admin/dlq/[id]/retry/route.ts` `POST`. Kind: L -/
theorem posted_of_steps (hl : σ.LocksOk) (hrow : σ.dlqJobs.find? id = some row)
    (hvalid : row.payload.valid = true)
    (hsteps : Relation.ReflTransGen (Step cfg) ⟨.dlqRetry id .lookup, σ, [], false⟩ h) :
    Posted id row σ h := by
  induction hsteps with
  | refl => exact ⟨⟨_, rfl, .lookup hrow⟩, ⟨rfl, rfl, rfl⟩, hl⟩
  | tail _ hs ih => exact ih.step hvalid hs

end posted

/-! ## The delivery -/

/-- From here on the handler does not confirm the booking. Source: `app/api/worker/allocate/route.ts`
(steps 5 to 7). Kind: D -/
def givesUp : WorkerPc → Bool
  | .releaseSoldOut | .commitSoldOut | .releaseFailed _ | .commitFailed _ | .releaseForRetry _ | .refund _
  | .commitExpired | .respond _ => true
  | _ => false

/-- The booking was `PENDING` and is, and the seat names it. Source: `app/api/worker/allocate/route.ts`
(step 4). Kind: D -/
structure Holds (σ τ : Store) (b : BookingId) (seat : SeatId) : Prop where
  pending : σ.HasStatus b .pending
  bookings : τ.bookings = σ.bookings
  held : ∃ w, τ.seats.committed.find? seat = some w ∧ w.bookingId = some b

/-- The `await`s of a delivery that found `σ`, whether a call has missed the seat, and the store.
Source: `app/api/worker/allocate/route.ts` `handler`. Kind: D -/
inductive Stage (d : Delivery) (σ : Store) : WorkerPc → Bool → Store → Prop
  | gate {τ} (hkept : Kept σ τ) : Stage d σ .chaosGate false τ
  | reading {τ} (hkept : Kept σ τ) : Stage d σ .getBooking false τ
  | allocating {price τ} (hkept : Kept σ τ) (hpending : σ.HasStatus d.job.bookingId .pending)
      (hprice : price ≠ 0) : Stage d σ (.allocate price) false τ
  | charging {price seat τ} (hholds : Holds σ τ d.job.bookingId seat) (hpayments : τ.payments = σ.payments)
      (hprice : price ≠ 0) : Stage d σ (.charge price seat) false τ
  | confirming {price seat payment τ} (hholds : Holds σ τ d.job.bookingId seat)
      (hpaid : (τ.payments.find? payment).isSome = true) (hcan : σ.Recoverable d.job) :
      Stage d σ (.confirm price seat payment) false τ
  | confirmed {price seat t τ} (hstatus : τ.HasStatus d.job.bookingId .confirmed)
      (hcan : σ.Recoverable d.job) : Stage d σ (.commitConfirmed price seat t) false τ
  | ticketed {r τ} (hstatus : τ.HasStatus d.job.bookingId .confirmed) (hcan : σ.Recoverable d.job) :
      Stage d σ (.respond r) false τ
  | lost {pc missed τ} (hpc : givesUp pc = true) (hstatus : ¬ τ.HasStatus d.job.bookingId .confirmed)
      (hcan : ¬ (σ.Recoverable d.job ∧ missed = false)) : Stage d σ pc missed τ

/-- Where the delivery stands. Source: `app/api/worker/allocate/route.ts` `handler`. Kind: D -/
structure Under (d : Delivery) (σ : Store) (h : Solo) : Prop where
  pc : ∃ pc, h.task = .worker d pc ∧ Stage d σ pc h.missed h.store
  locks : h.store.LocksOk

section stages

variable {d : Delivery} {σ τ τ' : Store} {r : Reply} {pc' : WorkerPc} {b : BookingId} {seat : SeatId}
  {price : ℕ} {payment : PaymentId}

/-- A booking has one status. Source: migration `060_bookings`. Kind: L -/
theorem hasStatus_unique {st st' : BookingStatus} (h : τ.HasStatus b st) (h' : τ.HasStatus b st') :
    st = st' := by
  obtain ⟨row, hrow, rfl⟩ := h
  obtain ⟨row', hrow', rfl⟩ := h'
  obtain rfl := Option.eq_some_unique hrow hrow'
  rfl

/-- The bookings are the same. Source: none: infrastructure. Kind: L -/
theorem hasStatus_congr {st : BookingStatus} (h : τ.bookings = σ.bookings) :
    τ.HasStatus b st ↔ σ.HasStatus b st := by
  unfold Store.HasStatus
  rw [h]

/-- A `PENDING` booking is not `CONFIRMED`. Source: migration `060_bookings`. Kind: L -/
theorem Holds.not_confirmed (hholds : Holds σ τ b seat) : ¬ τ.HasStatus b .confirmed := by
  intro hconfirmed
  have hne := hasStatus_unique hholds.pending ((hasStatus_congr hholds.bookings).mp hconfirmed)
  cases hne

/-- A call that changes no seat and no booking. Source: none: infrastructure. Kind: L -/
theorem Holds.leaves {τ₀ : Store} (hholds : Holds σ τ b seat)
    (hleaves : Store.Leaves τ₀ τ' τ.seats τ.bookings) : Holds σ τ' b seat where
  pending := hholds.pending
  bookings := hleaves.bookings.trans hholds.bookings
  held := by
    rw [hleaves.seats]
    exact hholds.held

/-- **The allocation** takes a seat, or misses it. Source: `app/api/worker/allocate/route.ts` (steps 4
and 5). Kind: L -/
theorem Stage.allocate {hold : ℕ} (hl : τ.LocksOk) (hkept : Kept σ τ)
    (hpending : σ.HasStatus d.job.bookingId .pending) (hprice : price ≠ 0)
    (hexec : Store.Executed τ (.allocateSeat d.job.trainId d.job.bookingId d.job.passengerName hold) r τ')
    (hreply : (WorkerPc.allocate price).onReply d.retried d.job τ'.now r = some pc') :
    Stage d σ pc'
      (τ.missesSeat (.allocateSeat d.job.trainId d.job.bookingId d.job.passengerName hold)) τ' := by
  rcases Store.executed_allocateSeat hl hexec with ⟨s, hs, hb, hlive, rfl, hleaves⟩ |
    ⟨hlive, ⟨hpick, rfl, hleaves⟩ | ⟨s, hpick, rfl, hleaves⟩⟩
  · cases hreply
    rw [Store.missesSeat_of_live hs hb hlive]
    refine .charging ⟨hpending, hleaves.bookings.trans hkept.bookings, s, ?_, hb⟩
      (hleaves.payments.trans hkept.payments) hprice
    rw [hleaves.seats]
    exact Table.find?_of_mem hs
  · cases hreply
    rw [Store.missesSeat_of_pick_none hlive hpick]
    refine .lost rfl (fun hconfirmed => ?_) fun hcan => Bool.noConfusion hcan.2
    have hne := hasStatus_unique hpending
      ((hasStatus_congr (hleaves.bookings.trans hkept.bookings)).mp hconfirmed)
    cases hne
  · cases hreply
    rw [Store.missesSeat_of_pick hl hpick]
    let u := Store.reserve s.id d.job.bookingId d.job.passengerName (τ.now + hold)
    refine .charging ⟨hpending, hleaves.bookings.trans hkept.bookings, u.set s, ?_, rfl⟩
      (hleaves.payments.trans hkept.payments) hprice
    have hs : τ.seats.committed.find? s.id = some s :=
      Table.find?_of_mem (Store.pickAvailable_eq_some hpick).1
    have hcond : u.cond s = true := beq_self_eq_true s.id
    rw [hleaves.seats]
    exact Versioned.find?_modify_of hs hcond

/-- A handler whose charge is rejected gives up. Source: `app/api/worker/allocate/route.ts` (step 6).
Kind: L -/
theorem givesUp_onPaymentError (retried : ℕ) (code : PaymentErrorCode) :
    givesUp (WorkerPc.onPaymentError retried code) = true := by
  unfold WorkerPc.onPaymentError
  split <;> rfl

/-- A charge the gateway accepts is rejected only for a failed payment. Source:
`lib/payment/mock-service.ts` `charge`. Kind: L -/
theorem exists_failed_of_rejected {k : IdempotencyKey} {code : PaymentErrorCode} (hl : τ.LocksOk)
    (hexec : Store.Executed τ (.charge price k) (.paymentError code) τ') (haccepts : τ.GatewayAccepts τ') :
    ∃ p ∈ τ.payments, p.idempotencyKey = k ∧ p.status = .failed ∧ Store.Leaves τ τ' τ.seats τ.bookings := by
  rcases Store.executed_charge hl hexec with ⟨p, hp, hk, hleaves, ⟨-, hr⟩ | ⟨hst, -⟩⟩ |
    ⟨hfresh, p, hnew, hk, hleaves, ⟨-, hr⟩ | ⟨hst, -⟩⟩
  · cases hr
  · exact ⟨p, hp, hk, hst, hleaves⟩
  · cases hr
  · -- the gateway accepts what is drawn
    have hmem : p ∈ τ.payments.insert p hnew := Table.mem_insert.mpr (.inr rfl)
    rcases haccepts p (by rw [hleaves.payments]; exact hmem) with hold | hpaid
    · exact absurd hk (hfresh p hold)
    · rw [hst] at hpaid
      cases hpaid

/-- **The charge** is accepted, or it finds a failed payment. Source: `app/api/worker/allocate/route.ts`
(step 6), `lib/payment/mock-service.ts` `charge`. Kind: L -/
theorem Stage.charge (hready : Ready σ d.job) (hl : τ.LocksOk) (hholds : Holds σ τ d.job.bookingId seat)
    (hpayments : τ.payments = σ.payments)
    (hexec : Store.Executed τ (.charge price d.job.idempotencyKey) r τ') (haccepts : τ.GatewayAccepts τ')
    (hreply : (WorkerPc.charge price seat).onReply d.retried d.job τ'.now r = some pc') :
    Stage d σ pc' false τ' := by
  have hlost : ∀ code, r = .paymentError code → Stage d σ pc' false τ' := by
    rintro code rfl
    obtain ⟨p, hp, hk, hst, hleaves⟩ := exists_failed_of_rejected hl hexec haccepts
    cases hreply
    rw [hpayments] at hp
    exact .lost (givesUp_onPaymentError _ _) (hholds.leaves hleaves).not_confirmed fun hcan =>
      hcan.1.2 p hp hk hst
  rcases Store.executed_charge hl hexec with ⟨p, hp, hk, hleaves, ⟨hst, rfl⟩ | ⟨-, code, hr⟩⟩ |
    ⟨hfresh, p, hnew, hk, hleaves, ⟨-, rfl⟩ | ⟨-, code, hr⟩⟩
  · cases hreply
    rw [hpayments] at hp
    have hfind : σ.payments.find? p.id = some p := Table.find?_of_mem hp
    refine .confirming (hholds.leaves hleaves) ?_ ⟨hholds.pending, fun q hq hkq hfailed => ?_⟩
    · rw [hleaves.payments, hpayments, hfind]
      rfl
    · obtain rfl := hready.unique p hp q hq (hk.trans hkq.symm)
      rw [hst] at hfailed
      cases hfailed
  · exact hlost code hr
  · cases hreply
    have hfind : (τ.payments.insert p hnew).find? p.id = some p :=
      Table.find?_of_mem (Table.mem_insert.mpr (.inr rfl))
    refine .confirming (hholds.leaves hleaves) ?_ ⟨hholds.pending, fun q hq hkq => ?_⟩
    · rw [hleaves.payments, hfind]
      rfl
    · rw [← hpayments] at hq
      exact absurd hkq (hfresh q hq)
  · exact hlost code hr

/-- **The confirmation** confirms, or misses the seat. Source: `app/api/worker/allocate/route.ts` (step 7).
Kind: L -/
theorem Stage.confirm (hl : τ.LocksOk) (hholds : Holds σ τ d.job.bookingId seat)
    (hcan : σ.Recoverable d.job)
    (hexec : Store.Executed τ (.confirmBooking d.job.bookingId seat payment) r τ')
    (hreply : (WorkerPc.confirm price seat payment).onReply d.retried d.job τ'.now r = some pc') :
    Stage d σ pc' (τ.missesSeat (.confirmBooking d.job.bookingId seat payment)) τ' := by
  obtain ⟨w, hw, hb⟩ := hholds.held
  obtain ⟨row, hrow, hpending⟩ := (hasStatus_congr hholds.bookings).mpr hholds.pending
  have hmisses : τ.missesSeat (.confirmBooking d.job.bookingId seat payment) = !w.liveAt τ.now := by
    simp only [Store.missesSeat, hw, Option.any_some]
  rw [hmisses]
  rcases Store.executed_confirmBooking hl hexec with ⟨hno, rfl, hleaves⟩ | ⟨hyes, rfl, hleaves⟩
  · cases hreply
    refine .lost rfl (hholds.leaves hleaves).not_confirmed fun hcan => ?_
    rcases hno with hno | hno
    · exact hno row hrow hpending
    · -- the hold has run out
      have hlive : w.liveAt τ.now = true := by simpa using hcan.2
      have hcond := Store.confirmSeatUpdate_cond_iff.mpr ⟨Table.key_of_find? hw, hb, hlive⟩
      rw [hno w (Table.mem_of_find? hw)] at hcond
      cases hcond
  · cases hreply
    obtain ⟨-, ⟨w', hw', hcond⟩, -⟩ := Store.confirmable_iff.mp hyes
    obtain rfl := Option.eq_some_unique hw hw'
    rw [(Store.confirmSeatUpdate_cond_iff.mp hcond).2.2]
    let u := Store.confirmRowUpdate d.job.bookingId seat payment τ.now
    have hcondrow : u.cond row = true :=
      Store.confirmRowUpdate_cond_iff.mpr ⟨Table.key_of_find? hrow, hpending⟩
    refine .confirmed ⟨u.set row, ?_, rfl⟩ hcan
    rw [hleaves.bookings]
    exact Versioned.find?_modify_of hrow hcondrow

/-- A handler that gives up releases, writes a response, or is done. Source:
`app/api/worker/allocate/route.ts` (steps 5 to 9). Kind: L -/
theorem call_of_givesUp {hold : ℕ} {pc : WorkerPc} {call : Call} (hpc : givesUp pc = true)
    (hcall : pc.call hold d.job = some call) :
    (∃ why, call.releases = some (d.job.bookingId, why)) ∨
      ∃ k st body, call = .writeIdempotencyResponse k st body := by
  cases pc <;> cases hpc <;> cases hcall
  case releaseSoldOut => exact .inl ⟨_, rfl⟩
  case releaseFailed => exact .inl ⟨_, rfl⟩
  case releaseForRetry => exact .inl ⟨_, rfl⟩
  all_goals exact .inr ⟨_, _, _, rfl⟩

/-- It keeps giving up. Source: `app/api/worker/allocate/route.ts` (steps 5 to 9). Kind: L -/
theorem onReply_of_givesUp {pc : WorkerPc} {t : Time} (hpc : givesUp pc = true)
    (hreply : pc.onReply d.retried d.job t r = some pc') : givesUp pc' = true := by
  cases pc <;> cases hpc <;> cases r <;> cases hreply <;> rfl

/-- It misses no seat any more. Source: `app/api/worker/allocate/route.ts` (steps 5 to 9). Kind: L -/
theorem missesSeat_of_releases {call : Call} {p : BookingId × Option String}
    (h : call.releases = some p) : τ.missesSeat call = false := by
  cases call <;> cases h <;> rfl

/-- A release confirms nothing. Source: migration `20260418000000_split_release_hold`. Kind: L -/
theorem not_confirmed_of_release {τ₀ : Store} {seats : Versioned ℕ Seat} {why : Option String}
    (h : ¬ τ.HasStatus b .confirmed)
    (hleaves : Store.Leaves τ₀ τ' seats (τ.bookings.modify (why.elim .skip (Store.failRowUpdate b)))) :
    ¬ τ'.HasStatus b .confirmed := by
  rintro ⟨row', hrow', hst⟩
  rw [hleaves.bookings, Versioned.find?_modify, Option.map_eq_some_iff] at hrow'
  obtain ⟨row, hrow, rfl⟩ := hrow'
  refine h ⟨row, hrow, ?_⟩
  cases why with
  | none => exact hst
  | some why =>
    unfold Update.apply at hst
    split at hst
    · cases hst
    · exact hst

/-- **A handler that has given up** stays so. Source: `app/api/worker/allocate/route.ts` (steps 5 to 9).
Kind: L -/
theorem Stage.giveUp {hold : ℕ} {pc : WorkerPc} {call : Call} {missed : Bool} (hl : τ.LocksOk)
    (hpc : givesUp pc = true) (hstatus : ¬ τ.HasStatus d.job.bookingId .confirmed)
    (hcan : ¬ (σ.Recoverable d.job ∧ missed = false)) (hcall : pc.call hold d.job = some call)
    (hexec : Store.Executed τ call r τ') (hreply : pc.onReply d.retried d.job τ'.now r = some pc') :
    Stage d σ pc' (missed || τ.missesSeat call) τ' := by
  have hpc' := onReply_of_givesUp hpc hreply
  rcases call_of_givesUp hpc hcall with ⟨why, hreleases⟩ | ⟨k, st, body, rfl⟩
  · obtain ⟨-, hleaves⟩ := Store.executed_release hl hreleases hexec
    rw [missesSeat_of_releases hreleases, Bool.or_false]
    exact .lost hpc' (not_confirmed_of_release hstatus hleaves) hcan
  · obtain ⟨-, hleaves⟩ := Store.executed_writeIdempotencyResponse hl hexec
    have hnone : τ.missesSeat (.writeIdempotencyResponse k st body) = false := rfl
    rw [hnone, Bool.or_false]
    exact .lost hpc' (mt (hasStatus_congr hleaves.bookings).mp hstatus) hcan

/-- **One call of the delivery.** Source: `app/api/worker/allocate/route.ts` `handler`. Kind: L -/
theorem Stage.call {hold : ℕ} {pc : WorkerPc} {call : Call} {missed : Bool} (hready : Ready σ d.job)
    (hstage : Stage d σ pc missed τ) (hl : τ.LocksOk) (hcall : pc.call hold d.job = some call)
    (hexec : Store.Executed τ call r τ') (haccepts : τ.GatewayAccepts τ')
    (hreply : pc.onReply d.retried d.job τ'.now r = some pc') :
    Stage d σ pc' (missed || τ.missesSeat call) τ' := by
  cases hstage with
  | gate => cases hcall
  | reading hkept =>
    cases hcall
    obtain ⟨rfl, hleaves⟩ := Store.executed_getBookingById hl hexec
    obtain ⟨row, hrow, hprice, hopen⟩ := hready.booking
    have hkept' := hkept.leaves hleaves rfl
    rw [hkept.bookings, hrow] at hreply
    cases hreply
    split
    · rename_i hpending
      exact .allocating hkept' ⟨row, hrow, hpending⟩ hprice
    · rename_i hclosed
      refine .lost rfl (fun hconfirmed => ?_) fun hcan => ?_
      · exact hopen (hasStatus_unique ⟨row, hrow, rfl⟩ ((hasStatus_congr hkept'.bookings).mp hconfirmed))
      · exact hclosed (hasStatus_unique ⟨row, hrow, rfl⟩ hcan.1.1)
  | allocating hkept hpending hprice =>
    cases hcall
    exact .allocate hl hkept hpending hprice hexec hreply
  | charging hholds hpayments hprice =>
    cases hcall
    exact .charge hready hl hholds hpayments hexec haccepts hreply
  | confirming hholds hpaid hcan =>
    cases hcall
    exact .confirm hl hholds hcan hexec hreply
  | confirmed hstatus hcan =>
    cases hcall
    obtain ⟨rfl, hleaves⟩ := Store.executed_writeIdempotencyResponse hl hexec
    cases hreply
    exact .ticketed ((hasStatus_congr hleaves.bookings).mpr hstatus) hcan
  | ticketed => cases hcall
  | lost hpc hstatus hcan => exact .giveUp hl hpc hstatus hcan hcall hexec hreply

/-- Time confirms nothing and releases nothing. Source: none: infrastructure. Kind: L -/
theorem Stage.tick {pc : WorkerPc} {missed : Bool} (h : Stage d σ pc missed τ) (δ : ℕ) :
    Stage d σ pc missed { τ with now := τ.now + δ } := by
  cases h with
  | gate hkept => exact .gate (hkept.tick δ)
  | reading hkept => exact .reading (hkept.tick δ)
  | allocating hkept hpending hprice => exact .allocating (hkept.tick δ) hpending hprice
  | charging hholds hpayments hprice =>
    exact .charging ⟨hholds.pending, hholds.bookings, hholds.held⟩ hpayments hprice
  | confirming hholds hpaid hcan =>
    exact .confirming ⟨hholds.pending, hholds.bookings, hholds.held⟩ hpaid hcan
  | confirmed hstatus hcan => exact .confirmed hstatus hcan
  | ticketed hstatus hcan => exact .ticketed hstatus hcan
  | lost hpc hstatus hcan => exact .lost hpc hstatus hcan

/-- **One `await` of the delivery.** Source: `app/api/worker/allocate/route.ts` `handler`. Kind: L -/
theorem Under.step {cfg : Config} {h h' : Solo} (hready : Ready σ d.job) (hu : Under d σ h)
    (hs : Step cfg h h') : Under d σ h' := by
  obtain ⟨⟨pc, htask, hstage⟩, hl⟩ := hu
  cases hs with
  | @call t t' τ τ' log missed call r hcall hexec haccepts hreply =>
    obtain rfl : t = .worker d pc := htask
    obtain ⟨pc', hpc', rfl⟩ := Option.map_eq_some_iff.mp hreply
    exact ⟨⟨pc', rfl, hstage.call hready hl hcall hexec haccepts hpc'⟩, hexec.locks hl⟩
  | @again d' price seat τ τ' log missed code hexec haccepts =>
    cases htask
    refine ⟨⟨_, rfl, ?_⟩, hexec.locks hl⟩
    cases hstage with
    | charging hholds hpayments hprice =>
      obtain ⟨p, -, -, -, hleaves⟩ := exists_failed_of_rejected hl hexec haccepts
      exact .charging (hholds.leaves hleaves) (hleaves.payments.trans hpayments) hprice
    | lost hpc => cases hpc
  | publish hjob =>
    obtain rfl := htask
    cases hjob
  | gate =>
    cases htask
    cases hstage with
    | gate hkept =>
      have hparse : WorkerPc.parse d.job = .getBooking := if_pos hready.valid
      exact ⟨⟨_, congrArg _ hparse, .reading hkept⟩, hl⟩
    | lost hpc => cases hpc
  | refund =>
    cases htask
    cases hstage with
    | lost hpc hstatus hcan => exact ⟨⟨_, rfl, .lost rfl hstatus hcan⟩, hl⟩
  | tick δ => exact ⟨⟨pc, htask, hstage.tick δ⟩, hl.tick δ⟩

/-- **The whole delivery.** Source: `app/api/worker/allocate/route.ts` `handler`. Kind: L -/
theorem under_of_steps {cfg : Config} {h : Solo} (hready : Ready σ d.job) (hkept : Kept σ τ) (hl : τ.LocksOk)
    (hsteps : Relation.ReflTransGen (Step cfg) ⟨.worker d .chaosGate, τ, [], false⟩ h) : Under d σ h := by
  induction hsteps with
  | refl => exact ⟨⟨_, rfl, .gate hkept⟩, hl⟩
  | tail _ hs ih => exact ih.step hready hs

/-- **What an answered delivery has done.** Source: `app/api/worker/allocate/route.ts` `handler`. Kind: L -/
theorem Under.confirmed_iff {h : Solo} {answer : WorkerResponse} (hu : Under d σ h)
    (htask : h.task = .worker d (.respond answer)) :
    h.store.HasStatus d.job.bookingId .confirmed ↔ σ.Recoverable d.job ∧ h.missed = false := by
  obtain ⟨⟨pc, hpc, hstage⟩, -⟩ := hu
  obtain ⟨rfl⟩ : pc = .respond answer := by
    rw [htask] at hpc
    cases hpc
    rfl
  generalize h.missed = missed at hstage
  cases hstage with
  | ticketed hstatus hcan => exact iff_of_true hstatus ⟨hcan, rfl⟩
  | lost hpc hstatus hcan => exact iff_of_false hstatus hcan

end stages

/-! ## Retries there are -/

section progress

variable {cfg : Config} {d : Delivery} {σ τ : Store} {pc : WorkerPc} {missed : Bool}
  {log : List AllocateJobPayload}

/-- How many `await`s are left at most. Source: `app/api/worker/allocate/route.ts` `handler`. Kind: D -/
def left : WorkerPc → ℕ
  | .respond _ => 0
  | .commitSoldOut | .commitFailed _ | .releaseForRetry _ | .commitExpired | .commitConfirmed .. => 1
  | .releaseSoldOut | .releaseFailed _ | .refund _ => 2
  | .confirm .. => 3
  | .charge .. => 4
  | .allocate _ => 5
  | .getBooking => 6
  | .chaosGate => 7

/-- The seat that is paid for is a live hold. Source: `app/api/worker/allocate/route.ts` (steps 4 to 7).
Kind: D -/
def Alive (τ : Store) : WorkerPc → Prop
  | .charge _ seat => (τ.seats.committed.find? seat).any (·.liveAt τ.now) = true
  | .confirm _ seat _ => (τ.seats.committed.find? seat).any (·.liveAt τ.now) = true
  | _ => True

/-- A call that misses no seat. Source: none: infrastructure. Kind: L -/
theorem step_of_executed {τ' : Store} {pc' : WorkerPc} {call : Call} {r : Reply}
    (hcall : pc.call cfg.holdDurationSec d.job = some call) (hexec : Store.Executed τ call r τ')
    (haccepts : τ.GatewayAccepts τ') (hreply : pc.onReply d.retried d.job τ'.now r = some pc')
    (hmisses : τ.missesSeat call = false) :
    Step cfg ⟨.worker d pc, τ, log, missed⟩ ⟨.worker d pc', τ', log, missed⟩ := by
  have hs : Step cfg ⟨.worker d pc, τ, log, missed⟩ ⟨.worker d pc', τ', log, missed || τ.missesSeat call⟩ :=
    .call hcall hexec haccepts (congrArg (Option.map (Task.worker d)) hreply)
  rw [hmisses, Bool.or_false] at hs
  exact hs

/-- A call that leaves the payments asks the gateway nothing. Source: none: infrastructure. Kind: L -/
theorem accepts_of_leaves {τ₀ τ' : Store} {seats : Versioned ℕ Seat} {bookings : Versioned ℕ Booking}
    (hleaves : Store.Leaves τ₀ τ' seats bookings) (hpayments : τ₀.payments = τ.payments) :
    τ.GatewayAccepts τ' := by
  intro p hp
  rw [hleaves.payments, hpayments] at hp
  exact .inl hp

/-- **A handler that gives up gets on.** Source: `app/api/worker/allocate/route.ts` (steps 5 to 9). Kind: L -/
theorem exists_step_of_givesUp (hidle : τ.Idle) (hpc : givesUp pc = true) (hleft : left pc ≠ 0) :
    ∃ pc' τ', Step cfg ⟨.worker d pc, τ, log, missed⟩ ⟨.worker d pc', τ', log, missed⟩ ∧
      left pc' < left pc ∧ τ'.Idle ∧ Alive τ' pc' := by
  have hl := hidle.locks
  have hrelease : ∀ (call : Call) (why : Option String) (pc' : WorkerPc),
      call.releases = some (d.job.bookingId, why) → pc.call cfg.holdDurationSec d.job = some call →
      (∀ n t, pc.onReply d.retried d.job t (.released n) = some pc') →
      ∃ τ', Step cfg ⟨.worker d pc, τ, log, missed⟩ ⟨.worker d pc', τ', log, missed⟩ ∧ τ'.Idle := by
    intro call why pc' hreleases hcall hreply
    obtain ⟨r, τ', hexec⟩ := hidle.executes_release call hreleases
    obtain ⟨rfl, hleaves⟩ := Store.executed_release hl hreleases hexec
    exact ⟨τ', step_of_executed hcall hexec (accepts_of_leaves hleaves rfl) (hreply _ _)
      (missesSeat_of_releases hreleases), hleaves.idle hidle.seat_lock hidle.booking_lock⟩
  have hwrite : ∀ (body : CachedBody) (pc' : WorkerPc),
      pc.call cfg.holdDurationSec d.job = some (.writeIdempotencyResponse d.job.idempotencyKey 200 body) →
      (∀ t, pc.onReply d.retried d.job t .unit = some pc') →
      ∃ τ', Step cfg ⟨.worker d pc, τ, log, missed⟩ ⟨.worker d pc', τ', log, missed⟩ ∧ τ'.Idle := by
    intro body pc' hcall hreply
    obtain ⟨r, τ', hexec⟩ := Store.executes_writeIdempotencyResponse τ d.job.idempotencyKey 200 body
    obtain ⟨rfl, hleaves⟩ := Store.executed_writeIdempotencyResponse hl hexec
    exact ⟨τ', step_of_executed hcall hexec (accepts_of_leaves hleaves rfl) (hreply _) rfl,
      hleaves.idle hidle.seat_lock hidle.booking_lock⟩
  cases pc with
  | releaseSoldOut =>
    obtain ⟨τ', hs, hidle'⟩ := hrelease _ _ .commitSoldOut rfl rfl fun _ _ => rfl
    exact ⟨_, τ', hs, Nat.lt_succ_self 1, hidle', trivial⟩
  | releaseFailed f =>
    obtain ⟨τ', hs, hidle'⟩ := hrelease _ _ (.commitFailed f) rfl rfl fun _ _ => rfl
    exact ⟨_, τ', hs, Nat.lt_succ_self 1, hidle', trivial⟩
  | releaseForRetry answer =>
    obtain ⟨τ', hs, hidle'⟩ := hrelease _ _ (.respond answer) rfl rfl fun _ _ => rfl
    exact ⟨_, τ', hs, Nat.lt_succ_self 0, hidle', trivial⟩
  | commitSoldOut =>
    obtain ⟨τ', hs, hidle'⟩ := hwrite _ (.respond _) rfl fun _ => rfl
    exact ⟨_, τ', hs, Nat.lt_succ_self 0, hidle', trivial⟩
  | commitFailed f =>
    obtain ⟨τ', hs, hidle'⟩ := hwrite _ (.respond _) rfl fun _ => rfl
    exact ⟨_, τ', hs, Nat.lt_succ_self 0, hidle', trivial⟩
  | commitExpired =>
    obtain ⟨τ', hs, hidle'⟩ := hwrite _ (.respond _) rfl fun _ => rfl
    exact ⟨_, τ', hs, Nat.lt_succ_self 0, hidle', trivial⟩
  | refund p => exact ⟨_, τ, .refund, Nat.lt_succ_self 1, hidle, trivial⟩
  | respond => exact absurd rfl hleft
  | _ => cases hpc

/-- What a rejected charge leads to is nearer to the answer, and pays for no seat. Source:
`app/api/worker/allocate/route.ts` (step 6). Kind: L -/
theorem onPaymentError_cases (retried : ℕ) (code : PaymentErrorCode) :
    left (WorkerPc.onPaymentError retried code) < 4 ∧ Alive τ (WorkerPc.onPaymentError retried code) := by
  unfold WorkerPc.onPaymentError
  split
  · exact ⟨Nat.lt_of_succ_lt (Nat.lt_succ_self 3), trivial⟩
  · have hone : 1 < 4 := by decide
    exact ⟨hone, trivial⟩

/-- **A delivery that has not answered gets on** without missing a seat, where no row is locked. Source:
`app/api/worker/allocate/route.ts` `handler`. Kind: L -/
theorem Stage.advance (hready : Ready σ d.job) (hhold : 0 < cfg.holdDurationSec)
    (hstage : Stage d σ pc missed τ) (hidle : τ.Idle) (halive : Alive τ pc) (hleft : left pc ≠ 0) :
    ∃ pc' τ', Step cfg ⟨.worker d pc, τ, log, missed⟩ ⟨.worker d pc', τ', log, missed⟩ ∧
      left pc' < left pc ∧ τ'.Idle ∧ Alive τ' pc' := by
  have hl := hidle.locks
  cases hstage with
  | gate =>
    have hparse : WorkerPc.parse d.job = .getBooking := if_pos hready.valid
    refine ⟨_, τ, .gate, ?_⟩
    rw [hparse]
    exact ⟨Nat.lt_succ_self 6, hidle, trivial⟩
  | reading hkept =>
    obtain ⟨row, hrow, -⟩ := hready.booking
    obtain ⟨r, τ', hexec⟩ := Store.executes_getBookingById τ d.job.bookingId
    obtain ⟨rfl, hleaves⟩ := Store.executed_getBookingById hl hexec
    have hrow' : τ.bookings.committed.find? d.job.bookingId = some row := by
      rw [hkept.bookings]
      exact hrow
    rw [hrow'] at hexec
    have hidle' := hleaves.idle hidle.seat_lock hidle.booking_lock
    refine ⟨_, τ', step_of_executed rfl hexec (accepts_of_leaves hleaves rfl) rfl rfl, ?_⟩
    split
    · exact ⟨Nat.lt_succ_self 5, hidle', trivial⟩
    · exact ⟨Nat.succ_pos 5, hidle', trivial⟩
  | @allocating price _ hkept hpending hprice =>
    obtain ⟨row, hrow, -⟩ := (hasStatus_congr hkept.bookings).mpr hpending
    obtain ⟨r, τ', hexec⟩ :=
      hidle.executes_allocateSeat hrow d.job.trainId d.job.passengerName cfg.holdDurationSec
    rcases Store.executed_allocateSeat hl hexec with ⟨s, hs, hb, hlive, rfl, hleaves⟩ |
      ⟨-, ⟨hpick, -, -⟩ | ⟨s, hpick, rfl, hleaves⟩⟩
    · refine ⟨_, τ', step_of_executed rfl hexec (accepts_of_leaves hleaves rfl) rfl
        (Store.missesSeat_of_live hs hb hlive), Nat.lt_succ_self 4,
        hleaves.idle hidle.seat_lock hidle.booking_lock, ?_⟩
      have hfind : τ.seats.committed.find? s.id = some s := Table.find?_of_mem hs
      show (τ'.seats.committed.find? s.id).any (·.liveAt τ'.now) = true
      rw [hleaves.seats, hleaves.now, hfind]
      exact hlive
    · obtain ⟨s, hs, htrain, hfree⟩ := hready.seat
      rw [← hkept.seats] at hs
      exact absurd hpick (hidle.pickAvailable_ne_none hs htrain hfree)
    · refine ⟨_, τ', step_of_executed rfl hexec (accepts_of_leaves hleaves rfl) rfl
        (Store.missesSeat_of_pick hl hpick), Nat.lt_succ_self 4,
        hleaves.idle hidle.seat_lock hidle.booking_lock, ?_⟩
      let u := Store.reserve s.id d.job.bookingId d.job.passengerName (τ.now + cfg.holdDurationSec)
      have hfind : τ.seats.committed.find? s.id = some s :=
        Table.find?_of_mem (Store.pickAvailable_eq_some hpick).1
      have hcond : u.cond s = true := beq_self_eq_true s.id
      have hlive : (u.set s).liveAt τ.now = true :=
        Seat.liveAt_iff.mpr ⟨rfl, _, rfl, Nat.lt_add_of_pos_right hhold⟩
      show (τ'.seats.committed.find? s.id).any (·.liveAt τ'.now) = true
      rw [hleaves.seats, hleaves.now, Versioned.find?_modify_of hfind hcond]
      exact hlive
  | @charging price seat _ hholds hpayments hprice =>
    obtain ⟨r, τ', hexec, haccepts⟩ := Store.executes_charge (k := d.job.idempotencyKey) hl hprice
      fun p hp => hready.drawn p (hpayments ▸ hp)
    have hlive : τ'.seats = τ.seats → τ'.now = τ.now →
        (τ'.seats.committed.find? seat).any (·.liveAt τ'.now) = true := by
      intro hseats hnow
      rw [hseats, hnow]
      exact halive
    have hidle' : τ'.Idle := by
      rcases Store.executed_charge hl hexec with ⟨_, -, -, hleaves, -⟩ | ⟨-, _, _, -, hleaves, -⟩
      · exact hleaves.idle hidle.seat_lock hidle.booking_lock
      · exact hleaves.idle hidle.seat_lock hidle.booking_lock
    have hpaid : ∀ payment replayed, r = .paid payment replayed → τ'.seats = τ.seats → τ'.now = τ.now →
        ∃ pc' τ', Step cfg ⟨.worker d (.charge price seat), τ, log, false⟩ ⟨.worker d pc', τ', log, false⟩ ∧
          left pc' < 4 ∧ τ'.Idle ∧ Alive τ' pc' := by
      rintro payment replayed rfl hseats hnow
      exact ⟨_, τ', step_of_executed rfl hexec haccepts rfl rfl, Nat.lt_succ_self 3, hidle',
        hlive hseats hnow⟩
    have hrejected : ∀ code, r = .paymentError code →
        ∃ pc' τ', Step cfg ⟨.worker d (.charge price seat), τ, log, false⟩ ⟨.worker d pc', τ', log, false⟩ ∧
          left pc' < 4 ∧ τ'.Idle ∧ Alive τ' pc' := by
      rintro code rfl
      obtain ⟨hlt, halive'⟩ := onPaymentError_cases (τ := τ') d.retried code
      exact ⟨_, τ', step_of_executed rfl hexec haccepts rfl rfl, hlt, hidle', halive'⟩
    rcases Store.executed_charge hl hexec with ⟨_, -, -, hleaves, ⟨-, hr⟩ | ⟨-, code, hr⟩⟩ |
      ⟨-, _, _, -, hleaves, ⟨-, hr⟩ | ⟨-, code, hr⟩⟩
    · exact hpaid _ _ hr hleaves.seats hleaves.now
    · exact hrejected code hr
    · exact hpaid _ _ hr hleaves.seats hleaves.now
    · exact hrejected code hr
  | @confirming price seat payment _ hholds hpaid hcan =>
    obtain ⟨w, hw, hb⟩ := hholds.held
    obtain ⟨row, hrow, hpending⟩ := (hasStatus_congr hholds.bookings).mpr hholds.pending
    have hlive : w.liveAt τ.now = true := by
      have hany : (τ.seats.committed.find? seat).any (·.liveAt τ.now) = true := halive
      rw [hw] at hany
      exact hany
    have hyes : τ.confirmable d.job.bookingId seat payment = true :=
      Store.confirmable_iff.mpr ⟨⟨row, hrow, hpending⟩,
        ⟨w, hw, Store.confirmSeatUpdate_cond_iff.mpr ⟨Table.key_of_find? hw, hb, hlive⟩⟩, hpaid,
        hidle.seat_lock _, hidle.booking_lock _⟩
    obtain ⟨τ', hexec⟩ := Store.executed_of_confirmable hyes
    have hmisses : τ.missesSeat (.confirmBooking d.job.bookingId seat payment) = false := by
      simp only [Store.missesSeat, hw, Option.any_some, hlive, Bool.not_true]
    rcases Store.executed_confirmBooking hl hexec with ⟨-, hr, -⟩ | ⟨-, -, hleaves⟩
    · cases hr
    · exact ⟨_, τ', step_of_executed rfl hexec (accepts_of_leaves hleaves rfl) rfl hmisses,
        Nat.lt_of_succ_lt (Nat.lt_succ_self 2), hleaves.idle hidle.seat_lock hidle.booking_lock, trivial⟩
  | confirmed =>
    obtain ⟨r, τ', hexec⟩ := Store.executes_writeIdempotencyResponse τ d.job.idempotencyKey 200 _
    obtain ⟨rfl, hleaves⟩ := Store.executed_writeIdempotencyResponse hl hexec
    exact ⟨_, τ', step_of_executed rfl hexec (accepts_of_leaves hleaves rfl) rfl rfl, Nat.lt_succ_self 0,
      hleaves.idle hidle.seat_lock hidle.booking_lock, trivial⟩
  | ticketed => exact absurd rfl hleft
  | lost hpc => exact exists_step_of_givesUp hidle hpc hleft

/-- A delivery under way comes to its answer. Source: `app/api/worker/allocate/route.ts` `handler`. Kind: L -/
theorem Under.answers (hready : Ready σ d.job) (hhold : 0 < cfg.holdDurationSec)
    (hu : Under d σ ⟨.worker d pc, τ, log, missed⟩) (hidle : τ.Idle) (halive : Alive τ pc) :
    ∃ answer τ', Relation.ReflTransGen (Step cfg) ⟨.worker d pc, τ, log, missed⟩
      ⟨.worker d (.respond answer), τ', log, missed⟩ := by
  let solo : WorkerPc × Store → Solo := fun p => ⟨.worker d p.1, p.2, log, missed⟩
  let Lively : WorkerPc × Store → Prop := fun p => Under d σ (solo p) ∧ p.2.Idle ∧ Alive p.2 p.1
  have hadvance : ∀ p, Lively p → ¬ left p.1 = 0 →
      ∃ q, Step cfg (solo p) (solo q) ∧ Lively q ∧ left q.1 < left p.1 := by
    rintro ⟨pc, τ⟩ ⟨hu, hidle, halive⟩ hleft
    obtain ⟨_, ⟨rfl⟩, hstage⟩ := hu.pc
    obtain ⟨pc', τ', hs, hlt, hidle', halive'⟩ : ∃ pc' τ', Step cfg (solo (pc, τ)) (solo (pc', τ')) ∧
        left pc' < left pc ∧ τ'.Idle ∧ Alive τ' pc' :=
      Stage.advance hready hhold hstage hidle halive hleft
    exact ⟨(pc', τ'), hs, ⟨hu.step hready hs, hidle', halive'⟩, hlt⟩
  have hstart : Lively (pc, τ) := ⟨hu, hidle, halive⟩
  obtain ⟨⟨pc', τ'⟩, hsteps, -, hzero⟩ := exists_end (fun p => left p.1) hadvance hstart
  have hlifted : Relation.ReflTransGen (Step cfg) (solo (pc, τ)) (solo (pc', τ')) :=
    hsteps.lift solo fun _ _ hs => hs
  cases pc' with
  | respond answer => exact ⟨answer, τ', hlifted⟩
  | _ => cases hzero

/-- **A dead letter can be retried**, where no row is locked. Source:
`app/api/admin/dlq/[id]/retry/route.ts` `POST`. Kind: L -/
theorem exists_retries {id : ℕ} {row : DlqJob} (hidle : σ.Idle) (hrow : σ.dlqJobs.find? id = some row)
    (hready : Ready σ row.payload) (hhold : 0 < cfg.holdDurationSec) :
    ∃ h, Retries cfg id σ h ∧ h.missed = false := by
  have hvalid := hready.valid
  -- the retry
  obtain ⟨_, σ₁, hlookup⟩ := Store.executes_getDlqJobById σ id
  obtain ⟨rfl, hleaves₁⟩ := Store.executed_getDlqJobById hidle.locks hlookup
  have hidle₁ := hleaves₁.idle hidle.seat_lock hidle.booking_lock
  rw [hrow] at hlookup
  obtain ⟨_, σ₂, hmark⟩ := Store.executes_markDlqRetried σ₁ id
  obtain ⟨rfl, hleaves₂⟩ := Store.executed_markDlqRetried hidle₁.locks hmark
  have hidle₂ := hleaves₂.idle hidle₁.seat_lock hidle₁.booking_lock
  have hfound : (Task.dlqRetry id .lookup).onReply cfg σ₁.now (.dlqJob (some row)) =
      some (.dlqRetry id (.publish row.payload)) := by
    simp only [Task.onReply, DlqRetryPc.onReply, hvalid, if_true, Option.map_some]
  have hposts : Relation.ReflTransGen (Step cfg) ⟨.dlqRetry id .lookup, σ, [], false⟩
      ⟨.dlqRetry id (.respond 200), σ₂, [row.payload], false⟩ :=
    ((Relation.ReflTransGen.single (.call rfl hlookup (accepts_of_leaves hleaves₁ rfl) hfound)).tail
      (.publish rfl)).tail (.call rfl hmark (accepts_of_leaves hleaves₂ rfl) rfl)
  have hposted := posted_of_steps hidle.locks hrow hvalid hposts
  -- the delivery
  let d : Delivery := ⟨0, 0, row.payload⟩
  have hstart : Under d σ ⟨.worker d .chaosGate, σ₂, [], false⟩ :=
    under_of_steps hready hposted.kept hposted.locks (Relation.ReflTransGen.refl (r := Step cfg))
  obtain ⟨answer, τ, hdelivers⟩ := Under.answers hready hhold hstart hidle₂ trivial
  exact ⟨_, ⟨_, row.payload, 0, 0, answer, hposts, rfl, rfl, hdelivers, rfl⟩, rfl⟩

end progress

/-! ## Dead letters -/

section system

variable {cfg : Config} {s : Sys} {id : ℕ} {row : DlqJob}

/-- A dead letter with an open booking is ready, if a seat is free. Source:
`app/api/webhooks/qstash-failure/route.ts` `handler`, `app/api/book/route.ts` (step 9). Kind: L -/
theorem ready_of_reach (hreach : Sys.Reachable cfg s) (hrow : s.store.dlqJobs.find? id = some row)
    (hvalid : row.payload.valid = true) (hopen : ¬ s.store.HasStatus row.payload.bookingId .confirmed)
    (hseat : ∃ seat ∈ s.store.seats.committed, seat.trainId = row.payload.trainId ∧
      seat.status = .available) : Ready s.store row.payload := by
  have hinv := Sys.inv_of_reach hreach
  obtain ⟨msg, hmsg, hpayload⟩ := hinv.dlqJobs row (Table.mem_of_find? hrow)
  obtain ⟨booking, hbooking, -⟩ := (hinv.messages _ msg hmsg).booked
  rw [hpayload] at hbooking
  refine ⟨hvalid, ⟨booking, hbooking, (Sys.pricesOk_of_reach hreach).bookings _ _ hbooking,
    fun hst => hopen ⟨booking, hbooking, hst⟩⟩, hseat, hinv.store.unique.payments, Sys.payment_drawn hreach⟩

/-- What a retry and a delivery of the dead letter come to. Source:
`app/api/admin/dlq/[id]/retry/route.ts` `POST`, `app/api/worker/allocate/route.ts` `handler`. Kind: L -/
theorem Retries.confirmed_iff {σ : Store} {h : Solo} (hl : σ.LocksOk)
    (hrow : σ.dlqJobs.find? id = some row) (hready : Ready σ row.payload) (hretries : Retries cfg id σ h) :
    h.store.HasStatus row.payload.bookingId .confirmed ↔ σ.Recoverable row.payload ∧ h.missed = false := by
  obtain ⟨retry, job, m, n, answer, hposts, htask, hpublished, hdelivers, hanswer⟩ := hretries
  obtain ⟨⟨pc, hpc, hposting⟩, hkept, hl'⟩ := posted_of_steps hl hrow hready.valid hposts
  obtain rfl : pc = .respond 200 := by
    rw [htask] at hpc
    cases hpc
    rfl
  rw [hpublished] at hposting
  cases hposting
  exact (under_of_steps (d := ⟨m, n, row.payload⟩) hready hkept hl' hdelivers).confirmed_iff hanswer

end system

/-- All four deliveries of the first booking crash at once, and the failure callback records the dead letter.
Source: none: infrastructure. Kind: D -/
def deadLetter : List Sys.Action :=
  Sys.accepting ++ [.deliver 0 0, .crash 1, .deliver 0 1, .crash 2, .deliver 0 2, .crash 3, .deliver 0 3,
    .crash 4, .failureCallback 0] ++ Sys.callReturns 5 3 1

/-- The failure callback comes to its end: it fails the booking and writes the response. Source:
`app/api/webhooks/qstash-failure/route.ts` `handler`. Kind: D -/
def buried : List Sys.Action := deadLetter ++ Sys.callReturns 5 4 3 ++ Sys.callReturns 5 5 1 ++ [.answer 5]

/-- No execution runs, dead letter 1 is about a booking with that status, and a seat is free. Source: none:
infrastructure. Kind: D -/
def letter (status : BookingStatus) (s : Sys) : Bool :=
  s.store.execs.all (Sys.ended ·.pc) && (s.store.dlqJobs.find? 1).any fun row =>
    row.payload.valid && ((s.store.bookings.committed.find? row.payload.bookingId).any (·.status == status) &&
      (s.store.payments.rows.all (·.idempotencyKey != row.payload.idempotencyKey) &&
        s.store.seats.committed.rows.any fun seat =>
          seat.trainId == row.payload.trainId && seat.status == .available))

/-- What the check says. Source: none: infrastructure. Kind: L -/
theorem of_letter {cfg : Config} {s : Sys} {status : BookingStatus} (hreach : Sys.Reachable cfg s)
    (h : letter status s = true) : ∃ row, s.store.Idle ∧ s.store.dlqJobs.find? 1 = some row ∧
      row.payload.valid = true ∧ s.store.HasStatus row.payload.bookingId status ∧
      (∀ p ∈ s.store.payments, p.idempotencyKey ≠ row.payload.idempotencyKey) ∧
      ∃ seat ∈ s.store.seats.committed, seat.trainId = row.payload.trainId ∧ seat.status = .available := by
  obtain ⟨hended, hrow⟩ := (Bool.and_eq_true _ _).mp h
  obtain ⟨row, hrow, hrest⟩ := (Option.any_eq_true _ _).mp hrow
  obtain ⟨hvalid, hrest⟩ := (Bool.and_eq_true _ _).mp hrest
  obtain ⟨hbooking, hrest⟩ := (Bool.and_eq_true _ _).mp hrest
  obtain ⟨hpayments, hseat⟩ := (Bool.and_eq_true _ _).mp hrest
  obtain ⟨booking, hbooking, hst⟩ := (Option.any_eq_true _ _).mp hbooking
  obtain ⟨seat, hmem, hseat⟩ := List.any_eq_true.mp hseat
  simp only [Bool.and_eq_true, beq_iff_eq] at hseat hst
  refine ⟨row, Handling.idle_of_ended hreach hended, hrow, hvalid, ⟨booking, hbooking, hst⟩, ?_, seat, hmem,
    hseat⟩
  intro p hp
  simpa using List.all_eq_true.mp hpayments p hp

/-- **A retry that changes nothing.** In some reachable pipeline there are a dead letter with a valid payload,
whose booking is not `CONFIRMED`, and a free seat of its train, and a retry of it that misses no seat does not
confirm the booking: the failure callback has made it `FAILED`. Source:
`app/api/webhooks/qstash-failure/route.ts` `handler`, `app/api/worker/allocate/route.ts` (step 3),
`docs/FAILURE_MATRIX.md` (2.4). Kind: P -/
theorem retry_changes_nothing : ¬ ∀ (cfg : Config) (s : Sys) (id : ℕ) (row : DlqJob),
    0 < cfg.holdDurationSec → Sys.Reachable cfg s → s.store.dlqJobs.find? id = some row →
    row.payload.valid = true → ¬ s.store.HasStatus row.payload.bookingId .confirmed →
    (∃ seat ∈ s.store.seats.committed, seat.trainId = row.payload.trainId ∧ seat.status = .available) →
    ∀ h, Retries cfg id s.store h → h.missed = false →
      h.store.HasStatus row.payload.bookingId .confirmed := by
  intro hall
  have hrun : (Found.run (Sys.step Sys.config) Sys.opening buried).map (letter .failed) = some true := by
    decide +kernel
  obtain ⟨s, hreach, hcheck⟩ := reach_of_run Sys.initial_opening hrun
  obtain ⟨row, hidle, hrow, hvalid, hfailed, -, hseat⟩ := of_letter hreach hcheck
  have hopen : ¬ s.store.HasStatus row.payload.bookingId .confirmed :=
    fun hconfirmed => BookingStatus.noConfusion (hasStatus_unique hfailed hconfirmed)
  have hready := ready_of_reach hreach hrow hvalid hopen hseat
  have hhold : 0 < Sys.config.holdDurationSec := by decide
  obtain ⟨h, hretries, hmissed⟩ := exists_retries hidle hrow hready hhold
  have hconfirmed := hall Sys.config s 1 row hhold hreach hrow hvalid hopen hseat h hretries hmissed
  obtain ⟨hpending, -⟩ := ((hretries.confirmed_iff hidle.locks hrow hready).mp hconfirmed).1
  exact BookingStatus.noConfusion (hasStatus_unique hfailed hpending)

section system

variable {cfg : Config} {s : Sys} {id : ℕ} {row : DlqJob}

/-- **What a manual retry comes to.** Let there be a dead letter with a valid payload, whose booking is
not `CONFIRMED`, and a free seat of its train. A retry and a delivery of what it publishes, in which
nothing throws but a charge that finds a failed payment, and the gateway accepts the charge, end with the
booking `CONFIRMED` exactly if it was `PENDING`, no payment for its key had failed, and no call of the
delivery missed the seat. Where no row is locked there are such a retry and delivery, missing no seat.
Source: `app/api/admin/dlq/[id]/retry/route.ts` `POST`, `app/api/worker/allocate/route.ts` (step 3),
`lib/payment/mock-service.ts` `charge`. Kind: P -/
theorem retry_confirms_iff (hreach : Sys.Reachable cfg s) (hrow : s.store.dlqJobs.find? id = some row)
    (hvalid : row.payload.valid = true) (hopen : ¬ s.store.HasStatus row.payload.bookingId .confirmed)
    (hseat : ∃ seat ∈ s.store.seats.committed, seat.trainId = row.payload.trainId ∧
      seat.status = .available) :
    (∀ h, Retries cfg id s.store h → (h.store.HasStatus row.payload.bookingId .confirmed ↔
      s.store.Recoverable row.payload ∧ h.missed = false)) ∧
    (s.store.Idle → 0 < cfg.holdDurationSec → ∃ h, Retries cfg id s.store h ∧ h.missed = false) := by
  have hready := ready_of_reach hreach hrow hvalid hopen hseat
  have hl := (Sys.inv_of_reach hreach).store.locks
  exact ⟨fun h hretries => hretries.confirmed_iff hl hrow hready,
    fun hidle hhold => exists_retries hidle hrow hready hhold⟩

/-- The failure callback crashes before it fails the booking, and the retry confirms it. Source:
`app/api/webhooks/qstash-failure/route.ts` `handler`. Kind: L -/
theorem retry_confirms_iff_crashed : ∃ (s : Sys) (row : DlqJob) (h : Solo),
    Sys.Reachable Sys.config s ∧ s.store.dlqJobs.find? 1 = some row ∧ Retries Sys.config 1 s.store h ∧
      h.store.HasStatus row.payload.bookingId .confirmed := by
  have hrun : (Found.run (Sys.step Sys.config) Sys.opening (deadLetter ++ [.crash 5])).map (letter .pending) =
      some true := by decide +kernel
  obtain ⟨s, hreach, hcheck⟩ := reach_of_run Sys.initial_opening hrun
  obtain ⟨row, hidle, hrow, hvalid, hpending, hfresh, hseat⟩ := of_letter hreach hcheck
  have hopen : ¬ s.store.HasStatus row.payload.bookingId .confirmed :=
    fun hconfirmed => BookingStatus.noConfusion (hasStatus_unique hpending hconfirmed)
  obtain ⟨hiff, hexists⟩ := retry_confirms_iff hreach hrow hvalid hopen hseat
  obtain ⟨h, hretries, hmissed⟩ := hexists hidle (by decide)
  exact ⟨s, row, h, hreach, hrow, hretries,
    (hiff h hretries).mpr ⟨⟨hpending, fun p hp hk => absurd hk (hfresh p hp)⟩, hmissed⟩⟩

end system

end Solo

end TrainsAndTracks
