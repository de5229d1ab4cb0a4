import TrainsAndTracks.Found.RowLock

/-!
# The five tables

The rows of `seats`, `bookings`, `payments`, `idempotency_keys` and `dlq_jobs`, with the columns
that some function of the pipeline reads. UUIDs (`gen_random_uuid()`) are natural numbers: nothing
reads their text. `TEXT` columns that carry an identifier are strings, ordered as `ORDER BY s.id`
orders them. Timestamps are a natural-number clock.

Columns no function reads are left out: `seats.coach`, `seat_number`, `price_paise`, `updated_at`
everywhere, `recovery_point`, `locked_at`, `expires_at` and the `created_at` of `payments` and
`dlq_jobs`.
-/

namespace TrainsAndTracks

open Found

/-- A `TIMESTAMPTZ`. Source: none: infrastructure. Kind: D -/
abbrev Time := ℕ

/-- `bookings.id`. Source: migration `060_bookings`. Kind: D -/
abbrev BookingId := ℕ

/-- `payments.id`. Source: migration `050_payments`. Kind: D -/
abbrev PaymentId := ℕ

/-- The broker's message id (`dlq_jobs.qstash_message_id`). Source: migration `070_dlq_jobs`.
Kind: D -/
abbrev MessageId := ℕ

/-- `trains.id`. Source: migration `020_trains`. Kind: D -/
abbrev TrainId := String

/-- `seats.id`. Source: migration `030_seats`. Kind: D -/
abbrev SeatId := String

/-- `idempotency_key`, the client's header. Source: migration `040_idempotency_keys`. Kind: D -/
abbrev IdempotencyKey := String

/-- `seat_status`. Source: migration `010_enums`. Kind: D. Fidelity: exact -/
inductive SeatStatus
  | available
  | reserved
  | confirmed
  deriving DecidableEq, Repr

/-- `booking_status`. Source: migration `010_enums`. Kind: D. Fidelity: exact -/
inductive BookingStatus
  | pending
  | confirmed
  | failed
  | expired
  deriving DecidableEq, Repr

/-- `payment_status`. Source: migration `010_enums`. Kind: D. Fidelity: exact -/
inductive PaymentStatus
  | succeeded
  | failed
  | pending
  deriving DecidableEq, Repr

/-- `PaymentError.code`, as it is stored in `payments.error_code`.
Source: `lib/payment/mock-service.ts` `PaymentError`. Kind: D. Fidelity: exact -/
inductive PaymentErrorCode
  | gatewayTimeout
  | paymentDeclined
  | gatewayUnreachable
  deriving DecidableEq, Repr

/-- A row of `seats`. Source: migration `030_seats`. Kind: D. Fidelity: columns read by the
pipeline -/
structure Seat where
  id : SeatId
  trainId : TrainId
  status : SeatStatus
  bookingId : Option BookingId
  heldBy : Option String
  heldUntil : Option Time
  version : ℕ
  deriving DecidableEq, Repr

/-- A row of `bookings`. Source: migration `060_bookings`. Kind: D. Fidelity: columns read by the
pipeline -/
structure Booking where
  id : BookingId
  idempotencyKey : IdempotencyKey
  trainId : TrainId
  seatId : Option SeatId
  passengerName : String
  passengerPhone : Option String
  pricePaise : ℕ
  status : BookingStatus
  failureReason : Option String
  paymentId : Option PaymentId
  createdAt : Time
  confirmedAt : Option Time
  deriving DecidableEq, Repr

/-- A row of `payments`. Source: migration `050_payments`. Kind: D. Fidelity: columns read by the
pipeline -/
structure Payment where
  id : PaymentId
  idempotencyKey : IdempotencyKey
  amountPaise : ℕ
  status : PaymentStatus
  errorCode : Option PaymentErrorCode
  deriving DecidableEq, Repr

/-- What is ever stored in `response_body`, one constructor for each object literal the code
writes there. Source: `app/api/book/route.ts` (`responseBody`, `errBody`),
`app/api/worker/allocate/route.ts` (`body`), `app/api/webhooks/qstash-failure/route.ts` (`body`).
Kind: D. Fidelity: exact -/
inductive CachedBody
  /-- `{ jobId, pollUrl: "/api/book/" + jobId, status: "PENDING", trainId, estimatedWaitMs }` -/
  | pending (jobId : BookingId) (trainId : TrainId) (estimatedWaitMs : ℕ)
  /-- `{ error: { code, message, request_id, bookingId } }` -/
  | error (code message requestId : String) (bookingId : BookingId)
  /-- `{ jobId, status: "FAILED", failureReason, trainId }` -/
  | failed (jobId : BookingId) (failureReason : String) (trainId : Option TrainId)
  /-- `{ jobId, status: "EXPIRED", failureReason, trainId }` -/
  | expired (jobId : BookingId) (failureReason : String) (trainId : TrainId)
  /-- `{ jobId, status: "CONFIRMED", seatId, passengerName, pricePaise, confirmedAt }` -/
  | confirmed (jobId : BookingId) (seatId : SeatId) (passengerName : String) (pricePaise : ℕ)
      (confirmedAt : Time)
  deriving DecidableEq, Repr

/-- A row of `idempotency_keys`. Source: migration `040_idempotency_keys`. Kind: D. Fidelity:
columns read by the pipeline -/
structure IdempotencyRow where
  idempotencyKey : IdempotencyKey
  userId : String
  requestHash : String
  responseStatus : Option ℕ
  responseBody : Option CachedBody
  createdAt : Time
  deriving DecidableEq, Repr

/-- The message body the ingress publishes and the worker consumes (`AllocateJobPayload`).
Source: `infra/qstash/publisher.ts`. Kind: D. Fidelity: exact -/
structure AllocateJobPayload where
  bookingId : BookingId
  idempotencyKey : IdempotencyKey
  trainId : TrainId
  passengerName : String
  deriving DecidableEq, Repr

/-- A row of `dlq_jobs`. Source: migration `070_dlq_jobs`. Kind: D. Fidelity: columns read by the
pipeline; `payload` is a message body, the only thing a failure callback carries -/
structure DlqJob where
  id : ℕ
  qstashMessageId : MessageId
  payload : AllocateJobPayload
  errorReason : String
  attemptCount : ℕ
  retriedAt : Option Time
  resolvedAt : Option Time
  deriving DecidableEq, Repr

instance : Keyed Seat SeatId := ⟨Seat.id⟩
instance : Keyed Booking BookingId := ⟨Booking.id⟩
instance : Keyed Payment PaymentId := ⟨Payment.id⟩
instance : Keyed IdempotencyRow IdempotencyKey := ⟨IdempotencyRow.idempotencyKey⟩
instance : Keyed DlqJob ℕ := ⟨DlqJob.id⟩

@[simp] theorem key_seat (s : Seat) : key s = s.id := rfl
@[simp] theorem key_booking (b : Booking) : key b = b.id := rfl
@[simp] theorem key_payment (p : Payment) : key p = p.id := rfl
@[simp] theorem key_idempotencyRow (r : IdempotencyRow) : key r = r.idempotencyKey := rfl
@[simp] theorem key_dlqJob (j : DlqJob) : key j = j.id := rfl

/-! ## Predicates of the `WHERE` clauses -/

/-- `status = 'RESERVED' AND held_until > now`: a hold that has not run out.
Source: migration `100_fn_allocate_seat` (re-delivery guard), `110_fn_confirm_booking`. Kind: D.
Fidelity: exact -/
def Seat.liveAt (s : Seat) (now : Time) : Bool :=
  s.status == .reserved && s.heldUntil.any fun t => decide (now < t)

/-- `status = 'RESERVED' AND held_until < now`: a hold the sweeper reclaims.
Source: migration `130_fn_sweep_expired_holds` (`targets`). Kind: D. Fidelity: exact -/
def Seat.expiredAt (s : Seat) (now : Time) : Bool :=
  s.status == .reserved && s.heldUntil.any fun t => decide (t < now)

/-- `booking_id = b AND status = 'RESERVED'`. Source: migration `20260418000000_split_release_hold`.
Kind: D. Fidelity: exact -/
def Seat.heldFor (s : Seat) (b : BookingId) : Bool :=
  s.status == .reserved && s.bookingId == some b

theorem Seat.liveAt_iff {s : Seat} {now : Time} :
    s.liveAt now = true ↔ s.status = .reserved ∧ ∃ t, s.heldUntil = some t ∧ now < t := by
  simp [Seat.liveAt, Option.any_eq_true]

theorem Seat.expiredAt_iff {s : Seat} {now : Time} :
    s.expiredAt now = true ↔ s.status = .reserved ∧ ∃ t, s.heldUntil = some t ∧ t < now := by
  simp [Seat.expiredAt, Option.any_eq_true]

theorem Seat.heldFor_iff {s : Seat} {b : BookingId} :
    s.heldFor b = true ↔ s.status = .reserved ∧ s.bookingId = some b := by
  simp [Seat.heldFor]

end TrainsAndTracks
