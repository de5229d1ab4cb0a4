import TrainsAndTracks.Store.Functions

/-!
# The allocation worker

`POST /api/worker/allocate` as a state machine: one control point (`WorkerPc`) for every `await`
of the handler, carrying what the handler holds in its variables there. `WorkerPc.call` is the
call awaited at the point, `WorkerPc.onReply` the code between this `await` and the next one, and
`WorkerPc.onThrow` what happens when the awaited call throws: the `catch` around it, or a 500 from
the framework where there is none.
-/

namespace TrainsAndTracks

/-- One delivery of a message: the `Upstash-Retried` header and the body.
Source: `app/api/worker/allocate/route.ts` `handler`. Kind: D. Fidelity: exact -/
structure Delivery where
  message : MessageId
  retried : ℕ
  job : AllocateJobPayload
  deriving DecidableEq, Repr

/-- An answer of the handler. Source: `app/api/worker/allocate/route.ts` `ok`, `nonRetryable`,
`transientError`. Kind: D. Fidelity: exact -/
inductive WorkerResponse
  /-- `ok(body)` -/
  | ok (body : CachedBody)
  /-- `ok({ bookingId, status })` of step 3 -/
  | alreadyTerminal (bookingId : BookingId) (status : BookingStatus)
  | nonRetryable (code message : String)
  | transientError (code message : String)
  /-- An exception the handler does not catch. -/
  | uncaught
  deriving DecidableEq, Repr

/-- The HTTP status of an answer. Source: `app/api/worker/allocate/route.ts`. Kind: D.
Fidelity: exact -/
def WorkerResponse.status : WorkerResponse → ℕ
  | .ok _ => 200
  | .alreadyTerminal .. => 200
  | .nonRetryable .. => 489
  | .transientError .. => 500
  | .uncaught => 500

/-- A terminal failure of step 6: the reason given to `release_hold_terminal`, the reason in the
cached body, and the answer. Source: `app/api/worker/allocate/route.ts` (step 6). Kind: D.
Fidelity: exact -/
structure TerminalFailure where
  reason : String
  bodyReason : String
  answer : WorkerResponse
  deriving DecidableEq, Repr

/-- The `await`s of the handler. Source: `app/api/worker/allocate/route.ts` `handler`. Kind: D.
Fidelity: exact -/
inductive WorkerPc
  /-- Step 0, `maybeInjectChaos()`; then step 2. -/
  | chaosGate
  /-- Step 3, `getBookingById`. -/
  | getBooking
  /-- Step 4, `allocateSeatWithPolicy`. -/
  | allocate (price : ℕ)
  /-- Step 5, `releaseHoldTerminally(sold_out)`. -/
  | releaseSoldOut
  /-- Step 5, `commitIdempotencyResponse`. -/
  | commitSoldOut
  /-- Step 6, `paymentPolicy.execute(charge)`. -/
  | charge (price : ℕ) (seat : SeatId)
  /-- Step 6, the terminal branches: `releaseHoldTerminally`. -/
  | releaseFailed (f : TerminalFailure)
  /-- Step 6, the terminal branches: `commitIdempotencyResponse`. -/
  | commitFailed (f : TerminalFailure)
  /-- Step 6, the retryable branches: `releaseHoldForRetry`. -/
  | releaseForRetry (answer : WorkerResponse)
  /-- Step 7, `confirmHold`. -/
  | confirm (price : ℕ) (seat : SeatId) (payment : PaymentId)
  /-- Step 7, `refund`. -/
  | refund (payment : PaymentId)
  /-- Step 7, `commitIdempotencyResponse` of the `EXPIRED` body. -/
  | commitExpired
  /-- Step 8, `commitIdempotencyResponse` of the `CONFIRMED` body. -/
  | commitConfirmed (price : ℕ) (seat : SeatId) (confirmedAt : Time)
  /-- Step 9. -/
  | respond (r : WorkerResponse)
  deriving DecidableEq, Repr

/-- The text of a `PaymentError` code. Source: `lib/payment/mock-service.ts` `PaymentError`.
Kind: D. Fidelity: exact -/
def PaymentErrorCode.text : PaymentErrorCode → String
  | .gatewayTimeout => "gateway_timeout"
  | .paymentDeclined => "payment_declined"
  | .gatewayUnreachable => "gateway_unreachable"

namespace WorkerPc

/-- The body of step 5. Source: `app/api/worker/allocate/route.ts` (step 5). Kind: D.
Fidelity: exact -/
def soldOutBody (job : AllocateJobPayload) : CachedBody :=
  .failed job.bookingId "sold_out" (some job.trainId)

/-- The body of step 7's lost hold. Source: `app/api/worker/allocate/route.ts` (step 7). Kind: D.
Fidelity: exact -/
def expiredBody (job : AllocateJobPayload) : CachedBody :=
  .expired job.bookingId "hold_expired" job.trainId

/-- The body of step 6's terminal branches. Source: `app/api/worker/allocate/route.ts` (step 6).
Kind: D. Fidelity: exact -/
def failedBody (job : AllocateJobPayload) (f : TerminalFailure) : CachedBody :=
  .failed job.bookingId f.bodyReason (some job.trainId)

/-- The body of step 8. Source: `app/api/worker/allocate/route.ts` (step 8). Kind: D.
Fidelity: exact -/
def confirmedBody (job : AllocateJobPayload) (price : ℕ) (seat : SeatId) (confirmedAt : Time) : CachedBody :=
  .confirmed job.bookingId seat job.passengerName price confirmedAt

/-- Step 6 after a `PaymentError`. Source: `app/api/worker/allocate/route.ts` (step 6,
`e instanceof PaymentError`). Kind: D. Fidelity: exact -/
def onPaymentError (retried : ℕ) (code : PaymentErrorCode) : WorkerPc :=
  if code = .paymentDeclined ∨ 3 ≤ retried then
    .releaseFailed
      { reason := if code = .paymentDeclined then "payment_failed" else "payment_timeout"
        bodyReason := "payment_failed"
        answer := .nonRetryable "payment_failed"
          s!"mock payment {code.text} on attempt {retried + 1}" }
  else .releaseForRetry (.transientError "upstream_failure" s!"mock payment {code.text} — retry")

/-- Step 6 after any other error (breaker open, timeout). Source:
`app/api/worker/allocate/route.ts` (step 6, last part of the `catch`). Kind: D. Fidelity: exact -/
def onOtherError (retried : ℕ) : WorkerPc :=
  if 3 ≤ retried then
    .releaseFailed
      { reason := "worker_error"
        bodyReason := "worker_error"
        answer := .nonRetryable "upstream_failure" "payment policy error — retries exhausted" }
  else .releaseForRetry (.transientError "upstream_failure" "payment policy error — retry")

/-- Steps 1 and 2, once the chaos gate let the delivery through. Source:
`app/api/worker/allocate/route.ts` (step 2). Kind: D. Fidelity: exact -/
def parse (job : AllocateJobPayload) : WorkerPc :=
  if job.valid then .getBooking
  else .respond (.nonRetryable "invalid_request_body" "worker job failed schema validation")

/-- The call awaited at a control point. Source: `app/api/worker/allocate/route.ts` `handler`.
Kind: D. Fidelity: exact -/
def call (hold : ℕ) (job : AllocateJobPayload) : WorkerPc → Option Call
  | .chaosGate => none
  | .getBooking => some (.getBookingById job.bookingId)
  | .allocate _ => some (.allocateSeat job.trainId job.bookingId job.passengerName hold)
  | .releaseSoldOut => some (.releaseHoldTerminal job.bookingId "sold_out")
  | .commitSoldOut => some (.writeIdempotencyResponse job.idempotencyKey 200 (soldOutBody job))
  | .charge price _ => some (.charge price job.idempotencyKey)
  | .releaseFailed f => some (.releaseHoldTerminal job.bookingId f.reason)
  | .commitFailed f => some (.writeIdempotencyResponse job.idempotencyKey 200 (failedBody job f))
  | .releaseForRetry _ => some (.releaseHoldRetryable job.bookingId)
  | .confirm _ seat payment => some (.confirmBooking job.bookingId seat payment)
  | .refund _ => none
  | .commitExpired => some (.writeIdempotencyResponse job.idempotencyKey 200 (expiredBody job))
  | .commitConfirmed price seat confirmedAt =>
    some (.writeIdempotencyResponse job.idempotencyKey 200 (confirmedBody job price seat confirmedAt))
  | .respond _ => none

/-- How often the call may be executed: `pgPolicy` and `paymentPolicy` re-execute twice, the other
calls are not wrapped. Source: `lib/resilience/pg-policy.ts`, `lib/resilience/payment-policy.ts`
(`maxAttempts: 2`). Kind: D. Fidelity: exact -/
def attempts : WorkerPc → ℕ
  | .allocate _ | .releaseSoldOut | .charge .. | .releaseFailed _ | .releaseForRetry _
  | .confirm .. => 3
  | _ => 1

/-- The code from the reply of the awaited call to the next `await`.
Source: `app/api/worker/allocate/route.ts` `handler`. Kind: D. Fidelity: exact -/
def onReply (retried : ℕ) (job : AllocateJobPayload) (now : Time) :
    WorkerPc → Reply → Option WorkerPc
  | .getBooking, .booking none =>
    some (.respond (.nonRetryable "job_not_found" "booking row does not exist"))
  | .getBooking, .booking (some row) =>
    some (if row.status = .pending then .allocate row.pricePaise
      else .respond (.alreadyTerminal job.bookingId row.status))
  | .allocate _, .allocated none => some .releaseSoldOut
  | .allocate price, .allocated (some (seat, _)) => some (.charge price seat)
  | .releaseSoldOut, .released _ => some .commitSoldOut
  | .commitSoldOut, .unit => some (.respond (.ok (soldOutBody job)))
  | .charge price seat, .paid payment _ => some (.confirm price seat payment)
  | .charge .., .paymentError code => some (onPaymentError retried code)
  | .releaseFailed f, .released _ => some (.commitFailed f)
  | .commitFailed f, .unit => some (.respond f.answer)
  | .releaseForRetry answer, .released _ => some (.respond answer)
  | .confirm price seat _, .confirmed (some _) => some (.commitConfirmed price seat now)
  | .confirm _ _ payment, .confirmed none => some (.refund payment)
  | .commitExpired, .unit => some (.respond (.ok (expiredBody job)))
  | .commitConfirmed price seat confirmedAt, .unit =>
    some (.respond (.ok (confirmedBody job price seat confirmedAt)))
  | _, _ => none

/-- The code after the awaited call has thrown. Source: `app/api/worker/allocate/route.ts`
`handler` (`catch` blocks; without one the framework answers 500). Kind: D. Fidelity: exact -/
def onThrow (retried : ℕ) : WorkerPc → WorkerPc
  | .allocate _ =>
    .respond (.transientError "upstream_failure" "allocation failed; QStash will retry")
  | .charge .. => onOtherError retried
  | .confirm .. => .respond (.transientError "upstream_failure" "confirm failed — retry")
  | _ => .respond .uncaught

end WorkerPc

end TrainsAndTracks
