import TrainsAndTracks.Pipeline.Worker

/-!
# The other routes

`POST /api/book` (ingress), `POST /api/webhooks/qstash-failure` (failure callback),
`POST /api/admin/dlq/[id]/retry` and `POST /api/sweeper/expire-holds`, each in the form of
`Pipeline.Worker`: a control point for every `await` that reaches the store or the broker. The
awaits on Redis before `idempotency_check` (rate limit, queue depth, fence) and the admin check
touch none of the tables; their outcome is chosen by the world. How often a call may be executed
before the route sees an exception (`attempts`) is set by `pgPolicy` where the route uses it.
-/

namespace TrainsAndTracks

/-- The parts of the configuration the code reads: `HOLD_DURATION_SEC` and the content hash of a
parsed body. Source: `app/api/worker/allocate/route.ts` `HOLD_DURATION_SEC`,
`lib/idempotency/request-hash.ts` `computeRequestHash`. Kind: D -/
structure Config where
  holdDurationSec : ℕ
  requestHash : BookRequest → String

/-! ## `POST /api/book` -/

/-- A request: the `Idempotency-Key` header, the JSON body (`none`: not an object of strings), the
client address and the request id. Source: `app/api/book/route.ts`. Kind: D. Fidelity: exact -/
structure PostRequest where
  idempotencyKey : Option String
  body : Option BookRequest
  ip : String
  requestId : String
  deriving DecidableEq, Repr

/-- An answer of the ingress. Source: `app/api/book/route.ts`, `lib/errors/api-error.ts`. Kind: D.
Fidelity: exact -/
inductive IngressResponse
  | accepted (body : CachedBody)
  | replay (status : ℕ) (body : CachedBody)
  | error (status : ℕ) (code : String)
  /-- An exception the handler does not catch. -/
  | uncaught
  deriving DecidableEq, Repr

/-- The HTTP status of an answer. Source: `app/api/book/route.ts`. Kind: D. Fidelity: exact -/
def IngressResponse.status : IngressResponse → ℕ
  | .accepted _ => 202
  | .replay st _ => st
  | .error st _ => st
  | .uncaught => 500

/-- The `await`s of `handle`. Source: `app/api/book/route.ts` `handle`. Kind: D. Fidelity: exact -/
inductive IngressPc
  /-- Steps 1 to 6. -/
  | start
  /-- Step 7, `checkIdempotency`. -/
  | idempotencyCheck (key : IdempotencyKey) (body : BookRequest)
  | createBooking (key : IdempotencyKey) (body : BookRequest)
  /-- `publishAllocateJob`. -/
  | publish (job : AllocateJobPayload)
  /-- The `UPDATE` of the publish-failure branch. -/
  | rollback (job : AllocateJobPayload)
  /-- `commitIdempotencyResponse` of the 502 body. -/
  | commitRefused (job : AllocateJobPayload)
  /-- `commitIdempotencyResponse` of the 202 body. -/
  | commitAccepted (job : AllocateJobPayload)
  | respond (r : IngressResponse)
  deriving DecidableEq, Repr

namespace IngressPc

/-- `PRICE_PAISE`. Source: `app/api/book/route.ts`. Kind: D. Fidelity: exact -/
def pricePaise : ℕ := 126000

/-- `responseBody`. Source: `app/api/book/route.ts`. Kind: D. Fidelity: exact -/
def acceptedBody (job : AllocateJobPayload) : CachedBody := .pending job.bookingId job.trainId 1800

/-- `errBody`. Source: `app/api/book/route.ts`. Kind: D. Fidelity: exact -/
def refusedBody (req : PostRequest) (job : AllocateJobPayload) : CachedBody :=
  .error "upstream_failure" "Could not enqueue booking for processing" req.requestId job.bookingId

/-- Steps 1 to 4, with the verdicts of the rate limiter and of the queue-depth gate.
Source: `app/api/book/route.ts` `handle` (steps 1–4). Kind: D. Fidelity: exact -/
def gate (req : PostRequest) (rateOk depthOk : Bool) : IngressPc :=
  match req.idempotencyKey with
  | none => .respond (.error 400 "idempotency_key_missing")
  | some k =>
    if !uuidV4Re k then .respond (.error 400 "idempotency_key_malformed")
    else match req.body.bind BookRequest.safeParse with
    | none => .respond (.error 400 "invalid_request_body")
    | some body =>
      if !rateOk then .respond (.error 429 "rate_limit_exceeded")
      else if !depthOk then .respond (.error 503 "backpressure")
      else .idempotencyCheck k body

/-- The call awaited at a control point. Source: `app/api/book/route.ts` `handle`. Kind: D.
Fidelity: exact -/
def call (cfg : Config) (req : PostRequest) : IngressPc → Option Call
  | .start => none
  | .idempotencyCheck k body => some (.idempotencyCheck k req.ip (cfg.requestHash body))
  | .createBooking k body =>
    some (.createBooking ⟨k, body.trainId, body.passengerName, body.passengerPhone, pricePaise⟩)
  | .publish _ => none
  | .rollback job => some (.failUnpublished job.bookingId)
  | .commitRefused job =>
    some (.writeIdempotencyResponse job.idempotencyKey 502 (refusedBody req job))
  | .commitAccepted job =>
    some (.writeIdempotencyResponse job.idempotencyKey 202 (acceptedBody job))
  | .respond _ => none

/-- The code from a reply to the next `await`, `checkIdempotency`'s decision tree included.
Source: `app/api/book/route.ts` `handle`, `lib/idempotency/postgres-authority.ts`
`checkIdempotency`. Kind: D. Fidelity: exact -/
def onReply (cfg : Config) : IngressPc → Reply → Option IngressPc
  | .idempotencyCheck k body, .idempotency row inserted =>
    some (if inserted then .createBooking k body
      else if row.requestHash ≠ cfg.requestHash body then
        .respond (.error 400 "idempotency_key_in_use")
      else match row.responseStatus, row.responseBody with
      | some st, some cached => .respond (.replay st cached)
      | _, _ => .respond (.error 409 "idempotency_key_replaying"))
  | .createBooking k body, .created id => some (.publish ⟨id, k, body.trainId, body.passengerName⟩)
  | .rollback job, .unit => some (.commitRefused job)
  | .commitRefused _, .unit => some (.respond (.error 502 "upstream_failure"))
  | .commitAccepted job, .unit => some (.respond (.accepted (acceptedBody job)))
  | _, _ => none

/-- The code after an awaited call or the publication has thrown. Source: `app/api/book/route.ts`
`handle`. Kind: D. Fidelity: exact -/
def onThrow : IngressPc → IngressPc
  | .createBooking .. => .respond (.error 500 "internal_error")
  | .publish job => .rollback job
  | .rollback job => .commitRefused job
  | .commitRefused _ => .respond (.error 502 "upstream_failure")
  | _ => .respond .uncaught

end IngressPc

/-! ## `POST /api/webhooks/qstash-failure` -/

/-- A failure callback: the body QStash posts. Source:
`app/api/webhooks/qstash-failure/route.ts` `QStashFailureBody`. Kind: D. Fidelity: exact -/
structure FailureCallback where
  status : Option ℕ
  retried : Option ℕ
  sourceMessageId : MessageId
  payload : AllocateJobPayload
  deriving DecidableEq, Repr

/-- `errorReason`. Source: `app/api/webhooks/qstash-failure/route.ts`. Kind: D. Fidelity: exact -/
def FailureCallback.errorReason (cb : FailureCallback) : String :=
  match cb.status with
  | some st => s!"retries_exhausted_http_{st}"
  | none => "retries_exhausted"

/-- The reason recorded on the booking and in the cached body. Source:
`app/api/webhooks/qstash-failure/route.ts`. Kind: D. Fidelity: exact -/
def FailureCallback.failureReason (cb : FailureCallback) : String :=
  if cb.errorReason = "retries_exhausted_http_489" then "payment_failed" else "retries_exhausted"

/-- The cached body. Source: `app/api/webhooks/qstash-failure/route.ts`. Kind: D.
Fidelity: exact -/
def FailureCallback.failedBody (cb : FailureCallback) : CachedBody :=
  .failed cb.payload.bookingId cb.failureReason (some cb.payload.trainId)

/-- The `await`s of the handler. Source: `app/api/webhooks/qstash-failure/route.ts` `handler`.
Kind: D. Fidelity: exact -/
inductive WebhookPc
  | insertDlq
  | release
  | commit
  | respond (status : ℕ)
  deriving DecidableEq, Repr

namespace WebhookPc

/-- The call awaited at a control point. Source: `app/api/webhooks/qstash-failure/route.ts`
`handler`. Kind: D. Fidelity: exact -/
def call (cb : FailureCallback) : WebhookPc → Option Call
  | .insertDlq =>
    some (.insertDlqJob cb.sourceMessageId cb.payload cb.errorReason (cb.retried.getD 0))
  | .release => some (.releaseHoldTerminal cb.payload.bookingId cb.failureReason)
  | .commit => some (.writeIdempotencyResponse cb.payload.idempotencyKey 200 cb.failedBody)
  | .respond _ => none

/-- How often the call may be executed. Source: `lib/allocation/hold-state-machine.ts`
`releaseHoldTerminally` (`pgPolicy`). Kind: D. Fidelity: exact -/
def attempts : WebhookPc → ℕ
  | .release => 3
  | _ => 1

/-- The code from a reply to the next `await`. Source:
`app/api/webhooks/qstash-failure/route.ts` `handler`. Kind: D. Fidelity: exact -/
def onReply (cb : FailureCallback) : WebhookPc → Reply → Option WebhookPc
  | .insertDlq, .dlqInserted _ =>
    some (if cb.payload.idempotencyKey ≠ "" then .release else .respond 200)
  | .release, .released _ => some .commit
  | .commit, .unit => some (.respond 200)
  | _, _ => none

/-- The code after the awaited call has thrown: a failed clean-up does not fail the webhook.
Source: `app/api/webhooks/qstash-failure/route.ts` `handler`. Kind: D. Fidelity: exact -/
def onThrow : WebhookPc → WebhookPc
  | .insertDlq => .respond 500
  | _ => .respond 200

end WebhookPc

/-! ## `POST /api/admin/dlq/[id]/retry` -/

/-- The `await`s of the handler. Source: `app/api/admin/dlq/[id]/retry/route.ts` `POST`. Kind: D.
Fidelity: exact -/
inductive DlqRetryPc
  | lookup
  | publish (job : AllocateJobPayload)
  | mark
  | respond (status : ℕ)
  deriving DecidableEq, Repr

namespace DlqRetryPc

/-- The call awaited at a control point. Source: `app/api/admin/dlq/[id]/retry/route.ts` `POST`.
Kind: D. Fidelity: exact -/
def call (id : ℕ) : DlqRetryPc → Option Call
  | .lookup => some (.getDlqJobById id)
  | .publish _ => none
  | .mark => some (.markDlqRetried id)
  | .respond _ => none

/-- The code from a reply to the next `await`. Source: `app/api/admin/dlq/[id]/retry/route.ts`
`POST`. Kind: D. Fidelity: exact -/
def onReply : DlqRetryPc → Reply → Option DlqRetryPc
  | .lookup, .dlqJob none => some (.respond 404)
  | .lookup, .dlqJob (some row) =>
    some (if row.payload.valid then .publish row.payload else .respond 400)
  | .mark, .unit => some (.respond 200)
  | _, _ => none

/-- The code after an awaited call or the publication has thrown. Source:
`app/api/admin/dlq/[id]/retry/route.ts` `POST`. Kind: D. Fidelity: exact -/
def onThrow : DlqRetryPc → DlqRetryPc
  | .publish _ | .mark => .respond 502
  | _ => .respond 500

end DlqRetryPc

/-! ## `POST /api/sweeper/expire-holds` -/

/-- The `await`s of the handler. Source: `app/api/sweeper/expire-holds/route.ts` `handler`.
Kind: D. Fidelity: exact -/
inductive SweeperPc
  | sweep
  | respond (status : ℕ)
  deriving DecidableEq, Repr

namespace SweeperPc

/-- The call awaited at a control point. Source: `app/api/sweeper/expire-holds/route.ts` `handler`.
Kind: D. Fidelity: exact -/
def call : SweeperPc → Option Call
  | .sweep => some .sweepExpiredHolds
  | .respond _ => none

/-- The code from a reply to the answer. Source: `app/api/sweeper/expire-holds/route.ts` `handler`.
Kind: D. Fidelity: exact -/
def onReply : SweeperPc → Reply → Option SweeperPc
  | .sweep, .swept .. => some (.respond 200)
  | _, _ => none

end SweeperPc

end TrainsAndTracks
