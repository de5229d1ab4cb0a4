import TrainsAndTracks.Found.Programs
import TrainsAndTracks.Pipeline.Worker

/-!
# The two worker pipelines

`handler` of `POST /api/worker/allocate` and `runWorkerJob`, which local development runs in its place, as
programs: every `await` is a call, every `try` an `attempt`, and the code after an `await` what follows
it. The handler is the same code as the state machine `WorkerPc`.

* `WorkerOp` — the functions the pipelines call. `Thrown` — what these throw.
* `handler`, `runWorkerJob` — step by step, as their sources number the steps.
* `pipelines_agree` — the two issue the same calls and leave the same world, whatever is answered.
* `WorkerPc.rest` — what is left of the handler at a control point; `rest_call` says that the machine goes
  through exactly the calls of the program.
-/

namespace TrainsAndTracks

open Found Found.Program

/-! ## Calls and exceptions -/

/-- The functions the pipelines call. `charge` is `paymentPolicy.execute(() => charge(…))`. Source:
`app/api/worker/allocate/route.ts`, `lib/allocation/run-worker-job.ts` (imports). Kind: D.
Fidelity: exact -/
inductive WorkerOp : Type → Type
  | maybeInjectChaos : WorkerOp Unit
  | getBookingById (id : BookingId) : WorkerOp (Option Booking)
  | allocateSeatWithPolicy (trainId : TrainId) (bookingId : BookingId) (passengerName : String)
      (holdDurationSec : ℕ) : WorkerOp (Option (SeatId × ℕ))
  | charge (amountPaise : ℕ) (idempotencyKey : IdempotencyKey) : WorkerOp (PaymentId × Bool)
  | confirmHold (bookingId : BookingId) (seatId : SeatId) (paymentId : PaymentId) :
      WorkerOp (Option BookingId)
  | releaseHoldTerminally (bookingId : BookingId) (reason : String) : WorkerOp ℕ
  | releaseHoldForRetry (bookingId : BookingId) : WorkerOp ℕ
  | refund (paymentId : PaymentId) : WorkerOp Unit
  | commitIdempotencyResponse (key : IdempotencyKey) (status : ℕ) (body : CachedBody) : WorkerOp Unit

/-- What a call throws. Source: `lib/chaos/worker-gate.ts` `WorkerChaosError`,
`lib/payment/mock-service.ts` `PaymentError`. Kind: D. Fidelity: exact -/
inductive Thrown
  | workerChaos (mode : String)
  | payment (code : PaymentErrorCode) (message : String)
  | other (message : String)
  deriving DecidableEq, Repr

/-- `e.message`. Source: `lib/chaos/worker-gate.ts` `WorkerChaosError`. Kind: D. Fidelity: exact -/
def Thrown.message : Thrown → String
  | workerChaos mode => s!"chaos: {mode}"
  | payment _ message | other message => message

/-- A worker pipeline. Source: none: infrastructure. Kind: D -/
abbrev Worker := Program WorkerOp Thrown

/-- A JSON value: `none` is not an object of these four strings with a UUID. Source:
`lib/validation/worker.ts`. Kind: D -/
abbrev RawJob := Option AllocateJobPayload

/-- `AllocateJobSchema.safeParse`. Source: `lib/validation/worker.ts` `AllocateJobSchema`. Kind: D.
Fidelity: exact -/
def allocateJobSchema (raw : RawJob) : Option AllocateJobPayload := raw.filter (·.valid)

/-! ## The handler -/

namespace Handler

section steps

variable {ν : Type} [LE ν] [DecidableLE ν] [OfNat ν 3] [Add ν] [OfNat ν 1] [ToString ν]
variable (hold : ℕ) (retried : ν) (job : AllocateJobPayload) (confirmedAt : Time)

/-- Steps 8 and 9. Source: `app/api/worker/allocate/route.ts` (steps 8, 9). Kind: D. Fidelity: exact -/
def step8 (price : ℕ) (seat : SeatId) : Worker WorkerResponse := do
  let body := CachedBody.confirmed job.bookingId seat job.passengerName price confirmedAt
  let _ ← perform (.commitIdempotencyResponse job.idempotencyKey 200 body)
  return .ok body

/-- Step 7. Source: `app/api/worker/allocate/route.ts` (step 7). Kind: D. Fidelity: exact -/
def step7 (price : ℕ) (seat : SeatId) (payment : PaymentId) : Worker WorkerResponse := do
  match ← attempt (perform (.confirmHold job.bookingId seat payment)) with
  | .error _ => return .transientError "upstream_failure" "confirm failed — retry"
  | .ok none =>
    let _ ← perform (.refund payment)
    let body := CachedBody.expired job.bookingId "hold_expired" job.trainId
    let _ ← perform (.commitIdempotencyResponse job.idempotencyKey 200 body)
    return .ok body
  | .ok (some _) => step8 job confirmedAt price seat

/-- Step 6. Source: `app/api/worker/allocate/route.ts` (step 6). Kind: D. Fidelity: exact -/
def step6 (price : ℕ) (seat : SeatId) : Worker WorkerResponse := do
  match ← attempt (perform (.charge price job.idempotencyKey)) with
  | .ok (payment, _) => step7 job confirmedAt price seat payment
  | .error (.payment code _) =>
    let isLastAttempt := decide (3 ≤ retried)
    let isPermanent := code == .paymentDeclined
    if isPermanent || isLastAttempt then
      let _ ← perform (.releaseHoldTerminally job.bookingId
        (if code == .paymentDeclined then "payment_failed" else "payment_timeout"))
      let body := CachedBody.failed job.bookingId "payment_failed" (some job.trainId)
      let _ ← perform (.commitIdempotencyResponse job.idempotencyKey 200 body)
      return .nonRetryable "payment_failed" s!"mock payment {code.text} on attempt {retried + 1}"
    else
      let _ ← perform (.releaseHoldForRetry job.bookingId)
      return .transientError "upstream_failure" s!"mock payment {code.text} — retry"
  | .error _ =>
    let isLastAttempt := decide (3 ≤ retried)
    if isLastAttempt then
      let _ ← perform (.releaseHoldTerminally job.bookingId "worker_error")
      let body := CachedBody.failed job.bookingId "worker_error" (some job.trainId)
      let _ ← perform (.commitIdempotencyResponse job.idempotencyKey 200 body)
      return .nonRetryable "upstream_failure" "payment policy error — retries exhausted"
    else
      let _ ← perform (.releaseHoldForRetry job.bookingId)
      return .transientError "upstream_failure" "payment policy error — retry"

/-- Steps 4 and 5. Source: `app/api/worker/allocate/route.ts` (steps 4, 5). Kind: D. Fidelity: exact -/
def step4 (price : ℕ) : Worker WorkerResponse := do
  match ← attempt (perform (.allocateSeatWithPolicy job.trainId job.bookingId job.passengerName hold)) with
  | .error _ => return .transientError "upstream_failure" "allocation failed; QStash will retry"
  | .ok none =>
    let _ ← perform (.releaseHoldTerminally job.bookingId "sold_out")
    let body := CachedBody.failed job.bookingId "sold_out" (some job.trainId)
    let _ ← perform (.commitIdempotencyResponse job.idempotencyKey 200 body)
    return .ok body
  | .ok (some (seat, _)) => step6 retried job confirmedAt price seat

/-- Step 3. Source: `app/api/worker/allocate/route.ts` (step 3). Kind: D. Fidelity: exact -/
def step3 : Worker WorkerResponse := do
  match ← perform (.getBookingById job.bookingId) with
  | none => return .nonRetryable "job_not_found" "booking row does not exist"
  | some booking =>
    if booking.status ≠ .pending then return .alreadyTerminal job.bookingId booking.status
    else step4 hold retried job confirmedAt booking.pricePaise

end steps

end Handler

section programs

variable {ν : Type} [LE ν] [DecidableLE ν] [OfNat ν 3] [Add ν] [OfNat ν 1] [ToString ν]
variable (hold : ℕ) (retried : ν)

/-- `handler`, from step 0; `body` is what `req.json()` returns, `none` if it throws, and `confirmedAt` what
`new Date()` reads in step 8. Source: `app/api/worker/allocate/route.ts` `handler`. Kind: D.
Fidelity: exact -/
def handler (body : Option RawJob) (confirmedAt : Time) : Worker WorkerResponse := do
  match ← attempt (perform .maybeInjectChaos) with
  | .error (.workerChaos mode) => return .transientError "upstream_failure" s!"chaos_{mode}"
  | .error e => .raise e
  | .ok () =>
    match body with
    | none => return .nonRetryable "invalid_request_body" "could not parse worker job body"
    | some raw =>
      match allocateJobSchema raw with
      | none => return .nonRetryable "invalid_request_body" "worker job failed schema validation"
      | some job => Handler.step3 hold retried job confirmedAt

/-! ## `runWorkerJob` -/

/-- What `runWorkerJob` returns; a payment of `none` is `''`. Source: `lib/allocation/run-worker-job.ts`
`WorkerOutcome`. Kind: D. Fidelity: exact -/
inductive WorkerOutcome
  | confirmed (seatId : SeatId) (paymentId : Option PaymentId)
  | soldOut
  | expired
  | paymentFailed (code : PaymentErrorCode) (permanent : Bool)
  | invalid (reason : String)
  | transient (reason : String)
  deriving DecidableEq, Repr

namespace RunWorkerJob

variable (job : AllocateJobPayload) (confirmedAt : Time)

/-- Steps 7 and 8. Source: `lib/allocation/run-worker-job.ts` (steps 7, 8). Kind: D. Fidelity: exact -/
def step7 (price : ℕ) (seat : SeatId) (payment : PaymentId) : Worker WorkerOutcome := do
  match ← attempt (perform (.confirmHold job.bookingId seat payment)) with
  | .error e => return .transient e.message
  | .ok none =>
    let _ ← perform (.refund payment)
    let _ ← perform (.commitIdempotencyResponse job.idempotencyKey 200
      (.expired job.bookingId "hold_expired" job.trainId))
    return .expired
  | .ok (some _) =>
    let _ ← perform (.commitIdempotencyResponse job.idempotencyKey 200
      (.confirmed job.bookingId seat job.passengerName price confirmedAt))
    return .confirmed seat (some payment)

/-- Step 6. Source: `lib/allocation/run-worker-job.ts` (step 6). Kind: D. Fidelity: exact -/
def step6 (price : ℕ) (seat : SeatId) : Worker WorkerOutcome := do
  match ← attempt (perform (.charge price job.idempotencyKey)) with
  | .ok (payment, _) => step7 job confirmedAt price seat payment
  | .error (.payment code _) =>
    let permanent := code == .paymentDeclined || decide (3 ≤ retried)
    if permanent then
      let _ ← perform (.releaseHoldTerminally job.bookingId
        (if code == .paymentDeclined then "payment_failed" else "payment_timeout"))
      let _ ← perform (.commitIdempotencyResponse job.idempotencyKey 200
        (.failed job.bookingId "payment_failed" (some job.trainId)))
    else
      let _ ← perform (.releaseHoldForRetry job.bookingId)
    return .paymentFailed code permanent
  | .error e =>
    let isLastAttempt := decide (3 ≤ retried)
    if isLastAttempt then
      let _ ← perform (.releaseHoldTerminally job.bookingId "worker_error")
      let _ ← perform (.commitIdempotencyResponse job.idempotencyKey 200
        (.failed job.bookingId "worker_error" (some job.trainId)))
    else
      let _ ← perform (.releaseHoldForRetry job.bookingId)
    return .transient e.message

/-- Steps 4 and 5. Source: `lib/allocation/run-worker-job.ts` (step 4). Kind: D. Fidelity: exact -/
def step4 (price : ℕ) : Worker WorkerOutcome := do
  match ← attempt (perform (.allocateSeatWithPolicy job.trainId job.bookingId job.passengerName hold)) with
  | .error e => return .transient e.message
  | .ok none =>
    let _ ← perform (.releaseHoldTerminally job.bookingId "sold_out")
    let _ ← perform (.commitIdempotencyResponse job.idempotencyKey 200
      (.failed job.bookingId "sold_out" (some job.trainId)))
    return .soldOut
  | .ok (some (seat, _)) => step6 retried job confirmedAt price seat

/-- Step 3. Source: `lib/allocation/run-worker-job.ts` (step 3). Kind: D. Fidelity: exact -/
def step3 : Worker WorkerOutcome := do
  match ← perform (.getBookingById job.bookingId) with
  | none => return .invalid "booking_not_found"
  | some booking =>
    if booking.status ≠ .pending then
      if booking.status = .confirmed then
        return .confirmed (booking.seatId.getD "") booking.paymentId
      else return .soldOut
    else step4 hold retried job confirmedAt booking.pricePaise

end RunWorkerJob

/-- `runWorkerJob(rawJob, { retried })`; without `retried` it is 0.
Source: `lib/allocation/run-worker-job.ts` `runWorkerJob`. Kind: D. Fidelity: exact -/
def runWorkerJob (rawJob : RawJob) (confirmedAt : Time) : Worker WorkerOutcome := do
  match ← attempt (perform .maybeInjectChaos) with
  | .error (.workerChaos mode) => return .transient s!"chaos_{mode}"
  | .error e => .raise e
  | .ok () =>
    match allocateJobSchema rawJob with
    | none => return .invalid "schema_validation_failed"
    | some job => RunWorkerJob.step3 hold retried job confirmedAt

/-! ## Their agreement -/

/-- A body without its timestamp. Source: `app/api/worker/allocate/route.ts` (step 8, `confirmedAt`).
Kind: D -/
def CachedBody.undated : CachedBody → CachedBody
  | confirmed b seat passenger price _ => confirmed b seat passenger price 0
  | body => body

/-- A call up to the `confirmedAt` of the body it writes. Source: `app/api/worker/allocate/route.ts`
(step 8). Kind: D -/
def WorkerOp.undated (β : Type) : WorkerOp β → WorkerOp β
  | commitIdempotencyResponse key status body => commitIdempotencyResponse key status body.undated
  | op => op

section agreement

variable {f : (β : Type) → WorkerOp β → WorkerOp β} {job : AllocateJobPayload} {t t' : Time}
variable {hold : ℕ} {retried : ν}

/-- The two clocks agree as far as `f` looks. Source: none: infrastructure. Kind: D -/
def SameClock (f : (β : Type) → WorkerOp β → WorkerOp β) (t t' : Time) : Prop :=
  ∀ key b seat passenger price,
    f _ (.commitIdempotencyResponse key 200 (.confirmed b seat passenger price t)) =
      f _ (.commitIdempotencyResponse key 200 (.confirmed b seat passenger price t'))

/-- Steps 7 and 8 agree. Source: `app/api/worker/allocate/route.ts`, `lib/allocation/run-worker-job.ts`
(steps 7, 8). Kind: L -/
theorem agree_step7 (hclock : SameClock f t t') (price : ℕ) (seat : SeatId) (payment : PaymentId) :
    Agree f (Handler.step7 job t price seat payment) (RunWorkerJob.step7 job t' price seat payment) := by
  refine Agree.attempt rfl fun r => ?_
  cases r with
  | error e => exact .ret _ _
  | ok confirmed =>
    cases confirmed with
    | none => exact Agree.perform rfl fun _ => Agree.perform rfl fun _ => .ret _ _
    | some id => exact Agree.perform (hclock ..) fun _ => .ret _ _

/-- Step 6 agrees. Source: `app/api/worker/allocate/route.ts`, `lib/allocation/run-worker-job.ts`
(step 6). Kind: L -/
theorem agree_step6 (hclock : SameClock f t t') (price : ℕ) (seat : SeatId) :
    Agree f (Handler.step6 retried job t price seat) (RunWorkerJob.step6 retried job t' price seat) := by
  refine Agree.attempt rfl fun r => ?_
  cases r with
  | ok paid => exact agree_step7 hclock price seat paid.1
  | error e =>
    cases e with
    | payment code message =>
      dsimp only
      by_cases hterminal : (code == .paymentDeclined || decide (3 ≤ retried)) = true
      · rw [if_pos hterminal, if_pos hterminal]
        exact Agree.perform rfl fun _ => Agree.perform rfl fun _ => .ret _ _
      · rw [if_neg hterminal, if_neg hterminal]
        exact Agree.perform rfl fun _ => .ret _ _
    | workerChaos | other =>
      dsimp only
      by_cases hlast : decide (3 ≤ retried) = true
      · rw [if_pos hlast, if_pos hlast]
        exact Agree.perform rfl fun _ => Agree.perform rfl fun _ => .ret _ _
      · rw [if_neg hlast, if_neg hlast]
        exact Agree.perform rfl fun _ => .ret _ _

/-- Steps 4 and 5 agree. Source: `app/api/worker/allocate/route.ts`, `lib/allocation/run-worker-job.ts`
(steps 4, 5). Kind: L -/
theorem agree_step4 (hclock : SameClock f t t') (price : ℕ) :
    Agree f (Handler.step4 hold retried job t price) (RunWorkerJob.step4 hold retried job t' price) := by
  refine Agree.attempt rfl fun r => ?_
  cases r with
  | error e => exact .ret _ _
  | ok allocated =>
    cases allocated with
    | none => exact Agree.perform rfl fun _ => Agree.perform rfl fun _ => .ret _ _
    | some seat => exact agree_step6 hclock price seat.1

/-- Step 3 agrees. Source: `app/api/worker/allocate/route.ts`, `lib/allocation/run-worker-job.ts`
(step 3). Kind: L -/
theorem agree_step3 (hclock : SameClock f t t') :
    Agree f (Handler.step3 hold retried job t) (RunWorkerJob.step3 hold retried job t') := by
  refine Agree.perform rfl fun row => ?_
  cases row with
  | none => exact .ret _ _
  | some booking =>
    by_cases hopen : booking.status = .pending
    · simp only [hopen, ne_eq, not_true_eq_false, if_false]
      exact agree_step4 hclock _
    · simp only [hopen, ne_eq, not_false_eq_true, if_true]
      split <;> exact .ret _ _

/-- The pipelines agree on every body. Source: `app/api/worker/allocate/route.ts`,
`lib/allocation/run-worker-job.ts`. Kind: L -/
theorem agree_handler (hclock : SameClock f t t') (body : Option RawJob) :
    Agree f (handler hold retried body t) (runWorkerJob hold retried body.join t') := by
  refine Agree.attempt rfl fun r => ?_
  cases r with
  | error e =>
    cases e with
    | workerChaos mode => exact .ret _ _
    | payment | other => exact .raise _
  | ok _ =>
    cases body with
    | none => exact .ret _ _
    | some raw =>
      cases hjob : allocateJobSchema raw with
      | none =>
        simp only [Option.join_some, hjob]
        exact .ret _ _
      | some job =>
        simp only [Option.join_some, hjob]
        exact agree_step3 hclock

end agreement

/-- **The two pipelines agree.** Whatever the body, the retry count, the state of the world and what the
calls return or throw there, the handler and `runWorkerJob` issue the same calls with the same arguments
and leave the same world: with one clock exactly, with two clocks up to `confirmedAt`. Source:
`app/api/worker/allocate/route.ts` `handler`, `lib/allocation/run-worker-job.ts` `runWorkerJob`. Kind: P -/
theorem pipelines_agree {ω : Type} (body : Option RawJob)
    (exec : (β : Type) → WorkerOp β → ω → Except Thrown β × ω) (w : ω) (t t' : Time) :
    ((handler hold retried body t).calls exec w = (runWorkerJob hold retried body.join t).calls exec w ∧
      ((handler hold retried body t).run exec w).2 =
        ((runWorkerJob hold retried body.join t).run exec w).2) ∧
    let undated := fun β (op : WorkerOp β) => exec β (op.undated β)
    (((handler hold retried body t).calls undated w).map fun c => (⟨c.1, c.2.undated⟩ : Σ β, WorkerOp β)) =
      (((runWorkerJob hold retried body.join t').calls undated w).map fun c => ⟨c.1, c.2.undated⟩) ∧
    ((handler hold retried body t).run undated w).2 =
      ((runWorkerJob hold retried body.join t').run undated w).2 := by
  have hclock : SameClock (fun _ op => op) t t := fun _ _ _ _ _ => rfl
  have hsame : Agree _ (handler hold retried body t) (runWorkerJob hold retried body.join t) :=
    agree_handler hclock body
  have hclock' : SameClock WorkerOp.undated t t' := fun _ _ _ _ _ => rfl
  have hundated : Agree _ (handler hold retried body t) (runWorkerJob hold retried body.join t') :=
    agree_handler hclock' body
  have hcalls := hsame.calls_eq exec w
  have hworld := hsame.world_eq exec w
  have hcalls' := hundated.calls_eq exec w
  have hworld' := hundated.world_eq exec w
  simp only [List.map_id'] at hcalls
  exact ⟨⟨hcalls, hworld⟩, hcalls', hworld'⟩

end programs

/-! ## The handler and its state machine -/

/-- The call of the store that a function executes. Source: `lib/allocation/hold-state-machine.ts`,
`lib/allocation/allocate-seat.ts`, `lib/idempotency/postgres-authority.ts`. Kind: D. Fidelity: exact -/
def WorkerOp.call {β : Type} : WorkerOp β → Option Call
  | maybeInjectChaos | refund _ => none
  | getBookingById b => some (.getBookingById b)
  | allocateSeatWithPolicy train b passenger hold => some (.allocateSeat train b passenger hold)
  | .charge amount k => some (.charge amount k)
  | confirmHold b seat payment => some (.confirmBooking b seat payment)
  | releaseHoldTerminally b reason => some (.releaseHoldTerminal b reason)
  | releaseHoldForRetry b => some (.releaseHoldRetryable b)
  | commitIdempotencyResponse k status body => some (.writeIdempotencyResponse k status body)

/-- What a function makes of a reply: it returns, or throws a `PaymentError` with some `message`. Source:
`lib/db/repositories` (return types), `lib/payment/mock-service.ts` `charge`. Kind: D. Fidelity: exact -/
def WorkerOp.answer (message : String) {β : Type} : WorkerOp β → Reply → Option (Except Thrown β)
  | getBookingById _, .booking row => some (.ok row)
  | allocateSeatWithPolicy .., .allocated seat => some (.ok seat)
  | .charge .., .paid payment replayed => some (.ok (payment, replayed))
  | .charge .., .paymentError code => some (.error (.payment code message))
  | confirmHold .., .confirmed id => some (.ok id)
  | releaseHoldTerminally .., .released n => some (.ok n)
  | releaseHoldForRetry _, .released n => some (.ok n)
  | commitIdempotencyResponse .., .unit => some (.ok ())
  | _, _ => none

namespace WorkerPc

section rest

variable (hold retried : ℕ) (job : AllocateJobPayload) (confirmedAt : Time)

/-- What is left of the handler at a control point. Source: `app/api/worker/allocate/route.ts` `handler`.
Kind: D. Fidelity: exact -/
def rest : WorkerPc → Worker WorkerResponse
  | .chaosGate => handler hold retried (some (some job)) confirmedAt
  | .getBooking => Handler.step3 hold retried job confirmedAt
  | .allocate price => Handler.step4 hold retried job confirmedAt price
  | .releaseSoldOut => do
    let _ ← perform (.releaseHoldTerminally job.bookingId "sold_out")
    let _ ← perform (.commitIdempotencyResponse job.idempotencyKey 200 (soldOutBody job))
    return .ok (soldOutBody job)
  | .commitSoldOut => do
    let _ ← perform (.commitIdempotencyResponse job.idempotencyKey 200 (soldOutBody job))
    return .ok (soldOutBody job)
  | .charge price seat => Handler.step6 retried job confirmedAt price seat
  | .releaseFailed f => do
    let _ ← perform (.releaseHoldTerminally job.bookingId f.reason)
    let _ ← perform (.commitIdempotencyResponse job.idempotencyKey 200 (failedBody job f))
    return f.answer
  | .commitFailed f => do
    let _ ← perform (.commitIdempotencyResponse job.idempotencyKey 200 (failedBody job f))
    return f.answer
  | .releaseForRetry answer => do
    let _ ← perform (.releaseHoldForRetry job.bookingId)
    return answer
  | .confirm price seat payment => Handler.step7 job confirmedAt price seat payment
  | .refund payment => do
    let _ ← perform (.refund payment)
    let _ ← perform (.commitIdempotencyResponse job.idempotencyKey 200 (expiredBody job))
    return .ok (expiredBody job)
  | .commitExpired => do
    let _ ← perform (.commitIdempotencyResponse job.idempotencyKey 200 (expiredBody job))
    return .ok (expiredBody job)
  | .commitConfirmed price seat confirmedAt => Handler.step8 job confirmedAt price seat
  | .respond r => return r

end rest

section unfolding

variable {hold retried : ℕ} {job : AllocateJobPayload} {confirmedAt : Time} {pc : WorkerPc} {call : Call}

/-- What is left after a `PaymentError`. Source: `app/api/worker/allocate/route.ts` (step 6). Kind: L -/
theorem rest_onPaymentError (code : PaymentErrorCode) :
    (onPaymentError retried code).rest hold retried job confirmedAt =
      if code == .paymentDeclined || decide (3 ≤ retried) then do
        let _ ← perform (.releaseHoldTerminally job.bookingId
          (if code == .paymentDeclined then "payment_failed" else "payment_timeout"))
        let _ ← perform (.commitIdempotencyResponse job.idempotencyKey 200
          (.failed job.bookingId "payment_failed" (some job.trainId)))
        return .nonRetryable "payment_failed" s!"mock payment {code.text} on attempt {retried + 1}"
      else do
        let _ ← perform (.releaseHoldForRetry job.bookingId)
        return .transientError "upstream_failure" s!"mock payment {code.text} — retry" := by
  unfold onPaymentError
  by_cases hterminal : code = .paymentDeclined ∨ 3 ≤ retried
  · have hcond : (code == .paymentDeclined || decide (3 ≤ retried)) = true := by simpa using hterminal
    rw [if_pos hterminal, if_pos hcond]
    simp only [beq_iff_eq]
    rfl
  · have hcond : ¬ (code == .paymentDeclined || decide (3 ≤ retried)) = true := by simpa using hterminal
    rw [if_neg hterminal, if_neg hcond]
    rfl

/-- What is left after another error. Source: `app/api/worker/allocate/route.ts` (step 6). Kind: L -/
theorem rest_onOtherError :
    (onOtherError retried).rest hold retried job confirmedAt =
      if decide (3 ≤ retried) then do
        let _ ← perform (.releaseHoldTerminally job.bookingId "worker_error")
        let _ ← perform (.commitIdempotencyResponse job.idempotencyKey 200
          (.failed job.bookingId "worker_error" (some job.trainId)))
        return .nonRetryable "upstream_failure" "payment policy error — retries exhausted"
      else do
        let _ ← perform (.releaseHoldForRetry job.bookingId)
        return .transientError "upstream_failure" "payment policy error — retry" := by
  unfold onOtherError
  by_cases hlast : 3 ≤ retried
  · rw [if_pos hlast, if_pos (by simpa using hlast)]
    rfl
  · rw [if_neg hlast, if_neg (by simpa using hlast)]
    rfl

/-- `k` is the code after the call at `pc`: after a reply it is what is left at the next control point, and
after an exception what is left where the exception leads, or nothing if nobody catches it. Source:
`app/api/worker/allocate/route.ts` `handler`. Kind: D -/
structure Continues (hold retried : ℕ) (job : AllocateJobPayload) (confirmedAt : Time) (pc : WorkerPc)
    {β : Type} (op : WorkerOp β) (k : Except Thrown β → Worker WorkerResponse) : Prop where
  reply : ∀ message reply r pc', op.answer message reply = some r →
    pc.onReply retried job confirmedAt reply = some pc' → k r = pc'.rest hold retried job confirmedAt
  thrown : ∀ e, (∀ code message, e ≠ .payment code message) →
    k (.error e) = (pc.onThrow retried).rest hold retried job confirmedAt ∨
      k (.error e) = .raise e ∧ pc.onThrow retried = .respond .uncaught

/-- **The machine is the handler**: at every `await` the program issues the call of the control point, and
goes on as the machine does. Source: `app/api/worker/allocate/route.ts` `handler`. Kind: P -/
theorem rest_call (hcall : pc.call hold job = some call) :
    ∃ (β : Type) (op : WorkerOp β) (k : Except Thrown β → Worker WorkerResponse),
      pc.rest hold retried job confirmedAt = .call op k ∧ op.call = some call ∧
        Continues hold retried job confirmedAt pc op k := by
  cases pc with
  | chaosGate | refund | respond => cases hcall
  | getBooking =>
    cases hcall
    refine ⟨_, _, _, rfl, rfl, ?_, fun e _ => .inr ⟨rfl, rfl⟩⟩
    intro message reply r pc' hans hreply
    cases reply with
    | booking row =>
      cases hans
      cases row with
      | none =>
        cases hreply
        rfl
      | some booking =>
        simp only [onReply, Option.some.injEq] at hreply
        subst hreply
        by_cases hopen : booking.status = .pending
        · rw [if_pos hopen]
          exact if_neg (not_not.mpr hopen)
        · rw [if_neg hopen]
          exact if_pos hopen
    | _ => cases hans
  | allocate price =>
    cases hcall
    refine ⟨_, _, _, rfl, rfl, ?_, fun e _ => .inl rfl⟩
    intro message reply r pc' hans hreply
    cases reply with
    | allocated seat =>
      cases hans
      cases seat <;> cases hreply <;> rfl
    | _ => cases hans
  | charge price seat =>
    cases hcall
    refine ⟨_, _, _, rfl, rfl, ?_, ?_⟩
    · intro message reply r pc' hans hreply
      cases reply with
      | paid payment replayed =>
        cases hans
        cases hreply
        rfl
      | paymentError code =>
        cases hans
        cases hreply
        exact (rest_onPaymentError code).symm
      | _ => cases hans
    · intro e he
      refine .inl ?_
      cases e with
      | payment code message => exact absurd rfl (he code message)
      | workerChaos | other => exact rest_onOtherError.symm
  | confirm price seat payment =>
    cases hcall
    refine ⟨_, _, _, rfl, rfl, ?_, fun e _ => .inl rfl⟩
    intro message reply r pc' hans hreply
    cases reply with
    | confirmed id =>
      cases hans
      cases id <;> cases hreply <;> rfl
    | _ => cases hans
  | releaseSoldOut | releaseFailed | releaseForRetry =>
    cases hcall
    refine ⟨_, _, _, rfl, rfl, ?_, fun e _ => .inr ⟨rfl, rfl⟩⟩
    intro message reply r pc' hans hreply
    cases reply with
    | released n =>
      cases hans
      cases hreply
      rfl
    | _ => cases hans
  | commitSoldOut | commitFailed | commitExpired | commitConfirmed =>
    cases hcall
    refine ⟨_, _, _, rfl, rfl, ?_, fun e _ => .inr ⟨rfl, rfl⟩⟩
    intro message reply r pc' hans hreply
    cases reply with
    | unit =>
      cases hans
      cases hreply
      rfl
    | _ => cases hans

/-- The chaos gate and step 2. Source: `app/api/worker/allocate/route.ts` (steps 0, 2). Kind: L -/
theorem rest_chaosGate :
    ∃ k, rest hold retried job confirmedAt .chaosGate = .call .maybeInjectChaos k ∧
      k (.ok ()) = (parse job).rest hold retried job confirmedAt ∧
      ∀ mode, k (.error (.workerChaos mode)) =
        rest hold retried job confirmedAt
          (.respond (.transientError "upstream_failure" s!"chaos_{mode}")) := by
  refine ⟨_, rfl, ?_, fun _ => rfl⟩
  cases hvalid : job.valid with
  | true =>
    have hjob : allocateJobSchema (some job) = some job := Option.filter_some_pos hvalid
    simp only [parse, hvalid, if_true, hjob]
    rfl
  | false =>
    have hjob : allocateJobSchema (some job) = none := Option.filter_some_neg hvalid
    simp only [parse, hvalid, hjob]
    rfl

/-- The refund. Source: `app/api/worker/allocate/route.ts` (step 7). Kind: L -/
theorem rest_refund (payment : PaymentId) :
    ∃ k, rest hold retried job confirmedAt (.refund payment) = .call (.refund payment) k ∧
      k (.ok ()) = rest hold retried job confirmedAt .commitExpired :=
  ⟨_, rfl, rfl⟩

end unfolding

end WorkerPc

end TrainsAndTracks
