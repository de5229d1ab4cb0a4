import Mathlib.Data.List.MinMax
import Mathlib.Data.String.Basic
import TrainsAndTracks.Schema.Validation

/-!
# The calls of the store, statement by statement

Every round trip of the pipeline to Postgres is an execution (`Exec`) of a `Call`. A call is a
small program: given the store and the point it has reached (`Pc`), it yields the next SQL
statement (`Stmt`). `Store.step` (module `Store.Machine`) runs one statement at a time, so the
statements of concurrent calls interleave freely.

* `allocateSeat`, `confirmBooking`, `release`, `sweepExpiredHolds` — the stored functions of
  `supabase/migrations`.
* `charge` — the mock gateway of `lib/payment/mock-service.ts`: a lookup and an insert, each its
  own transaction.
* the remaining calls are single statements of `lib/db/repositories` and of the ingress.

A statement that can change several rows takes its snapshot when it starts and re-checks each row
once it may run: `releaseSeats` and `sweepRun` carry the ids the snapshot matched. A statement on
one row by its id needs no snapshot of its own.
-/

namespace TrainsAndTracks

open Found

/-! ## Calls, replies and control points -/

/-- Arguments of `createBooking`. Source: `lib/db/repositories/bookings.ts` `CreateBookingArgs`.
Kind: D. Fidelity: exact -/
structure CreateBookingArgs where
  idempotencyKey : IdempotencyKey
  trainId : TrainId
  passengerName : String
  passengerPhone : Option String
  pricePaise : ℕ
  deriving DecidableEq, Repr

/-- A round trip to the store. Source: `lib/db/repositories`, `lib/payment/mock-service.ts`
`charge`, `app/api/book/route.ts` (the `UPDATE` of the publish-failure branch). Kind: D.
Fidelity: exact -/
inductive Call
  | getBookingById (id : BookingId)
  | allocateSeat (trainId : TrainId) (bookingId : BookingId) (passengerName : String)
      (holdDurationSec : ℕ)
  | confirmBooking (bookingId : BookingId) (seatId : SeatId) (paymentId : PaymentId)
  | releaseHold (bookingId : BookingId) (reason : String)
  | releaseHoldRetryable (bookingId : BookingId)
  | releaseHoldTerminal (bookingId : BookingId) (reason : String)
  | sweepExpiredHolds
  | failUnpublished (bookingId : BookingId)
  | idempotencyCheck (key : IdempotencyKey) (userId requestHash : String)
  | createBooking (args : CreateBookingArgs)
  | writeIdempotencyResponse (key : IdempotencyKey) (status : ℕ) (body : CachedBody)
  | charge (amountPaise : ℕ) (idempotencyKey : IdempotencyKey)
  | insertDlqJob (qstashMessageId : MessageId) (payload : AllocateJobPayload)
      (errorReason : String) (attemptCount : ℕ)
  | getDlqJobById (id : ℕ)
  | markDlqRetried (id : ℕ)
  deriving DecidableEq, Repr

/-- What a call returns, or the `PaymentError` that `charge` throws.
Source: `lib/db/repositories` (return types), `lib/payment/mock-service.ts`. Kind: D.
Fidelity: exact -/
inductive Reply
  | booking (row : Option Booking)
  | allocated (seat : Option (SeatId × ℕ))
  | confirmed (bookingId : Option BookingId)
  | released (rows : ℕ)
  | swept (sweptCount : ℕ) (skipped : Bool)
  | unit
  | idempotency (row : IdempotencyRow) (inserted : Bool)
  | created (id : BookingId)
  | paid (paymentId : PaymentId) (replayed : Bool)
  | paymentError (code : PaymentErrorCode)
  | dlqInserted (id : Option ℕ)
  | dlqJob (row : Option DlqJob)
  deriving DecidableEq, Repr

/-- The point an execution has reached: the statement it runs next, or its outcome. `sent` is a
call on its way to the server, `start` the open transaction before its first statement, `ret` the
transaction that has returned but not committed.
Source: the stored functions, one constructor for each statement after the first. Kind: D -/
inductive Pc
  | sent
  | start
  | allocatePick
  | confirmSeat
  | confirmRow
  | releaseSeats (snapshot : List SeatId)
  | releaseRow (released : ℕ)
  | sweepSnapshot
  | sweepRun (snapshot : List SeatId)
  | chargeInsert
  | ret (r : Reply)
  | done (r : Reply)
  | failed
  deriving DecidableEq, Repr

/-- One execution of a call: its arguments, the client that sent it, `now()` of its transaction
and the point it has reached. Source: none: infrastructure. Kind: D -/
structure Exec where
  call : Call
  client : ℕ
  now : Time
  pc : Pc
  deriving DecidableEq, Repr

/-- What the world decides in a step: the value of `gen_random_uuid()`, the draw of the mock
gateway (`none` is a success) and the row an unordered `LIMIT 1` returns. Source: migration
`100_fn_allocate_seat`, `lib/payment/mock-service.ts` `charge` (`Math.random`). Kind: D -/
structure Choice where
  uuid : ℕ
  gateway : Option PaymentErrorCode
  row : SeatId

/-- The database: its tables, the holder of the advisory lock `8675309`, the executions (an
execution is named by its position) and the clock. Source: `supabase/migrations`. Kind: D.
Fidelity: exact -/
structure Store where
  trains : List TrainId
  seats : Versioned ℕ Seat
  bookings : Versioned ℕ Booking
  payments : Table Payment
  idempotencyKeys : Table IdempotencyRow
  dlqJobs : Table DlqJob
  advisory : Option ℕ
  execs : List Exec
  now : Time

/-- One SQL statement, with the point reached after it. Source: none: infrastructure. Kind: D -/
inductive Stmt
  | select (next : Pc)
  | update (seats : Update Seat) (bookings : Update Booking) (next : Pc)
  | tryAdvisoryLock (next : Pc)
  | insertBooking (row : Booking) (next : Pc)
  | insertPayment (row : Payment) (next : Pc)
  | insertKey (row : IdempotencyRow) (next : Pc)
  | updateKeys (u : Update IdempotencyRow) (next : Pc)
  | insertDlqJob (row : DlqJob) (next : Pc)
  | updateDlqJobs (u : Update DlqJob) (next : Pc)
  | raise

namespace Store

/-! ## `allocate_seat` -/

/-- The re-delivery guard's `SELECT … LIMIT 1`: some live hold of the booking.
Source: migration `100_fn_allocate_seat`, statement 1. Kind: D. Fidelity: exact (`LIMIT 1` without
`ORDER BY`: any matching row, chosen by `row`) -/
def liveHold (σ : Store) (b : BookingId) (now : Time) (row : SeatId) : Option Seat :=
  let holds := σ.seats.committed.select fun s => s.bookingId == some b && s.liveAt now
  (holds.find? fun s => s.id == row).or holds.head?

/-- The subquery of the allocation: the lowest-id `AVAILABLE` row of the train that no other
transaction has locked. Source: migration `100_fn_allocate_seat`, statement 2
(`FOR UPDATE SKIP LOCKED`). Kind: D. Fidelity: exact -/
def pickAvailable (σ : Store) (i : ℕ) (train : TrainId) : Option Seat :=
  (σ.seats.committed.select fun s =>
    s.trainId == train && s.status == .available && !σ.seats.lockedFor i s.id).argmin Seat.id

/-- The assignment of a fresh allocation. Source: migration `100_fn_allocate_seat`, statement 2.
Kind: D. Fidelity: exact -/
def reserve (id : SeatId) (b : BookingId) (passenger : String) (until_ : Time) : Update Seat where
  cond s := s.id == id
  set s := { s with
    status := .reserved, bookingId := some b, heldBy := some passenger, heldUntil := some until_
    version := s.version + 1 }
  key_set _ := rfl

/-- `allocate_seat`. The foreign key `seats.booking_id → bookings.id` makes the `UPDATE` fail for
a booking that does not exist.
Source: migration `100_fn_allocate_seat`, `160_fk_seats_booking_id`. Kind: D. Fidelity: exact -/
def allocateSeat (σ : Store) (i : ℕ) (now : Time) (ch : Choice) (train : TrainId) (b : BookingId)
    (passenger : String) (hold : ℕ) : Pc → Option Stmt
  | .start =>
    match σ.liveHold b now ch.row with
    | some s => some (.select (.ret (.allocated (some (s.id, s.version)))))
    | none => some (.select .allocatePick)
  | .allocatePick =>
    match σ.pickAvailable i train with
    | none => some (.select (.ret (.allocated none)))
    | some s =>
      if (σ.bookings.committed.find? b).isNone then some .raise
      else some (.update (reserve s.id b passenger (now + hold)) .skip
        (.ret (.allocated (some (s.id, s.version + 1)))))
  | _ => none

/-! ## `confirm_booking` -/

/-- The seat `UPDATE` of `confirm_booking`. Source: migration `110_fn_confirm_booking`,
statement 2. Kind: D. Fidelity: exact -/
def confirmSeatUpdate (b : BookingId) (seat : SeatId) (now : Time) : Update Seat where
  cond s := s.id == seat && s.bookingId == some b && s.liveAt now
  set s := { s with
    status := .confirmed, heldUntil := none, heldBy := none, version := s.version + 1 }
  key_set _ := rfl

/-- The seat a confirmation updates is its booking's live hold. Source: migration
`110_fn_confirm_booking`, statement 2. Kind: L -/
theorem confirmSeatUpdate_cond_iff {b : BookingId} {seat : SeatId} {now : Time} {s : Seat} :
    (confirmSeatUpdate b seat now).cond s = true ↔
      s.id = seat ∧ s.bookingId = some b ∧ s.liveAt now = true := by
  simp [confirmSeatUpdate, and_assoc]

/-- The booking `UPDATE` of `confirm_booking`. Source: migration `110_fn_confirm_booking`,
statement 3. Kind: D. Fidelity: exact -/
def confirmRowUpdate (b : BookingId) (seat : SeatId) (payment : PaymentId) (now : Time) :
    Update Booking where
  cond r := r.id == b && r.status == .pending
  set r := { r with
    status := .confirmed, seatId := some seat, paymentId := some payment, confirmedAt := some now }
  key_set _ := rfl

/-- The row a confirmation updates is its `PENDING` booking. Source: migration
`110_fn_confirm_booking`, statement 3. Kind: L -/
theorem confirmRowUpdate_cond_iff {b : BookingId} {seat : SeatId} {payment : PaymentId} {now : Time}
    {r : Booking} :
    (confirmRowUpdate b seat payment now).cond r = true ↔ r.id = b ∧ r.status = .pending := by
  simp [confirmRowUpdate]

/-- `confirm_booking`. The status is read without a lock; the seat is updated under its guard;
the booking is updated under its guard, and the seat `UPDATE` stands even when that matches no row.
The foreign key `bookings.payment_id → payments.id` makes the last `UPDATE` fail for an unknown
payment. Source: migration `110_fn_confirm_booking`, `060_bookings`. Kind: D. Fidelity: exact -/
def confirmBooking (σ : Store) (now : Time) (b : BookingId) (seat : SeatId)
    (payment : PaymentId) : Pc → Option Stmt
  | .start =>
    match σ.bookings.committed.find? b with
    | some r =>
      if r.status == .pending then some (.select .confirmSeat)
      else some (.select (.ret (.confirmed none)))
    | none => some (.select (.ret (.confirmed none)))
  | .confirmSeat =>
    let u := confirmSeatUpdate b seat now
    if (σ.seats.committed.select u.cond).isEmpty then some (.select (.ret (.confirmed none)))
    else some (.update u .skip .confirmRow)
  | .confirmRow =>
    let u := confirmRowUpdate b seat payment now
    if (σ.bookings.committed.select u.cond).isEmpty then some (.select (.ret (.confirmed none)))
    else if (σ.payments.find? payment).isNone then some .raise
    else some (.update .skip u (.ret (.confirmed (some b))))
  | _ => none

/-! ## The release functions -/

/-- `status = 'AVAILABLE'` and the hold columns cleared. Source: migration
`20260418000000_split_release_hold`, `130_fn_sweep_expired_holds`. Kind: D. Fidelity: exact -/
def freed (s : Seat) : Seat :=
  { s with
    status := .available, bookingId := none, heldBy := none, heldUntil := none
    version := s.version + 1 }

/-- The seat `UPDATE` of the release functions, on the rows its snapshot matched.
Source: migration `20260418000000_split_release_hold` (`released`). Kind: D. Fidelity: exact -/
def releaseSeatsUpdate (b : BookingId) (snapshot : List SeatId) : Update Seat where
  cond s := snapshot.contains s.id && s.heldFor b
  set := freed
  key_set _ := rfl

/-- A booking `UPDATE … SET status = 'FAILED' WHERE id = b AND status = 'PENDING'`.
Source: migration `20260418000000_split_release_hold` (`release_hold_terminal`, statement 2),
`app/api/book/route.ts` (publish-failure branch). Kind: D. Fidelity: exact -/
def failRowUpdate (b : BookingId) (reason : String) : Update Booking where
  cond r := r.id == b && r.status == .pending
  set r := { r with status := .failed, failureReason := some reason }
  key_set _ := rfl

/-- The body the three release functions share: free the `RESERVED` seats of the booking and,
given a reason, fail the booking if it is still `PENDING`.
Source: migrations `120_fn_release_hold`, `20260418000000_split_release_hold`. Kind: D.
Fidelity: exact -/
def release (σ : Store) (b : BookingId) (reason : Option String) : Pc → Option Stmt
  | .start => some (.select (.releaseSeats ((σ.seats.committed.select (·.heldFor b)).map Seat.id)))
  | .releaseSeats snapshot =>
    let u := releaseSeatsUpdate b snapshot
    let rows := (σ.seats.committed.select u.cond).length
    some (.update u .skip (if reason.isSome then .releaseRow rows else .ret (.released rows)))
  | .releaseRow rows => reason.map fun why => .update .skip (failRowUpdate b why) (.ret (.released rows))
  | _ => none

/-! ## `sweep_expired_holds` -/

/-- `expired_seats`, on the rows the snapshot of `targets` matched. Source: migration
`130_fn_sweep_expired_holds`. Kind: D. Fidelity: exact -/
def sweepSeatsUpdate (snapshot : List SeatId) (now : Time) : Update Seat where
  cond s := snapshot.contains s.id && s.expiredAt now
  set := freed
  key_set _ := rfl

/-- `expired_bookings`: the `PENDING` bookings the targets name before the update.
Source: migration `130_fn_sweep_expired_holds`. Kind: D. Fidelity: exact -/
def sweepRowsUpdate (targets : List Seat) : Update Booking where
  cond r := r.status == .pending && targets.any fun s => s.bookingId == some r.id
  set r := { r with status := .expired, failureReason := some "hold_expired" }
  key_set _ := rfl

/-- `sweep_expired_holds`: try the advisory lock, then one statement over all expired holds.
Source: migration `130_fn_sweep_expired_holds`. Kind: D. Fidelity: exact -/
def sweepExpiredHolds (σ : Store) (now : Time) : Pc → Option Stmt
  | .start =>
    if σ.advisory.isSome then some (.select (.ret (.swept 0 true)))
    else some (.tryAdvisoryLock .sweepSnapshot)
  | .sweepSnapshot =>
    some (.select (.sweepRun ((σ.seats.committed.select (·.expiredAt now)).map Seat.id)))
  | .sweepRun snapshot =>
    let u := sweepSeatsUpdate snapshot now
    let targets := σ.seats.committed.select u.cond
    some (.update u (sweepRowsUpdate targets) (.ret (.swept targets.length false)))
  | _ => none

/-! ## `charge` -/

/-- `charge`: a row for the key answers for itself, else a new row records the draw. A `pending`
row is never written; the source falls through to the insert. Source:
`lib/payment/mock-service.ts` `charge`, migration `050_payments`. Kind: D. Fidelity: exact -/
def charge (σ : Store) (ch : Choice) (amount : ℕ) (k : IdempotencyKey) : Pc → Option Stmt
  | .start =>
    match σ.payments.rows.find? fun p => p.idempotencyKey == k with
    | none => some (.select .chargeInsert)
    | some p =>
      match p.status with
      | .succeeded => some (.select (.ret (.paid p.id true)))
      | .failed => some (.select (.ret (.paymentError (p.errorCode.getD .paymentDeclined))))
      | .pending => some (.select .chargeInsert)
  | .chargeInsert =>
    if amount = 0 then some .raise
    else match ch.gateway with
    | none => some (.insertPayment ⟨ch.uuid, k, amount, .succeeded, none⟩ (.ret (.paid ch.uuid false)))
    | some code =>
      some (.insertPayment ⟨ch.uuid, k, amount, .failed, some code⟩ (.ret (.paymentError code)))
  | _ => none

/-! ## Single statements -/

/-- `idempotency_check`, whose one statement is taken as atomic. Source: migration
`140_fn_idempotency_check`. Kind: D. Fidelity: exact for calls that do not overlap -/
def idempotencyCheck (σ : Store) (now : Time) (k : IdempotencyKey) (user hash : String) :
    Pc → Option Stmt
  | .start =>
    match σ.idempotencyKeys.find? k with
    | some row => some (.select (.ret (.idempotency row false)))
    | none =>
      let row : IdempotencyRow := ⟨k, user, hash, none, none, now⟩
      some (.insertKey row (.ret (.idempotency row true)))
  | _ => none

/-- The row `createBooking` inserts. Source: `lib/db/repositories/bookings.ts` `createBooking`,
migration `060_bookings` (defaults). Kind: D. Fidelity: exact -/
def newBooking (id : BookingId) (args : CreateBookingArgs) (now : Time) : Booking where
  id := id
  idempotencyKey := args.idempotencyKey
  trainId := args.trainId
  seatId := none
  passengerName := args.passengerName
  passengerPhone := args.passengerPhone
  pricePaise := args.pricePaise
  status := .pending
  failureReason := none
  paymentId := none
  createdAt := now
  confirmedAt := none

/-- `createBooking`: the `CHECK`s and the foreign key to `trains`; the unique key is checked by
the insertion. Source: `lib/db/repositories/bookings.ts` `createBooking`, migration `060_bookings`.
Kind: D. Fidelity: exact -/
def createBooking (σ : Store) (now : Time) (ch : Choice) (args : CreateBookingArgs) :
    Pc → Option Stmt
  | .start =>
    if bookingChecks args.passengerName args.passengerPhone && σ.trains.contains args.trainId then
      some (.insertBooking (newBooking ch.uuid args now) (.ret (.created ch.uuid)))
    else some .raise
  | _ => none

/-- The `UPDATE` of `write_idempotency_response`. Source: migration
`150_fn_write_idempotency_response`. Kind: D. Fidelity: exact -/
def writeResponseUpdate (k : IdempotencyKey) (status : ℕ) (body : CachedBody) :
    Update IdempotencyRow where
  cond r := r.idempotencyKey == k
  set r := { r with responseStatus := some status, responseBody := some body }
  key_set _ := rfl

/-- The `UPDATE` of `markDlqRetried`. Source: `lib/db/repositories/dlq.ts`. Kind: D.
Fidelity: exact -/
def markRetriedUpdate (id : ℕ) (now : Time) : Update DlqJob where
  cond j := j.id == id
  set j := { j with retriedAt := some now }
  key_set _ := rfl

/-- `insertDlqJob`: one row a message id (`ON CONFLICT (qstash_message_id) DO NOTHING`).
Source: `lib/db/repositories/dlq.ts` `insertDlqJob`. Kind: D. Fidelity: exact -/
def insertDlqJob (σ : Store) (ch : Choice) (m : MessageId) (payload : AllocateJobPayload)
    (reason : String) (attempts : ℕ) : Pc → Option Stmt
  | .start =>
    if σ.dlqJobs.rows.any fun j => j.qstashMessageId == m then some (.select (.ret (.dlqInserted none)))
    else some (.insertDlqJob ⟨ch.uuid, m, payload, reason, attempts, none, none⟩
      (.ret (.dlqInserted (some ch.uuid))))
  | _ => none

/-! ## All calls -/

/-- The next statement of an execution. Source: none: infrastructure (dispatch). Kind: D -/
def stmt (σ : Store) (i : ℕ) (now : Time) (ch : Choice) : Call → Pc → Option Stmt
  | .getBookingById b, .start => some (.select (.ret (.booking (σ.bookings.committed.find? b))))
  | .getBookingById _, _ => none
  | .allocateSeat train b passenger hold, pc => σ.allocateSeat i now ch train b passenger hold pc
  | .confirmBooking b seat payment, pc => σ.confirmBooking now b seat payment pc
  | .releaseHold b reason, pc => σ.release b (some reason) pc
  | .releaseHoldRetryable b, pc => σ.release b none pc
  | .releaseHoldTerminal b reason, pc => σ.release b (some reason) pc
  | .sweepExpiredHolds, pc => σ.sweepExpiredHolds now pc
  | .failUnpublished b, .start =>
    some (.update .skip (failRowUpdate b "upstream_publish_failure") (.ret .unit))
  | .failUnpublished _, _ => none
  | .idempotencyCheck k user hash, pc => σ.idempotencyCheck now k user hash pc
  | .createBooking args, pc => σ.createBooking now ch args pc
  | .writeIdempotencyResponse k status body, .start =>
    some (.updateKeys (writeResponseUpdate k status body) (.ret .unit))
  | .writeIdempotencyResponse .., _ => none
  | .charge amount k, pc => σ.charge ch amount k pc
  | .insertDlqJob m payload reason attempts, pc => σ.insertDlqJob ch m payload reason attempts pc
  | .getDlqJobById id, .start => some (.select (.ret (.dlqJob (σ.dlqJobs.find? id))))
  | .getDlqJobById _, _ => none
  | .markDlqRetried id, .start => some (.updateDlqJobs (markRetriedUpdate id now) (.ret .unit))
  | .markDlqRetried _, _ => none

end Store

end TrainsAndTracks
