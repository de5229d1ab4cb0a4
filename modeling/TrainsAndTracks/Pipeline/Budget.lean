import TrainsAndTracks.Pipeline.Tickets
import TrainsAndTracks.Store.Executes

/-!
# The retry budget of a booking whose payments fail

One delivery after the other, each with a charge that is rejected, nothing else running.

* `Handling` — the handler of one delivery: its `await`, the store, and the rejections so far.
  `Handling.Step` is one `await`, with its call executed alone; the charge is rejected with any error and
  may leave any payments behind.
* `Stage` — what the tables are at each `await`, from those at the start of the delivery.
* `Spends` — what a delivery has done when it answers.
* `pool_changes` — a booking that held a seat at the start gives it back.
* `budget_spent` — every delivery up to the terminal one gets as far as the charge, and leaves no hold.
-/

namespace TrainsAndTracks

open Found

/-! ## Deliveries -/

/-- What `paymentPolicy.execute(charge)` rejects with: a `PaymentError`, or (`none`) any other error. Source:
`lib/payment/mock-service.ts` `PaymentError`, `app/api/worker/allocate/route.ts` (step 6). Kind: D -/
abbrev Rejection := Option PaymentErrorCode

/-- The `catch` of step 6. Source: `app/api/worker/allocate/route.ts` (step 6). Kind: D. Fidelity: exact -/
def WorkerPc.rejected (retried : ℕ) : Rejection → WorkerPc
  | some code => onPaymentError retried code
  | none => onOtherError retried

/-- The handler of a delivery, under way. Source: `app/api/worker/allocate/route.ts` `handler`. Kind: D -/
structure Handling where
  pc : WorkerPc
  store : Store
  rejections : List Rejection

namespace Handling

/-- One `await` of the handler: its call is executed alone and succeeds, unless it is the charge, which is
rejected. Time may pass. Source: `app/api/worker/allocate/route.ts` `handler`. Kind: D -/
inductive Step (hold : ℕ) (d : Delivery) : Handling → Handling → Prop
  | call {pc σ log call r τ pc'} (hcall : WorkerPc.call hold d.job pc = some call)
      (hne : ∀ price seat, pc ≠ .charge price seat) (hexec : Store.Executed σ call r τ)
      (hreply : pc.onReply d.retried d.job τ.now r = some pc') : Step hold d ⟨pc, σ, log⟩ ⟨pc', τ, log⟩
  | charge {price seat σ log} (e : Rejection) (payments : Table Payment) :
      Step hold d ⟨.charge price seat, σ, log⟩
        ⟨.rejected d.retried e, { σ with payments := payments }, log ++ [e]⟩
  | tick {pc σ log} (δ : ℕ) :
      Step hold d ⟨pc, σ, log⟩ ⟨pc, { σ with now := σ.now + δ }, log⟩

/-- The handler has run from step 2, with the chaos gate passed, to its answer. Source:
`app/api/worker/allocate/route.ts` `handler`. Kind: D -/
def Handled (hold : ℕ) (d : Delivery) (σ : Store) (h : Handling) : Prop :=
  Relation.ReflTransGen (Step hold d) ⟨.parse d.job, σ, []⟩ h ∧ ∃ answer, h.pc = .respond answer

/-- Consecutive deliveries of a message, from the `n`th retry on. Source: `infra/qstash/publisher.ts`
(`retries: 3`). Kind: D -/
def Tries (hold : ℕ) (m : MessageId) (job : AllocateJobPayload) : ℕ → Store → List Handling → Prop
  | _, _, [] => True
  | n, σ, h :: hs => Handled hold ⟨m, n, job⟩ σ h ∧ Tries hold m job (n + 1) h.store hs

/-- A rejection that the handler takes for permanent, or the last one. Source:
`app/api/worker/allocate/route.ts` (step 6, `isPermanent`, `isLastAttempt`). Kind: D. Fidelity: exact -/
def Terminal (retried : ℕ) (e : Rejection) : Prop := e = some .paymentDeclined ∨ 3 ≤ retried

end Handling

namespace Store

/-- The `AVAILABLE` seats. Source: migration `030_seats`. Kind: D -/
def availableSeats (σ : Store) : Set SeatId :=
  {k | ∃ s, σ.seats.committed.find? k = some s ∧ s.status = .available}

/-- The seats that are `RESERVED` for the booking. Source: migration `030_seats`. Kind: D -/
def heldSeats (σ : Store) (b : BookingId) : Set SeatId :=
  {k | ∃ s, σ.seats.committed.find? k = some s ∧ s.heldFor b = true}

/-- The row of the key, if it caches a `FAILED` body of the job. Source:
`app/api/worker/allocate/route.ts` (step 6). Kind: D -/
def CachesFailure (σ : Store) (job : AllocateJobPayload) : Prop :=
  ∃ row reason, σ.idempotencyKeys.find? job.idempotencyKey = some row ∧ row.responseStatus = some 200 ∧
    row.responseBody = some (.failed job.bookingId reason (some job.trainId))

end Store

namespace Handling

/-- What a delivery that found `σ` and whose charge was rejected with `e` has done when it answers: it holds
no seat, and the free seats are those there were and those the booking held. If the rejection is terminal
it answers 489, the booking is `FAILED` and its key says so; else it answers 500 and the booking is
`PENDING`. Source: `app/api/worker/allocate/route.ts` (step 6). Kind: D -/
structure Spends (d : Delivery) (σ : Store) (e : Rejection) (answer : WorkerResponse) (τ : Store) :
    Prop where
  unheld : τ.heldSeats d.job.bookingId = ∅
  pool : τ.availableSeats = σ.availableSeats ∪ σ.heldSeats d.job.bookingId
  retryable : ¬ Terminal d.retried e → answer.status = 500 ∧ τ.HasStatus d.job.bookingId .pending
  terminal : Terminal d.retried e →
    answer.status = 489 ∧ τ.HasStatus d.job.bookingId .failed ∧ τ.CachesFailure d.job

/-- A delivery gets as far as the charge. Source: `app/api/worker/allocate/route.ts` (steps 2 to 4).
Kind: D -/
structure Ready (σ : Store) (job : AllocateJobPayload) : Prop where
  valid : job.valid = true
  idle : σ.Idle
  booking : σ.HasStatus job.bookingId .pending
  key : ∃ row, σ.idempotencyKeys.find? job.idempotencyKey = some row
  seat : ∃ s ∈ σ.seats.committed, s.trainId = job.trainId ∧ s.status = .available

/-- What the allocation makes of the seats: nothing, or a free one is taken for the booking. Source:
migration `100_fn_allocate_seat`. Kind: D -/
inductive Took (σ : Store) (b : BookingId) : Versioned ℕ Seat → Prop
  | kept : Took σ b σ.seats
  | fresh {s passenger t} (hs : s ∈ σ.seats.committed) (hfree : s.status = .available) :
      Took σ b (σ.seats.modify (Store.reserve s.id b passenger t))

/-- The tables at each `await` of a delivery that found `σ`. Source: `app/api/worker/allocate/route.ts`
(steps 3, 4 and 6). Kind: D -/
inductive Stage (d : Delivery) (σ : Store) :
    WorkerPc → List Rejection → Versioned ℕ Seat → Versioned ℕ Booking → Table IdempotencyRow → Prop
  | parsed : Stage d σ .getBooking [] σ.seats σ.bookings σ.idempotencyKeys
  | found {price} : Stage d σ (.allocate price) [] σ.seats σ.bookings σ.idempotencyKeys
  | held {price seat w} (htook : Took σ d.job.bookingId w) :
      Stage d σ (.charge price seat) [] w σ.bookings σ.idempotencyKeys
  | failing {f e w} (htook : Took σ d.job.bookingId w) (hterminal : Terminal d.retried e)
      (hanswer : f.answer.status = 489) :
      Stage d σ (.releaseFailed f) [e] w σ.bookings σ.idempotencyKeys
  | retrying {answer e w} (htook : Took σ d.job.bookingId w) (hterminal : ¬ Terminal d.retried e)
      (hanswer : answer.status = 500) :
      Stage d σ (.releaseForRetry answer) [e] w σ.bookings σ.idempotencyKeys
  | failed {f e w} (htook : Took σ d.job.bookingId w) (hterminal : Terminal d.retried e)
      (hanswer : f.answer.status = 489) :
      Stage d σ (.commitFailed f) [e] (w.modify (Store.freeHeld d.job.bookingId))
        (σ.bookings.modify (Store.failRowUpdate d.job.bookingId f.reason)) σ.idempotencyKeys
  | retried {answer e w} (htook : Took σ d.job.bookingId w) (hterminal : ¬ Terminal d.retried e)
      (hanswer : answer.status = 500) :
      Stage d σ (.respond answer) [e] (w.modify (Store.freeHeld d.job.bookingId)) σ.bookings
        σ.idempotencyKeys
  | ended {f e w} (htook : Took σ d.job.bookingId w) (hterminal : Terminal d.retried e)
      (hanswer : f.answer.status = 489) :
      Stage d σ (.respond f.answer) [e] (w.modify (Store.freeHeld d.job.bookingId))
        (σ.bookings.modify (Store.failRowUpdate d.job.bookingId f.reason))
        (σ.withResponse d.job.idempotencyKey 200 (WorkerPc.failedBody d.job f)).idempotencyKeys

/-- A delivery is at the stage of its `await`, and nobody has locked a row. Source: none: infrastructure.
Kind: D -/
structure Under (d : Delivery) (σ : Store) (h : Handling) : Prop where
  stage : Stage d σ h.pc h.rejections h.store.seats h.store.bookings h.store.idempotencyKeys
  idle : h.store.Idle

/-! ## One `await` -/

section step

variable {hold : ℕ} {d : Delivery} {σ : Store} {h h' : Handling}

/-- Where the `catch` of step 6 goes. Source: `app/api/worker/allocate/route.ts` (step 6). Kind: L -/
theorem rejected_cases (retried : ℕ) (e : Rejection) :
    (Terminal retried e ∧ ∃ f, WorkerPc.rejected retried e = .releaseFailed f ∧ f.answer.status = 489) ∨
    (¬ Terminal retried e ∧ ∃ answer, WorkerPc.rejected retried e = .releaseForRetry answer ∧
      answer.status = 500) := by
  cases e with
  | some code =>
    have hiff : Terminal retried (some code) ↔ code = .paymentDeclined ∨ 3 ≤ retried := by
      simp [Terminal]
    rw [hiff]
    by_cases hterminal : code = .paymentDeclined ∨ 3 ≤ retried
    · exact .inl ⟨hterminal, _, if_pos hterminal, rfl⟩
    · exact .inr ⟨hterminal, _, if_neg hterminal, rfl⟩
  | none =>
    have hiff : Terminal retried none ↔ 3 ≤ retried := by simp [Terminal]
    rw [hiff]
    by_cases hlast : 3 ≤ retried
    · exact .inl ⟨hlast, _, if_pos hlast, rfl⟩
    · exact .inr ⟨hlast, _, if_neg hlast, rfl⟩

/-- **One call of the handler.** Source: `app/api/worker/allocate/route.ts` (steps 3, 4 and 6). Kind: L -/
theorem Stage.call {pc pc' : WorkerPc} {log : List Rejection} {τ τ' : Store} {call : Call} {r : Reply}
    {seats : Versioned ℕ Seat} {bookings : Versioned ℕ Booking} {keys : Table IdempotencyRow}
    (hready : Ready σ d.job) (hstage : Stage d σ pc log seats bookings keys) (hidle : τ.Idle)
    (hseats : τ.seats = seats) (hbookings : τ.bookings = bookings) (hkeys : τ.idempotencyKeys = keys)
    (hcall : WorkerPc.call hold d.job pc = some call) (hne : ∀ price seat, pc ≠ .charge price seat)
    (hexec : Store.Executed τ call r τ')
    (hreply : pc.onReply d.retried d.job τ'.now r = some pc') : Under d σ ⟨pc', τ', log⟩ := by
  have hl := hidle.locks
  cases hstage with
  | parsed =>
    cases hcall
    obtain ⟨rfl, hleaves⟩ := Store.executed_getBookingById hl hexec
    obtain ⟨row, hrow, hpending⟩ := hready.booking
    rw [hbookings, hrow] at hreply
    simp only [WorkerPc.onReply, hpending, if_true, Option.some.injEq] at hreply
    subst hreply
    refine ⟨?_, hleaves.idle hidle.seat_lock hidle.booking_lock⟩
    rw [hleaves.seats, hleaves.bookings, hleaves.idempotencyKeys, hseats, hbookings, hkeys]
    exact .found
  | found =>
    cases hcall
    rcases Store.executed_allocateSeat hl hexec with ⟨s, -, -, -, rfl, hleaves⟩ |
      ⟨-, ⟨hpick, -, -⟩ | ⟨s, hpick, rfl, hleaves⟩⟩
    · cases hreply
      refine ⟨?_, hleaves.idle hidle.seat_lock hidle.booking_lock⟩
      rw [hleaves.seats, hleaves.bookings, hleaves.idempotencyKeys, hseats, hbookings, hkeys]
      exact .held .kept
    · obtain ⟨s, hs, htrain, hfree⟩ := hready.seat
      rw [← hseats] at hs
      exact absurd hpick (hidle.pickAvailable_ne_none hs htrain hfree)
    · cases hreply
      refine ⟨?_, hleaves.idle hidle.seat_lock hidle.booking_lock⟩
      obtain ⟨hs, -, hfree⟩ := Store.pickAvailable_eq_some hpick
      rw [hseats] at hs
      rw [hleaves.seats, hleaves.bookings, hleaves.idempotencyKeys, hseats, hbookings, hkeys]
      exact .held (.fresh hs hfree)
  | held => exact absurd rfl (hne _ _)
  | failing htook hterminal hanswer =>
    cases hcall
    obtain ⟨rfl, hleaves⟩ := Store.executed_release hl rfl hexec
    cases hreply
    refine ⟨?_, hleaves.idle hidle.seat_lock hidle.booking_lock⟩
    rw [hleaves.seats, hleaves.bookings, hleaves.idempotencyKeys, hseats, hbookings, hkeys]
    exact .failed htook hterminal hanswer
  | retrying htook hterminal hanswer =>
    cases hcall
    obtain ⟨rfl, hleaves⟩ := Store.executed_release hl rfl hexec
    cases hreply
    refine ⟨?_, hleaves.idle hidle.seat_lock hidle.booking_lock⟩
    have hskip : σ.bookings.modify .skip = σ.bookings := Versioned.modify_eq_self fun _ _ => rfl
    rw [hleaves.seats, hleaves.bookings, hleaves.idempotencyKeys, hseats, hbookings, hkeys,
      Option.elim_none, hskip]
    exact .retried htook hterminal hanswer
  | failed htook hterminal hanswer =>
    cases hcall
    obtain ⟨rfl, hleaves⟩ := Store.executed_writeIdempotencyResponse hl hexec
    cases hreply
    refine ⟨?_, hleaves.idle hidle.seat_lock hidle.booking_lock⟩
    rw [hleaves.seats, hleaves.bookings, hleaves.idempotencyKeys, hseats, hbookings,
      Store.withResponse_congr hkeys]
    exact .ended htook hterminal hanswer
  | retried => cases hcall
  | ended => cases hcall

/-- **The charge is rejected.** Source: `app/api/worker/allocate/route.ts` (step 6). Kind: L -/
theorem Stage.rejected {price : ℕ} {seat : SeatId} {log : List Rejection} {seats : Versioned ℕ Seat}
    {bookings : Versioned ℕ Booking} {keys : Table IdempotencyRow}
    (h : Stage d σ (.charge price seat) log seats bookings keys) (e : Rejection) :
    Stage d σ (.rejected d.retried e) (log ++ [e]) seats bookings keys := by
  cases h with
  | held htook =>
    rcases rejected_cases d.retried e with ⟨hterminal, f, heq, hanswer⟩ | ⟨hterminal, answer, heq, hanswer⟩
    · rw [heq]
      exact .failing htook hterminal hanswer
    · rw [heq]
      exact .retrying htook hterminal hanswer

/-- **One `await`** keeps the delivery at its stage. Source: `app/api/worker/allocate/route.ts` `handler`.
Kind: L -/
theorem Under.step (hready : Ready σ d.job) (hu : Under d σ h) (hs : Step hold d h h') : Under d σ h' := by
  cases hs with
  | call hcall hne hexec hreply =>
    exact hu.stage.call hready hu.idle rfl rfl rfl hcall hne hexec hreply
  | charge e payments => exact ⟨hu.stage.rejected e, hu.idle.seats, hu.idle.bookings⟩
  | tick δ => exact ⟨hu.stage, hu.idle.seats, hu.idle.bookings⟩

/-- Step 2 passes. Source: `app/api/worker/allocate/route.ts` (step 2). Kind: L -/
theorem under_start (hready : Ready σ d.job) : Under d σ ⟨.parse d.job, σ, []⟩ := by
  have hparse : WorkerPc.parse d.job = .getBooking := if_pos hready.valid
  rw [hparse]
  exact ⟨.parsed, hready.idle⟩

/-- **A whole delivery.** Source: `app/api/worker/allocate/route.ts` `handler`. Kind: L -/
theorem under_of_steps (hready : Ready σ d.job)
    (hsteps : Relation.ReflTransGen (Step hold d) ⟨.parse d.job, σ, []⟩ h) : Under d σ h := by
  induction hsteps with
  | refl => exact under_start hready
  | tail _ hs ih => exact ih.step hready hs

end step

/-! ## What a delivery leaves -/

section leaves

variable {d : Delivery} {σ τ : Store} {b : BookingId} {w : Versioned ℕ Seat}

/-- **A seat after the release**: free if it was free or held, and not held. Source: migrations
`100_fn_allocate_seat`, `20260418000000_split_release_hold`. Kind: L -/
theorem Took.freed_cases (h : Took σ b w) {k : SeatId} {s : Seat} (hs : σ.seats.committed.find? k = some s) :
    ∃ s', (w.modify (Store.freeHeld b)).committed.find? k = some s' ∧ s'.trainId = s.trainId ∧
      (s'.status = .available ↔ s.status = .available ∨ s.heldFor b = true) ∧ s'.heldFor b = false := by
  have hfreed : ∀ (r : Seat), w.committed.find? k = some r → (w.modify (Store.freeHeld b)).committed.find? k =
      some ((Store.freeHeld b).apply r) := by
    intro r hr
    rw [Versioned.find?_modify, hr]
    rfl
  have hkept : ∀ (r : Seat), r.trainId = s.trainId →
      (r.heldFor b = true → s.status = .available ∨ s.heldFor b = true) →
      (r.heldFor b = false → (r.status = .available ↔ s.status = .available ∨ s.heldFor b = true)) →
      ((Store.freeHeld b).apply r).trainId = s.trainId ∧
        (((Store.freeHeld b).apply r).status = .available ↔ s.status = .available ∨ s.heldFor b = true) ∧
        ((Store.freeHeld b).apply r).heldFor b = false := by
    intro r htrain hheld hfree
    by_cases hr : r.heldFor b = true
    · have happly : (Store.freeHeld b).apply r = Store.freed r := if_pos hr
      rw [happly]
      exact ⟨htrain, iff_of_true rfl (hheld hr), rfl⟩
    · have happly : (Store.freeHeld b).apply r = r := if_neg hr
      have hr' : r.heldFor b = false := by simpa using hr
      rw [happly]
      exact ⟨htrain, hfree hr', hr'⟩
  have hself : s.heldFor b = false →
      (s.status = .available ↔ s.status = .available ∨ s.heldFor b = true) := by
    intro hno
    simp [hno]
  cases h with
  | kept => exact ⟨_, hfreed s hs, hkept s rfl .inr hself⟩
  | @fresh s₀ passenger t hs₀ hfree =>
    let u := Store.reserve s₀.id b passenger t
    have hrow : (σ.seats.modify u).committed.find? k = some (u.apply s) := by
      rw [Versioned.find?_modify, hs]
      rfl
    refine ⟨_, hfreed _ hrow, ?_⟩
    by_cases hid : s.id = s₀.id
    · -- the seat that was taken was free
      obtain rfl : s = s₀ := Table.eq_of_key_eq (Table.mem_of_find? hs) hs₀ hid
      have htaken : u.apply s = u.set s := if_pos (beq_self_eq_true s.id)
      rw [htaken]
      have hheld : (u.set s).heldFor b = true := Seat.heldFor_iff.mpr ⟨rfl, rfl⟩
      exact hkept (u.set s) rfl (fun _ => .inl hfree) fun hno => by rw [hheld] at hno; cases hno
    · have hsame : u.apply s = s := if_neg (by simpa [u, Store.reserve] using hid)
      rw [hsame]
      exact hkept s rfl .inr hself

/-- The seats there are stay. Source: none: infrastructure. Kind: L -/
theorem Took.find?_isSome (h : Took σ b w) (k : SeatId) :
    ((w.modify (Store.freeHeld b)).committed.find? k).isSome = (σ.seats.committed.find? k).isSome := by
  have hmodify : ∀ (v : Versioned ℕ Seat) (u : Update Seat),
      ((v.modify u).committed.find? k).isSome = (v.committed.find? k).isSome := by
    intro v u
    rw [Versioned.find?_modify, Option.isSome_map]
  rw [hmodify]
  cases h with
  | kept => rfl
  | fresh => exact hmodify _ _

/-- The free seats after a delivery. Source: migration `20260418000000_split_release_hold`. Kind: L -/
theorem Took.pool (h : Took σ b w) (hτ : τ.seats = w.modify (Store.freeHeld b)) :
    τ.heldSeats b = ∅ ∧ τ.availableSeats = σ.availableSeats ∪ σ.heldSeats b := by
  have hold : ∀ k s', τ.seats.committed.find? k = some s' → ∃ s, σ.seats.committed.find? k = some s ∧
      (s'.status = .available ↔ s.status = .available ∨ s.heldFor b = true) ∧ s'.heldFor b = false := by
    intro k s' hs'
    rw [hτ] at hs'
    obtain ⟨s, hs⟩ := Option.isSome_iff_exists.mp ((h.find?_isSome k).symm.trans (by rw [hs']; rfl))
    obtain ⟨s'', hs'', -, hiff, hno⟩ := h.freed_cases hs
    obtain rfl := Option.eq_some_unique hs' hs''
    exact ⟨s, hs, hiff, hno⟩
  constructor
  · refine Set.eq_empty_of_forall_notMem fun k hk => ?_
    obtain ⟨s', hs', hheld⟩ := hk
    obtain ⟨_, -, -, hno⟩ := hold k s' hs'
    rw [hno] at hheld
    cases hheld
  · ext k
    constructor
    · rintro ⟨s', hs', hfree⟩
      obtain ⟨s, hs, hiff, -⟩ := hold k s' hs'
      exact (hiff.mp hfree).imp (fun h => ⟨s, hs, h⟩) fun h => ⟨s, hs, h⟩
    · intro hk
      obtain ⟨s, hs, hor⟩ : ∃ s, σ.seats.committed.find? k = some s ∧
          (s.status = .available ∨ s.heldFor b = true) := by
        rcases hk with ⟨s, hs, hfree⟩ | ⟨s, hs, hheld⟩
        · exact ⟨s, hs, .inl hfree⟩
        · exact ⟨s, hs, .inr hheld⟩
      obtain ⟨s', hs', -, hiff, -⟩ := h.freed_cases hs
      exact ⟨s', by rw [hτ]; exact hs', hiff.mpr hor⟩

/-- The booking is failed. Source: migration `20260418000000_split_release_hold`
(`release_hold_terminal`). Kind: L -/
theorem hasStatus_failed {reason : String} (hpending : σ.HasStatus b .pending)
    (hτ : τ.bookings = σ.bookings.modify (Store.failRowUpdate b reason)) : τ.HasStatus b .failed := by
  obtain ⟨row, hrow, hst⟩ := hpending
  have hcond : (Store.failRowUpdate b reason).cond row = true := by
    have hid : row.id = b := Table.key_of_find? hrow
    simp [Store.failRowUpdate, hid, hst]
  refine ⟨(Store.failRowUpdate b reason).set row, ?_, rfl⟩
  rw [hτ]
  exact Versioned.find?_modify_of hrow hcond

/-- The failure is cached. Source: `app/api/worker/allocate/route.ts` (step 6). Kind: L -/
theorem cachesFailure {job : AllocateJobPayload} {f : TerminalFailure}
    (hkey : ∃ row, σ.idempotencyKeys.find? job.idempotencyKey = some row)
    (hτ : τ.idempotencyKeys =
      (σ.withResponse job.idempotencyKey 200 (WorkerPc.failedBody job f)).idempotencyKeys) :
    τ.CachesFailure job := by
  obtain ⟨row, hrow⟩ := hkey
  let u := Store.writeResponseUpdate job.idempotencyKey 200 (WorkerPc.failedBody job f)
  have hcond : u.cond row = true := by
    have hid : row.idempotencyKey = job.idempotencyKey := Table.key_of_find? hrow
    simp [u, Store.writeResponseUpdate, hid]
  refine ⟨u.set row, f.bodyReason, ?_, rfl, rfl⟩
  rw [hτ]
  show (σ.idempotencyKeys.modify u.apply u.key_apply).find? _ = _
  rw [Table.find?_modify, hrow, Option.map_some, Update.apply, if_pos hcond]

/-- **What an answered delivery has done**, and that the next one is ready if the rejection was not
terminal. Source: `app/api/worker/allocate/route.ts` (step 6). Kind: L -/
theorem Under.spends {h : Handling} {answer : WorkerResponse} (hready : Ready σ d.job) (hu : Under d σ h)
    (hpc : h.pc = .respond answer) : ∃ e, h.rejections = [e] ∧ Spends d σ e answer h.store ∧
      (¬ Terminal d.retried e → Ready h.store d.job) := by
  obtain ⟨pc, τ, log⟩ := h
  obtain ⟨hstage, hidle⟩ := hu
  obtain rfl : pc = .respond answer := hpc
  dsimp only at hstage hidle ⊢
  generalize hseats : τ.seats = seats at hstage
  generalize hbookings : τ.bookings = bookings at hstage
  generalize hkeys : τ.idempotencyKeys = keys at hstage
  cases hstage with
  | @retried _ e w htook hterminal hanswer =>
    obtain ⟨hunheld, hpool⟩ := htook.pool hseats
    have hbooking : τ.HasStatus d.job.bookingId .pending := by
      unfold Store.HasStatus
      rw [hbookings]
      exact hready.booking
    refine ⟨e, rfl, ⟨hunheld, hpool, fun _ => ⟨hanswer, hbooking⟩, fun h => absurd h hterminal⟩, fun _ => ?_⟩
    refine ⟨hready.valid, hidle, hbooking, by rw [hkeys]; exact hready.key, ?_⟩
    obtain ⟨s, hs, htrain, hfree⟩ := hready.seat
    obtain ⟨s', hs', htrain', hiff, -⟩ := htook.freed_cases (Table.find?_of_mem hs)
    rw [← hseats] at hs'
    exact ⟨s', Table.mem_of_find? hs', htrain'.trans htrain, hiff.mpr (.inl hfree)⟩
  | @ended f e w htook hterminal hanswer =>
    obtain ⟨hunheld, hpool⟩ := htook.pool hseats
    refine ⟨e, rfl, ⟨hunheld, hpool, fun h => absurd hterminal h, fun _ => ?_⟩, fun h => absurd hterminal h⟩
    exact ⟨hanswer, hasStatus_failed hready.booking hbookings, cachesFailure hready.key hkeys⟩

end leaves

/-! ## Deliveries there are -/

section progress

variable {d : Delivery} {σ : Store} {h : Handling}

/-- How many `await`s are left at most. Source: `app/api/worker/allocate/route.ts` `handler`. Kind: D -/
def left : WorkerPc → ℕ
  | .respond _ => 0
  | .commitFailed _ | .releaseForRetry _ => 1
  | .releaseFailed _ => 2
  | .charge .. => 3
  | .allocate _ => 4
  | _ => 5

/-- **A delivery that has not answered gets on**, with a rejection `e` at the charge. Source:
`app/api/worker/allocate/route.ts` `handler`. Kind: L -/
theorem Under.advance (hold : ℕ) (hready : Ready σ d.job) (hu : Under d σ h)
    (hpc : ∀ answer, h.pc ≠ .respond answer) (e : Rejection) :
    ∃ h', Step hold d h h' ∧ left h'.pc < left h.pc ∧
      (h'.rejections = h.rejections ∨ h'.rejections = [e]) := by
  obtain ⟨pc, τ, log⟩ := h
  obtain ⟨hstage, hidle⟩ := hu
  dsimp only at hstage hidle hpc ⊢
  have hl := hidle.locks
  generalize hseats : τ.seats = seats at hstage
  generalize hbookings : τ.bookings = bookings at hstage
  generalize hkeys : τ.idempotencyKeys = keys at hstage
  obtain ⟨row, hrow, hpending⟩ := hready.booking
  cases hstage with
  | parsed =>
    obtain ⟨r, τ', hexec⟩ := Store.executes_getBookingById τ d.job.bookingId
    obtain ⟨rfl, -⟩ := Store.executed_getBookingById hl hexec
    have hreply : WorkerPc.getBooking.onReply d.retried d.job τ'.now
        (.booking (τ.bookings.committed.find? d.job.bookingId)) = some (.allocate row.pricePaise) := by
      rw [hbookings, hrow]
      exact congrArg some (if_pos hpending)
    exact ⟨_, .call rfl nofun hexec hreply, Nat.lt_succ_self 4, .inl rfl⟩
  | found =>
    have hrow' : τ.bookings.committed.find? d.job.bookingId = some row := by
      rw [hbookings]
      exact hrow
    obtain ⟨r, τ', hexec⟩ :=
      hidle.executes_allocateSeat hrow' d.job.trainId d.job.passengerName hold
    rcases Store.executed_allocateSeat hl hexec with ⟨s, -, -, -, rfl, -⟩ |
      ⟨-, ⟨hpick, -, -⟩ | ⟨s, -, rfl, -⟩⟩
    · exact ⟨_, .call rfl nofun hexec rfl, Nat.lt_succ_self 3, .inl rfl⟩
    · obtain ⟨s, hs, htrain, hfree⟩ := hready.seat
      rw [← hseats] at hs
      exact absurd hpick (hidle.pickAvailable_ne_none hs htrain hfree)
    · exact ⟨_, .call rfl nofun hexec rfl, Nat.lt_succ_self 3, .inl rfl⟩
  | held =>
    refine ⟨_, .charge e τ.payments, ?_, .inr rfl⟩
    rcases rejected_cases d.retried e with ⟨-, f, heq, -⟩ | ⟨-, answer, heq, -⟩
    · rw [heq]
      exact Nat.lt_succ_self 2
    · rw [heq]
      exact Nat.lt_of_succ_le (Nat.le_succ 2)
  | @failing f =>
    obtain ⟨r, τ', hexec⟩ := hidle.executes_release
      (.releaseHoldTerminal d.job.bookingId f.reason) rfl
    obtain ⟨rfl, -⟩ := Store.executed_release hl rfl hexec
    exact ⟨_, .call rfl nofun hexec rfl, Nat.lt_succ_self 1, .inl rfl⟩
  | retrying =>
    obtain ⟨r, τ', hexec⟩ := hidle.executes_release (.releaseHoldRetryable d.job.bookingId) rfl
    obtain ⟨rfl, -⟩ := Store.executed_release hl rfl hexec
    exact ⟨_, .call rfl nofun hexec rfl, Nat.lt_succ_self 0, .inl rfl⟩
  | @failed f =>
    obtain ⟨r, τ', hexec⟩ := Store.executes_writeIdempotencyResponse τ d.job.idempotencyKey 200
      (WorkerPc.failedBody d.job f)
    obtain ⟨rfl, -⟩ := Store.executed_writeIdempotencyResponse hl hexec
    exact ⟨_, .call rfl nofun hexec rfl, Nat.lt_succ_self 0, .inl rfl⟩
  | retried => exact absurd rfl (hpc _)
  | ended => exact absurd rfl (hpc _)

/-- A delivery under way comes to its answer. Source: `app/api/worker/allocate/route.ts` `handler`.
Kind: L -/
theorem Under.answers (hold : ℕ) (hready : Ready σ d.job) (e : Rejection) (hu : Under d σ h) :
    ∃ h', Relation.ReflTransGen (Step hold d) h h' ∧ (∃ answer, h'.pc = .respond answer) ∧
      (h'.rejections = h.rejections ∨ h'.rejections = [e]) := by
  let Logged : Handling → Prop := fun h' => h'.rejections = h.rejections ∨ h'.rejections = [e]
  have hadvance : ∀ h₁, Under d σ h₁ ∧ Logged h₁ → ¬ (∃ answer, h₁.pc = .respond answer) →
      ∃ h₂, Step hold d h₁ h₂ ∧ (Under d σ h₂ ∧ Logged h₂) ∧ left h₂.pc < left h₁.pc := by
    rintro h₁ ⟨hu₁, hlog₁⟩ hopen
    obtain ⟨h₂, hstep, hlt, hlog₂⟩ := hu₁.advance hold hready (fun answer hpc => hopen ⟨answer, hpc⟩) e
    refine ⟨h₂, hstep, ⟨hu₁.step hready hstep, ?_⟩, hlt⟩
    rcases hlog₂ with heq | heq
    · show h₂.rejections = h.rejections ∨ h₂.rejections = [e]
      rw [heq]
      exact hlog₁
    · exact .inr heq
  obtain ⟨h', hsteps, ⟨-, hlog⟩, hend⟩ := exists_end (fun h' : Handling => left h'.pc) hadvance ⟨hu, .inl rfl⟩
  exact ⟨h', hsteps, hend, hlog⟩

/-- **There is a delivery for each rejection.** Source: `app/api/worker/allocate/route.ts` `handler`.
Kind: L -/
theorem exists_handled (hold : ℕ) (hready : Ready σ d.job) (e : Rejection) :
    ∃ h, Handled hold d σ h ∧ h.rejections = [e] := by
  obtain ⟨h, hsteps, ⟨answer, hpc⟩, hlog⟩ := Under.answers hold hready e (under_start hready)
  refine ⟨h, ⟨hsteps, answer, hpc⟩, ?_⟩
  obtain ⟨e', heq, -⟩ := (under_of_steps hready hsteps).spends hready hpc
  rcases hlog with hempty | hlog
  · rw [heq] at hempty
    cases hempty
  · exact hlog

end progress

/-! ## Sequences of deliveries -/

section sequences

variable {hold : ℕ} {m : MessageId} {job : AllocateJobPayload} {σ : Store} {n : ℕ} {hs : List Handling}

/-- What was done to the free seats before, and then to nothing more. Source: none: infrastructure.
Kind: L -/
theorem Spends.trans {n n' : ℕ} {τ υ : Store} {e e' : Rejection} {answer answer' : WorkerResponse}
    (h : Spends ⟨m, n, job⟩ σ e answer τ) (h' : Spends ⟨m, n', job⟩ τ e' answer' υ) :
    Spends ⟨m, n', job⟩ σ e' answer' υ where
  unheld := h'.unheld
  pool := by
    rw [h'.pool, h.pool, h.unheld, Set.union_empty]
  retryable := h'.retryable
  terminal := h'.terminal

/-- **Every delivery up to the terminal one** is rejected once and leaves no hold. Source:
`app/api/worker/allocate/route.ts` (step 6). Kind: L -/
theorem spends_of_tries : ∀ (hs : List Handling) (n : ℕ) (σ : Store), Ready σ job →
    Tries hold m job n σ hs → ∀ i h, hs[i]? = some h →
    (∀ k < i, ∀ h', hs[k]? = some h' → ∀ e ∈ h'.rejections, ¬ Terminal (n + k) e) →
    ∃ e answer, h.rejections = [e] ∧ h.pc = .respond answer ∧ Spends ⟨m, n + i, job⟩ σ e answer h.store
  | [], _, _, _, _, _, _, hi, _ => by cases hi
  | h₀ :: hs, n, σ, hready, htries, i, h, hi, hbefore => by
    obtain ⟨⟨hsteps, answer, hpc⟩, hrest⟩ := htries
    obtain ⟨e₀, hlog, hspends, hnext⟩ :=
      (under_of_steps (d := ⟨m, n, job⟩) hready hsteps).spends hready hpc
    cases i with
    | zero =>
      cases hi
      exact ⟨e₀, answer, hlog, hpc, hspends⟩
    | succ i =>
      have hopen : ¬ Terminal n e₀ :=
        hbefore 0 (Nat.succ_pos i) h₀ rfl e₀ (by rw [hlog]; exact List.mem_singleton_self e₀)
      have hbefore' : ∀ k < i, ∀ h', hs[k]? = some h' → ∀ e ∈ h'.rejections, ¬ Terminal (n + 1 + k) e := by
        intro k hk h' hh' e he
        have hlater := hbefore (k + 1) (Nat.succ_lt_succ hk) h' hh' e he
        have hindex : n + 1 + k = n + (k + 1) := by omega
        rw [hindex]
        exact hlater
      obtain ⟨e, answer', hlog', hpc', hspends'⟩ :=
        spends_of_tries hs (n + 1) h₀.store (hnext hopen) hrest i h hi hbefore'
      have hindex : n + 1 + i = n + (i + 1) := by omega
      rw [hindex] at hspends'
      exact ⟨e, answer', hlog', hpc', hspends.trans hspends'⟩

/-- **There is a sequence for all rejections** of which only the last may be terminal. Source:
`infra/qstash/publisher.ts` (`retries: 3`). Kind: L -/
theorem exists_tries : ∀ (es : List Rejection) (n : ℕ) (σ : Store), Ready σ job →
    (∀ i e, es[i]? = some e → i + 1 < es.length → ¬ Terminal (n + i) e) →
    ∃ hs, Tries hold m job n σ hs ∧ hs.map Handling.rejections = es.map ([·])
  | [], _, _, _, _ => ⟨[], trivial, rfl⟩
  | e :: es, n, σ, hready, hopen => by
    obtain ⟨h, hhandled, hlog⟩ := exists_handled hold (d := ⟨m, n, job⟩) hready e
    obtain ⟨hsteps, answer, hpc⟩ := hhandled
    obtain ⟨e₀, hlog₀, -, hnext⟩ := (under_of_steps (d := ⟨m, n, job⟩) hready hsteps).spends hready hpc
    cases es with
    | nil => exact ⟨[h], ⟨⟨hsteps, answer, hpc⟩, trivial⟩, by simp [hlog]⟩
    | cons e' es =>
      rw [hlog] at hlog₀
      cases hlog₀
      have hready' := hnext (hopen 0 e rfl (by simp))
      obtain ⟨hs, htries, hmap⟩ := exists_tries (e' :: es) (n + 1) h.store hready' fun i e'' hi hlt => by
        have hlater := hopen (i + 1) e'' hi (by simpa using hlt)
        have hindex : n + 1 + i = n + (i + 1) := by omega
        rw [hindex]
        exact hlater
      exact ⟨h :: hs, ⟨⟨hsteps, answer, hpc⟩, htries⟩, by rw [List.map_cons, hmap, hlog]; rfl⟩

end sequences

/-! ## Messages -/

section messages

variable {cfg : Config} {s : Sys} {m : MessageId} {msg : Message}

/-- A message about a `PENDING` booking gets as far as the charge, if a seat is free. Source:
`app/api/book/route.ts` (step 9). Kind: L -/
theorem ready_of_reach (hreach : Sys.Reachable cfg s) (hmsg : s.messages[m]? = some msg)
    (hidle : s.store.Idle) (hpending : s.store.HasStatus msg.payload.bookingId .pending)
    (hseat : ∃ seat ∈ s.store.seats.committed, seat.trainId = msg.payload.trainId ∧
      seat.status = .available) : Ready s.store msg.payload := by
  have hinv := Sys.inv_of_reach hreach
  have hjob := hinv.messages m msg hmsg
  obtain ⟨row, hrow, hk, -⟩ := hjob.booked
  obtain ⟨krow, hkrow⟩ := hinv.store.keyed _ row hrow
  rw [hk] at hkrow
  exact ⟨hjob.valid, hidle, hpending, ⟨krow, hkrow⟩, hseat⟩

/-- Where no execution runs no row is locked. Source: none: infrastructure. Kind: L -/
theorem idle_of_ended (hreach : Sys.Reachable cfg s)
    (h : s.store.execs.all (Sys.ended ·.pc) = true) : s.store.Idle := by
  refine Store.idle_of_atEnd (Sys.inv_of_reach hreach).store.locks fun e he => ?_
  have hover : Sys.ended e.pc = true := List.all_eq_true.mp h e he
  generalize e.pc = pc at hover
  cases pc with
  | done => exact trivial
  | failed => exact trivial
  | _ => cases hover

/-- Message `m` can be delivered: no execution runs, its booking is `PENDING` and a seat is free. Source:
none: infrastructure. Kind: D -/
def deliverable (m : MessageId) (s : Sys) : Bool :=
  s.store.execs.all (Sys.ended ·.pc) && (s.messages[m]?).any fun msg =>
    (s.store.bookings.committed.find? msg.payload.bookingId).any (·.status == .pending) &&
      s.store.seats.committed.rows.any fun seat =>
        seat.trainId == msg.payload.trainId && seat.status == .available

/-- What the check says. Source: none: infrastructure. Kind: L -/
theorem of_deliverable (hreach : Sys.Reachable cfg s) (h : deliverable m s = true) :
    ∃ msg, s.messages[m]? = some msg ∧ s.store.Idle ∧
      s.store.HasStatus msg.payload.bookingId .pending ∧
      ∃ seat ∈ s.store.seats.committed, seat.trainId = msg.payload.trainId ∧ seat.status = .available := by
  obtain ⟨hended, hmsg⟩ := (Bool.and_eq_true _ _).mp h
  obtain ⟨msg, hmsg, hbooking⟩ := (Option.any_eq_true _ _).mp hmsg
  obtain ⟨hbooking, hseat⟩ := (Bool.and_eq_true _ _).mp hbooking
  obtain ⟨row, hrow, hst⟩ := (Option.any_eq_true _ _).mp hbooking
  obtain ⟨seat, hmem, hseat⟩ := List.any_eq_true.mp hseat
  simp only [Bool.and_eq_true, beq_iff_eq] at hseat hst
  exact ⟨msg, hmsg, idle_of_ended hreach hended, ⟨row, hrow, hst⟩, seat, hmem, hseat⟩

end messages

/-- Three deliveries crash at once and the fourth one after its allocation; the failure callback crashes
before its clean-up, and an operator has the message published again. Source: none: infrastructure.
Kind: D -/
def stranding : List Sys.Action :=
  Sys.accepting ++ [.deliver 0 0, .crash 1, .deliver 0 1, .crash 2, .deliver 0 2, .crash 3, .deliver 0 3,
    .chaos 4 none] ++ Sys.callReturns 4 3 1 ++ Sys.callReturns 4 4 2 ++ [.crash 4, .failureCallback 0] ++
    Sys.callReturns 5 5 1 ++ [.crash 5, .retryDlq 1] ++ Sys.callReturns 6 6 1 ++ [.publish 6 true true]

/-- Seat `12951-A1` is `RESERVED` for booking 1, which is `PENDING`, and message 1 is about it. Source:
none: infrastructure. Kind: D -/
def strands (s : Sys) : Bool :=
  (s.store.seats.committed.find? "12951-A1").any (·.heldFor 1) &&
    (s.messages[(1 : ℕ)]?).any (·.payload.bookingId == 1) && deliverable 1 s

/-- **A hold from before comes free.** For some reachable pipeline and `PENDING` booking, the free seats
after a delivery whose charge is rejected are not those at the start. Source: migration
`20260418000000_split_release_hold` (`release_hold_retryable`). Kind: P -/
theorem pool_changes : ¬ ∀ (cfg : Config) (s : Sys) (m : MessageId) (msg : Message),
    Sys.Reachable cfg s → s.messages[m]? = some msg → s.store.Idle →
    s.store.HasStatus msg.payload.bookingId .pending →
    (∃ seat ∈ s.store.seats.committed, seat.trainId = msg.payload.trainId ∧ seat.status = .available) →
    ∀ hs, Tries cfg.holdDurationSec m msg.payload 0 s.store hs → ∀ n h, hs[n]? = some h →
      (∀ k < n, ∀ h', hs[k]? = some h' → ∀ e ∈ h'.rejections, ¬ Terminal k e) →
      h.store.availableSeats = s.store.availableSeats := by
  intro hall
  have hrun : (Found.run (Sys.step Sys.config) Sys.opening stranding).map strands = some true := by
    decide +kernel
  obtain ⟨s, hreach, hcheck⟩ := reach_of_run Sys.initial_opening hrun
  simp only [strands, Bool.and_eq_true] at hcheck
  obtain ⟨⟨hheld, hbooking⟩, hdeliverable⟩ := hcheck
  obtain ⟨msg, hmsg, hidle, hpending, hseat⟩ := of_deliverable hreach hdeliverable
  obtain ⟨_, hmsg', hid⟩ := (Option.any_eq_true _ _).mp hbooking
  obtain rfl := Option.eq_some_unique hmsg hmsg'
  have hid : msg.payload.bookingId = 1 := beq_iff_eq.mp hid
  obtain ⟨seat, hseat₁, hheld⟩ := (Option.any_eq_true _ _).mp hheld
  have hready := ready_of_reach hreach hmsg hidle hpending hseat
  obtain ⟨h, hhandled, -⟩ := exists_handled Sys.config.holdDurationSec
    (d := ⟨1, 0, msg.payload⟩) hready none
  obtain ⟨hsteps, answer, hpc⟩ := hhandled
  have hpool := hall Sys.config s 1 msg hreach hmsg hidle hpending hseat [h]
    ⟨⟨hsteps, answer, hpc⟩, trivial⟩ 0 h rfl fun k hk => absurd hk (Nat.not_lt_zero k)
  obtain ⟨e, -, hspends, -⟩ := (under_of_steps hready hsteps).spends hready hpc
  -- the seat was held, and is free now
  have hfreed : ("12951-A1" : SeatId) ∈ h.store.availableSeats := by
    rw [hspends.pool]
    exact .inr ⟨seat, hseat₁, by rw [hid]; exact hheld⟩
  rw [hpool] at hfreed
  obtain ⟨_, hseat₂, hfree⟩ := hfreed
  obtain rfl := Option.eq_some_unique hseat₁ hseat₂
  have hreserved := (Seat.heldFor_iff.mp hheld).1
  rw [hfree] at hreserved
  cases hreserved

section messages

variable {cfg : Config} {s : Sys} {m : MessageId} {msg : Message}

/-- **Failing payments use the whole retry budget and leak nothing.** Let a message's booking be `PENDING`
and a seat of its train be free, with no transaction open. In any sequence of its deliveries with
`retried = 0, 1, …`, whatever each charge is rejected with: every delivery up to the terminal one has its
charge rejected once, and `Spends` says what it answers and leaves; the free seats are always those at the
start, and any that the booking held then. And there is such a sequence for any rejections of which only the
last is terminal. Source: `app/api/worker/allocate/route.ts` (step 6), migration
`20260418000000_split_release_hold`. Kind: P -/
theorem budget_spent (hreach : Sys.Reachable cfg s) (hmsg : s.messages[m]? = some msg)
    (hidle : s.store.Idle) (hpending : s.store.HasStatus msg.payload.bookingId .pending)
    (hseat : ∃ seat ∈ s.store.seats.committed, seat.trainId = msg.payload.trainId ∧
      seat.status = .available) :
    (∀ hs, Tries cfg.holdDurationSec m msg.payload 0 s.store hs → ∀ n h, hs[n]? = some h →
      (∀ k < n, ∀ h', hs[k]? = some h' → ∀ e ∈ h'.rejections, ¬ Terminal k e) →
      ∃ e answer, h.rejections = [e] ∧ h.pc = .respond answer ∧
        Spends ⟨m, n, msg.payload⟩ s.store e answer h.store) ∧
    ∀ es : List Rejection, (∀ n e, es[n]? = some e → n + 1 < es.length → ¬ Terminal n e) →
      ∃ hs, Tries cfg.holdDurationSec m msg.payload 0 s.store hs ∧
        hs.map Handling.rejections = es.map ([·]) := by
  have hready := ready_of_reach hreach hmsg hidle hpending hseat
  constructor
  · intro hs htries n h hn hbefore
    have hresult := spends_of_tries hs 0 s.store hready htries n h hn (by simpa using hbefore)
    simpa using hresult
  · intro es hopen
    exact exists_tries es 0 s.store hready (by simpa using hopen)

end messages

/-- The first three deliveries of a booking: a timeout, an open breaker and a decline, which fails it. Source:
`lib/payment/mock-service.ts` `PaymentError`. Kind: L -/
theorem budget_spent_declined : ∃ (s : Sys) (msg : Message) (hs : List Handling) (h : Handling)
    (answer : WorkerResponse), s.messages[(0 : ℕ)]? = some msg ∧
      Tries Sys.config.holdDurationSec 0 msg.payload 0 s.store hs ∧
      hs.map Handling.rejections = [[some .gatewayTimeout], [none], [some .paymentDeclined]] ∧
      hs[2]? = some h ∧ Spends ⟨0, 2, msg.payload⟩ s.store (some .paymentDeclined) answer h.store := by
  have hrun : (Found.run (Sys.step Sys.config) Sys.opening Sys.booking).map (deliverable 0) =
      some true := by decide +kernel
  obtain ⟨s, hreach, hcheck⟩ := reach_of_run Sys.initial_opening hrun
  obtain ⟨msg, hmsg, hidle, hpending, hseat⟩ := of_deliverable hreach hcheck
  obtain ⟨hspent, htried⟩ := budget_spent hreach hmsg hidle hpending hseat
  obtain ⟨hs, htries, hlog⟩ := htried [some .gatewayTimeout, none, some .paymentDeclined] (by
    intro n e hn hlt
    have hcases : n = 0 ∨ n = 1 := by simp at hlt; omega
    rcases hcases with rfl | rfl
    all_goals
      cases hn
      simp [Terminal])
  have hlogged : ∀ k : ℕ, (hs[k]?).map Handling.rejections =
      ([[some .gatewayTimeout], [none], [some .paymentDeclined]] : List (List Rejection))[k]? := fun k => by
    rw [← List.getElem?_map, hlog]
    rfl
  obtain ⟨h, hn, hrejected⟩ := Option.map_eq_some_iff.mp (hlogged 2)
  obtain ⟨e, answer, he, -, hspends⟩ := hspent hs htries 2 h hn (by
    intro k hk h' hh' e he
    have hcases : k = 0 ∨ k = 1 := by omega
    have hlogged := hlogged k
    rw [hh'] at hlogged
    rcases hcases with rfl | rfl
    all_goals
      simp only [Option.map_some, List.getElem?_cons_zero, List.getElem?_cons_succ,
        Option.some.injEq] at hlogged
      simp only [hlogged, List.mem_singleton] at he
      simp [he, Terminal])
  rw [hrejected] at he
  cases he
  exact ⟨s, msg, hs, h, answer, hmsg, htries, hlog, hn, hspends⟩

end Handling

end TrainsAndTracks
