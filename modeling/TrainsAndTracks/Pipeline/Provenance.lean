import TrainsAndTracks.Pipeline.Refusal

/-!
# Where things come from

What a row of `payments` or `bookings` says has a cause, which the run has left behind it: an execution that
returned, a payment, a handler, a message the broker gave up.

* `Store.Allocated` — an `allocate_seat` has returned the seat for the booking. Nobody is charged before,
  and a booking is confirmed with such a seat (`charged_after_allocation`).
* `Cause` — why a booking may be `FAILED`, one constructor for each reason the code gives. Every recorded
  reason has its cause, and only lost bookings have a reason (`reasons_caused`).
-/

namespace TrainsAndTracks

open Found

open Store (JobOk)

namespace Store

/-! ## What executions leave behind -/

/-- An `allocate_seat` has returned the seat for the booking. Source: migration `100_fn_allocate_seat`.
Kind: D -/
def Allocated (σ : Store) (b : BookingId) (seat : SeatId) : Prop :=
  ∃ (i : ℕ) (e : Exec) (train : TrainId) (passenger : String) (hold version : ℕ),
    σ.execs[i]? = some e ∧ e.call = .allocateSeat train b passenger hold ∧
      e.pc = .done (.allocated (some (seat, version)))

/-- An `allocate_seat` has returned no seat for the booking. Source: migration `100_fn_allocate_seat`.
Kind: D -/
def TurnedAway (σ : Store) (b : BookingId) : Prop :=
  ∃ (i : ℕ) (e : Exec) (train : TrainId) (passenger : String) (hold : ℕ),
    σ.execs[i]? = some e ∧ e.call = .allocateSeat train b passenger hold ∧ e.pc = .done (.allocated none)

/-- A sweep has run. Source: migration `130_fn_sweep_expired_holds`. Kind: D -/
def SweepRan (σ : Store) : Prop :=
  ∃ (i : ℕ) (e : Exec) (r : Reply),
    σ.execs[i]? = some e ∧ e.call = .sweepExpiredHolds ∧ e.pc = .done r

/-- The booking has the key. Source: migration `060_bookings`. Kind: D -/
def KeyOf (σ : Store) (b : BookingId) (k : IdempotencyKey) : Prop :=
  ∃ r, σ.bookings.committed.find? b = some r ∧ r.idempotencyKey = k

/-- The gateway has refused the key with `code`. Source: `lib/payment/mock-service.ts` `charge`. Kind: D -/
def Declined (σ : Store) (k : IdempotencyKey) (code : PaymentErrorCode) : Prop :=
  ∃ pay ∈ σ.payments, pay.status = .failed ∧ pay.idempotencyKey = k ∧
    pay.errorCode.getD .paymentDeclined = code

section left

variable {σ σ' : Store} {a : Action} {b : BookingId} {k : IdempotencyKey}

/-- What was allocated stays so. Source: none: infrastructure. Kind: L -/
theorem Allocated.step (hs : Stepped σ a σ') {seat : SeatId} (h : σ.Allocated b seat) :
    σ'.Allocated b seat := by
  obtain ⟨i, e, train, passenger, hold, version, he, hcall, hpc⟩ := h
  exact ⟨i, e, train, passenger, hold, version, hs.done_stays he hpc, hcall, hpc⟩

/-- Who was turned away stays so. Source: none: infrastructure. Kind: L -/
theorem TurnedAway.step (hs : Stepped σ a σ') (h : σ.TurnedAway b) : σ'.TurnedAway b := by
  obtain ⟨i, e, train, passenger, hold, he, hcall, hpc⟩ := h
  exact ⟨i, e, train, passenger, hold, hs.done_stays he hpc, hcall, hpc⟩

/-- A sweep that has run has run. Source: none: infrastructure. Kind: L -/
theorem SweepRan.step (hs : Stepped σ a σ') (h : σ.SweepRan) : σ'.SweepRan := by
  obtain ⟨i, e, r, he, hcall, hpc⟩ := h
  exact ⟨i, e, r, hs.done_stays he hpc, hcall, hpc⟩

/-- A booking keeps its key. Source: none: infrastructure. Kind: L -/
theorem KeyOf.mono (hle : Le σ σ') (h : σ.KeyOf b k) : σ'.KeyOf b k := by
  obtain ⟨r, hr, hk⟩ := h
  obtain ⟨r', hr', hg⟩ := hle.booking _ r hr
  exact ⟨r', hr', hg.idempotencyKey.trans hk⟩

/-- Who was refused stays so. Source: none: infrastructure. Kind: L -/
theorem Declined.mono (hle : Le σ σ') {code : PaymentErrorCode} (h : σ.Declined k code) :
    σ'.Declined k code := by
  obtain ⟨pay, hpay, hrest⟩ := h
  exact ⟨pay, hle.mem_payments hpay, hrest⟩

/-- A `PaymentError` is that of a payment of the key. Source: `lib/payment/mock-service.ts` `charge`.
Kind: D -/
def RefusedOk (σ : Store) (e : Exec) : Prop :=
  ∀ amount k code, e.call = .charge amount k →
    e.pc = .ret (.paymentError code) ∨ e.pc = .done (.paymentError code) → σ.Declined k code

/-- A row that says so is found. Source: `lib/payment/mock-service.ts` `charge`. Kind: L -/
theorem RefusedOk.of_select {i : ℕ} {e : Exec} {next : Pc} (hr : Runs σ i e.now e.call e.pc (.select next)) :
    RefusedOk (σ.goto i next) { e with pc := next } := by
  rintro amount k code hcall (rfl | rfl)
  · change e.call = .charge amount k at hcall
    rw [hcall] at hr
    generalize e.pc = pc at hr
    cases hr with
    | chargeRefused hp hk hst => exact ⟨_, hp, hst, hk, rfl⟩
  · exact absurd rfl (hr.next_ne_done _)

/-- A row that says so is inserted. Source: `lib/payment/mock-service.ts` `charge`. Kind: L -/
theorem RefusedOk.of_alone {i : ℕ} {e : Exec} {st : Stmt} (hr : Runs σ i e.now e.call e.pc st)
    (hst : transactional st = false) (hstored : Stored σ' st) :
    RefusedOk σ' { e with pc := nextOf st } := by
  rintro amount k code hcall (hret | hdone)
  · change e.call = .charge amount k at hcall
    rw [hcall] at hr
    generalize e.pc = pc at hr
    cases hr with
    | chargeDeclined =>
      cases hret
      exact ⟨_, Table.mem_of_find? hstored, rfl, rfl, rfl⟩
    | chargePaid => cases hret
    | _ => cases hst
  · exact absurd hdone (hr.next_ne_done _)

/-- **A refusal is on record**, from the statement that gives it on. Source:
`lib/payment/mock-service.ts` `charge`. Kind: L -/
theorem Stepped.refusedOk (hl : LocksOk σ) (hs : Stepped σ a σ')
    (h : ∀ (i : ℕ) (e : Exec), σ.execs[i]? = some e → RefusedOk σ e) :
    ∀ (i : ℕ) (e : Exec), σ'.execs[i]? = some e → RefusedOk σ' e := by
  have hle := hs.le hl
  refine hs.forall_execs (P := fun σ _ e => RefusedOk σ e) h ?_ ?_ ?_ ?_ ?_ ?_
  · intro i e _ _ hok amount k code hcall hpc
    exact (hok amount k code hcall hpc).mono hle
  · intro i e _ hidle amount k code _ hpc
    exact absurd hpc (not_returned hidle _)
  · intro i e next _ _ _ _ hr
    exact .of_select hr
  · intro i e us ub next _ _ _ _ _ _ hr _ _ amount k code hcall
    change e.call = .charge amount k at hcall
    rw [hcall] at hr
    generalize e.pc = pc at hr
    cases hr with
    | releaseSeatsOnly hrel | releaseSeatsThenRow hrel | releaseRow hrel => cases hrel
  · intro i e r _ hok hret _ _ _ amount k code hcall hpc
    rcases hpc with hpc | hpc <;> cases hpc
    exact (hok amount k code hcall (.inl hret)).mono hle
  · intro i e st _ _ hr hst hstored _ _ _
    exact .of_alone hr hst hstored

/-- **Payments are charged.** A payment has been there before, or a `charge` with its key inserts it.
Source: `lib/payment/mock-service.ts` `charge`. Kind: L -/
theorem payment_old (hs : Stepped σ a σ') {pay : Payment} (h : pay ∈ σ'.payments) :
    pay ∈ σ.payments ∨ ∃ (i : ℕ) (e : Exec) (amount : ℕ), σ.execs[i]? = some e ∧
      e.call = .charge amount pay.idempotencyKey := by
  cases hs with
  | @insertPayment i ch e row next he hr hnew hkey =>
    rcases (Table.mem_insert (h := hnew)).mp h with hmem | rfl
    · exact .inl hmem
    · right
      generalize hcall : e.call = call at hr
      generalize e.pc = pc at hr
      cases hr with
      | chargePaid | chargeDeclined => exact ⟨i, e, _, he, hcall⟩
  | _ => exact .inl h

end left

end Store

/-- The failure callback a handler serves. Source: `app/api/webhooks/qstash-failure/route.ts`. Kind: D -/
def Task.failure : Task → Option FailureCallback
  | webhook cb _ => some cb
  | _ => none

/-- The publish-failure branch, from the failed publication on. Source: `app/api/book/route.ts`
(publish-failure branch). Kind: D -/
def Task.unpublished : Task → Bool
  | ingress _ (.rollback _) | ingress _ (.commitRefused _)
  | ingress _ (.respond (.error 502 "upstream_failure")) => true
  | _ => false

namespace Sys

/-! ## Causes -/

/-- A delivery of the booking is the last one: `Upstash-Retried` is 3 or more. Source:
`app/api/worker/allocate/route.ts` (step 6, `isLastAttempt`). Kind: D -/
def Late (s : Sys) (b : BookingId) : Prop :=
  ∃ (c : ℕ) (cl : Client) (d : Delivery), s.clients[c]? = some cl ∧ cl.task.delivery = some d ∧
    d.job.bookingId = b ∧ 3 ≤ d.retried

/-- A request with the booking's key could not publish. Source: `app/api/book/route.ts` (publish-failure
branch). Kind: D -/
def Unpublished (s : Sys) (b : BookingId) : Prop :=
  ∃ (c : ℕ) (cl : Client) (req : PostRequest) (k : IdempotencyKey), s.clients[c]? = some cl ∧
    cl.task.unpublished = true ∧ cl.task.request = some req ∧ req.idempotencyKey = some k ∧
    s.store.KeyOf b k

/-- The broker has given up a message with this callback. Source:
`app/api/webhooks/qstash-failure/route.ts`. Kind: D -/
def GivenUp (s : Sys) (cb : FailureCallback) : Prop :=
  ∃ msg, s.messages[cb.sourceMessageId]? = some msg ∧ msg.callback cb.sourceMessageId = some cb

/-- A failure callback has come in. Source: `app/api/webhooks/qstash-failure/route.ts`. Kind: D -/
def Called (s : Sys) (cb : FailureCallback) : Prop :=
  ∃ (c : ℕ) (cl : Client), s.clients[c]? = some cl ∧ cl.task.failure = some cb

/-- **Why a booking may fail**, for each reason the code records. Source:
`app/api/worker/allocate/route.ts` (steps 5 and 6), `app/api/book/route.ts` (publish-failure branch),
`app/api/webhooks/qstash-failure/route.ts`. Kind: D -/
inductive Cause (s : Sys) (b : BookingId) : String → Prop
  | soldOut (h : s.store.TurnedAway b) : Cause s b "sold_out"
  | declined {k} (hk : s.store.KeyOf b k) (h : s.store.Declined k .paymentDeclined) :
      Cause s b "payment_failed"
  | timedOut {k code} (hk : s.store.KeyOf b k) (h : s.store.Declined k code)
      (hcode : code ≠ .paymentDeclined) (hlate : s.Late b) : Cause s b "payment_timeout"
  | workerError (hlate : s.Late b) : Cause s b "worker_error"
  | unpublished (h : s.Unpublished b) : Cause s b "upstream_publish_failure"
  | givenUp {cb} (h : s.GivenUp cb) (hcalled : s.Called cb) (hb : cb.payload.bookingId = b) :
      Cause s b cb.failureReason

/-- What a handler carries of the causes. Source: `app/api/worker/allocate/route.ts` (steps 5 to 7),
`app/api/webhooks/qstash-failure/route.ts`. Kind: D -/
def TaskCause (s : Sys) : Task → Prop
  | .worker d (.charge _ seat) | .worker d (.confirm _ seat _) => s.store.Allocated d.job.bookingId seat
  | .worker d .releaseSoldOut => s.store.TurnedAway d.job.bookingId
  | .worker d (.releaseFailed f) => s.Cause d.job.bookingId f.reason
  | .webhook cb _ => s.GivenUp cb
  | _ => True

/-- What a call says of the causes. Source: `app/api/worker/allocate/route.ts` (steps 5 to 7),
`app/api/book/route.ts` (publish-failure branch), `app/api/webhooks/qstash-failure/route.ts`. Kind: D -/
def CallCause (s : Sys) : Call → Prop
  | .charge _ k => ∃ b seat, s.store.KeyOf b k ∧ s.store.Allocated b seat
  | .confirmBooking b seat _ => s.store.Allocated b seat
  | .releaseHold b why | .releaseHoldTerminal b why => s.Cause b why
  | .failUnpublished b => s.Cause b "upstream_publish_failure"
  | _ => True

/-- What the row of a booking says has its cause. Source: migration `060_bookings`. Kind: D -/
def RowCause (s : Sys) (r : Booking) : Prop :=
  match r.status with
  | .pending => r.failureReason = none
  | .confirmed => r.failureReason = none ∧ ∃ seat, r.seatId = some seat ∧ s.store.Allocated r.id seat
  | .failed => ∃ why, r.failureReason = some why ∧ s.Cause r.id why
  | .expired => r.failureReason = some "hold_expired" ∧ s.store.SweepRan

/-- **Everything has its cause.** Source: migrations `050_payments`, `060_bookings`. Kind: D -/
structure Provenance (s : Sys) : Prop where
  refusals : ∀ (i : ℕ) (e : Exec), s.store.execs[i]? = some e → s.store.RefusedOk e
  tasks : ∀ (c : ℕ) (cl : Client), s.clients[c]? = some cl → s.TaskCause cl.task
  calls : ∀ (i : ℕ) (e : Exec), s.store.execs[i]? = some e → s.CallCause e.call
  payments : ∀ pay ∈ s.store.payments,
    ∃ b seat, s.store.KeyOf b pay.idempotencyKey ∧ s.store.Allocated b seat
  bookings : ∀ b r, s.store.bookings.committed.find? b = some r → s.RowCause r

section later

variable {cfg : Config} {s s' : Sys} {a : Action} {c : ℕ} {cl cl' : Client} {b : BookingId}

/-- What the steps of the store keep, the steps of the pipeline keep. Source: none: infrastructure.
Kind: L -/
theorem Stepped.on_store {P : Store → Prop} (hs : Stepped cfg s a s')
    (hP : ∀ {σ σ' : Store} {x}, Store.Stepped σ x σ' → P σ → P σ') (h : P s.store) : P s'.store := by
  rcases hs.store_cases with heq | ⟨x, hx, -⟩
  · rwa [heq]
  · exact hP (Store.step_cases hx) h

/-- What was allocated stays so. Source: none: infrastructure. Kind: L -/
theorem Stepped.allocated (hs : Stepped cfg s a s') {seat : SeatId} (h : s.store.Allocated b seat) :
    s'.store.Allocated b seat :=
  hs.on_store (P := fun σ => σ.Allocated b seat) (fun hx h => Store.Allocated.step hx h) h

/-- Who was turned away stays so. Source: none: infrastructure. Kind: L -/
theorem Stepped.turnedAway (hs : Stepped cfg s a s') (h : s.store.TurnedAway b) :
    s'.store.TurnedAway b :=
  hs.on_store (P := fun σ => σ.TurnedAway b) (fun hx h => Store.TurnedAway.step hx h) h

/-- The branch is not left. Source: `app/api/book/route.ts` (publish-failure branch). Kind: L -/
theorem Moves.unpublished (h : Moves cfg s c a cl cl') (hcl : cl.task.unpublished = true) :
    cl'.task.unpublished = true := by
  have hthrow : ∀ t : Task, t.unpublished = true → (t.call cfg).isSome = true →
      t.onThrow.unpublished = true := by
    intro t ht hcall
    cases t with
    | ingress req pc =>
      cases pc with
      | rollback | commitRefused => rfl
      | respond => cases hcall
      | start | idempotencyCheck | createBooking | publish | commitAccepted => cases ht
    | worker | webhook | dlqRetry | sweeper => cases ht
  cases h with
  | issue | again | answer | crash => exact hcl
  | refund => cases hcl
  | @receive t i left e r t' he hpc ht =>
    cases t with
    | ingress req pc =>
      obtain ⟨pc', hpc', rfl⟩ := Option.map_eq_some_iff.mp ht
      cases IngressPc.replied hpc' with
      | rolledBack | refused => rfl
      | fresh | mismatch | replay | inflight | created | accepted => cases hcl
    | worker | webhook | dlqRetry | sweeper => cases hcl
  | @go a cl t' job hlive hgoes =>
    obtain ⟨t, ph⟩ := cl
    change t.unpublished = true at hcl
    cases hgoes with
    | throw hcall => exact hthrow t hcl (by rw [hcall]; rfl)
    | gate | chaosPassed | chaosFailed => cases hcl
    | published hjob | publishLost hjob | publishFailed hjob =>
      rcases publishing_cases hjob with ⟨req, rfl⟩ | ⟨id, rfl⟩ <;> cases hcl

/-- A last delivery stays one. Source: none: infrastructure. Kind: L -/
theorem Late.step (hs : Stepped cfg s a s') (h : s.Late b) : s'.Late b := by
  obtain ⟨c, cl, d, hcl, hd, hrest⟩ := h
  obtain ⟨cl', hcl', ⟨rfl, -⟩ | hm⟩ := hs.client_next hcl
  · exact ⟨c, cl', d, hcl', hd, hrest⟩
  · exact ⟨c, cl', d, hcl', hm.delivery.trans hd, hrest⟩

/-- A failed publication stays one. Source: `app/api/book/route.ts` (publish-failure branch). Kind: L -/
theorem Unpublished.step (hl : s.store.LocksOk) (hs : Stepped cfg s a s') (h : s.Unpublished b) :
    s'.Unpublished b := by
  obtain ⟨c, cl, req, k, hcl, hun, hreq, hk, hkey⟩ := h
  have hkey := hkey.mono (hs.le hl).store
  obtain ⟨cl', hcl', ⟨rfl, -⟩ | hm⟩ := hs.client_next hcl
  · exact ⟨c, cl', req, k, hcl', hun, hreq, hk, hkey⟩
  · exact ⟨c, cl', req, k, hcl', hm.unpublished hun, hm.request.trans hreq, hk, hkey⟩

/-- A handler serves one failure callback. Source: none: infrastructure. Kind: L -/
theorem Moves.failure (h : Moves cfg s c a cl cl') : cl'.task.failure = cl.task.failure := by
  have hthrow : ∀ t : Task, t.onThrow.failure = t.failure := by
    intro t
    cases t <;> rfl
  cases h with
  | @receive t i left e r t' he hpc ht =>
    cases t <;> obtain ⟨pc', -, rfl⟩ := Option.map_eq_some_iff.mp ht <;> rfl
  | @go a cl t' job hlive hgoes =>
    obtain ⟨t, ph⟩ := cl
    cases hgoes with
    | throw | publishLost | publishFailed => exact hthrow _
    | published hjob => rcases publishing_cases hjob with ⟨req, rfl⟩ | ⟨id, rfl⟩ <;> rfl
    | gate | chaosPassed | chaosFailed => rfl
  | issue | again | refund | answer | crash => rfl

/-- A callback that has come in has come in. Source: none: infrastructure. Kind: L -/
theorem Called.step (hs : Stepped cfg s a s') {cb : FailureCallback} (h : s.Called cb) : s'.Called cb := by
  obtain ⟨c, cl, hcl, hcb⟩ := h
  obtain ⟨cl', hcl', ⟨rfl, -⟩ | hm⟩ := hs.client_next hcl
  · exact ⟨c, cl', hcl', hcb⟩
  · exact ⟨c, cl', hcl', hm.failure.trans hcb⟩

/-- Who ends does not change the callback of a message that was given up. Source:
`app/api/webhooks/qstash-failure/route.ts`. Kind: L -/
theorem callback_settled {m : MessageId} {msg : Message} {cb : FailureCallback} {t : Task}
    {status : Option ℕ} (h : msg.callback m = some cb) :
    Message.callback m { msg with state := settled t status m msg.state } = some cb := by
  obtain ⟨payload, st⟩ := msg
  have hkept : ∀ d, MessageState.onAnswer d status st = st := by
    cases st with
    | active | acked => cases h
    | failing | closed => exact fun _ => rfl
  have hclosed : Message.callback m ⟨payload, st.close⟩ = some cb := by
    cases st with
    | active | acked => cases h
    | failing | closed => exact h
  unfold settled
  split
  · rw [hkept, ite_self]
    exact h
  · split
    · exact hclosed
    · exact h
  · exact h

/-- A message that was given up keeps its callback. Source: `app/api/webhooks/qstash-failure/route.ts`.
Kind: L -/
theorem GivenUp.step (hs : Stepped cfg s a s') {cb : FailureCallback} (h : s.GivenUp cb) :
    s'.GivenUp cb := by
  obtain ⟨msg, hmsg, hcb⟩ := h
  cases hs with
  | @go _ c cl t' job hcl hgoes =>
    cases job with
    | none => exact ⟨msg, hmsg, hcb⟩
    | some job =>
      obtain ⟨hlt, -⟩ := List.getElem?_eq_some_iff.mp hmsg
      exact ⟨msg, by simp [enqueued, enqueue, setClient, List.getElem?_append_left hlt, hmsg], hcb⟩
  | answer | crash =>
    exact ⟨_, (settle_messages _ _ _ _).trans (congrArg _ hmsg), callback_settled hcb⟩
  | _ => exact ⟨msg, hmsg, hcb⟩

/-- A cause stays one. Source: none: infrastructure. Kind: L -/
theorem Cause.step (hl : s.store.LocksOk) (hs : Stepped cfg s a s') {why : String}
    (h : s.Cause b why) : s'.Cause b why := by
  have hle := (hs.le hl).store
  cases h with
  | soldOut h => exact .soldOut (hs.turnedAway h)
  | declined hk h => exact .declined (hk.mono hle) (h.mono hle)
  | timedOut hk h hcode hlate => exact .timedOut (hk.mono hle) (h.mono hle) hcode (hlate.step hs)
  | workerError hlate => exact .workerError (hlate.step hs)
  | unpublished h => exact .unpublished (h.step hl hs)
  | givenUp h hcalled hb => exact .givenUp (h.step hs) (hcalled.step hs) hb

/-- What a handler carries of the causes stays true. Source: none: infrastructure. Kind: L -/
theorem TaskCause.step (hl : s.store.LocksOk) (hs : Stepped cfg s a s') {t : Task}
    (h : s.TaskCause t) : s'.TaskCause t := by
  cases t with
  | worker d pc =>
    cases pc with
    | charge | confirm => exact hs.allocated h
    | releaseSoldOut => exact hs.turnedAway h
    | releaseFailed f => exact Cause.step hl hs h
    | _ => trivial
  | webhook cb pc => exact GivenUp.step hs h
  | _ => trivial

/-- What a call says of the causes stays true. Source: none: infrastructure. Kind: L -/
theorem CallCause.step (hl : s.store.LocksOk) (hs : Stepped cfg s a s') {call : Call}
    (h : s.CallCause call) : s'.CallCause call := by
  cases call with
  | charge amount k =>
    obtain ⟨b, seat, hk, halloc⟩ := h
    exact ⟨b, seat, hk.mono (hs.le hl).store, hs.allocated halloc⟩
  | confirmBooking b seat payment => exact hs.allocated h
  | releaseHold b why | releaseHoldTerminal b why => exact Cause.step hl hs h
  | failUnpublished b => exact Cause.step hl hs h
  | _ => trivial

/-- What a row says keeps its cause. Source: none: infrastructure. Kind: L -/
theorem RowCause.step (hl : s.store.LocksOk) (hs : Stepped cfg s a s') {r : Booking}
    (h : s.RowCause r) : s'.RowCause r := by
  unfold RowCause at *
  cases hst : r.status with
  | pending => simpa [hst] using h
  | confirmed =>
    simp only [hst] at h ⊢
    obtain ⟨hnone, seat, hseat, halloc⟩ := h
    exact ⟨hnone, seat, hseat, hs.allocated halloc⟩
  | failed =>
    simp only [hst] at h ⊢
    obtain ⟨why, hwhy, hcause⟩ := h
    exact ⟨why, hwhy, hcause.step hl hs⟩
  | expired =>
    simp only [hst] at h ⊢
    exact ⟨h.1, hs.on_store (fun hx h => Store.SweepRan.step hx h) h.2⟩

end later

/-! ## What handlers find out -/

section handlers

variable {cfg : Config} {s s' : Sys} {a : Action} {c : ℕ} {cl : Client} {t t' : Task} {b : BookingId}

/-- The worker's job names the booking of its key. Source: `app/api/worker/allocate/route.ts`. Kind: L -/
theorem keyOf_of_job {σ : Store} {job : AllocateJobPayload} (h : JobOk σ job) :
    σ.KeyOf job.bookingId job.idempotencyKey := by
  obtain ⟨r, hr, hk, -⟩ := h.booked
  exact ⟨r, hr, hk⟩

/-- A terminal branch after a `PaymentError` has its cause. Source: `app/api/worker/allocate/route.ts`
(step 6). Kind: L -/
theorem taskCause_of_paymentError {d : Delivery} {k : IdempotencyKey} {code : PaymentErrorCode}
    (hk : s.store.KeyOf d.job.bookingId k) (h : s.store.Declined k code)
    (hlate : 3 ≤ d.retried → s.Late d.job.bookingId) :
    s.TaskCause (.worker d (.onPaymentError d.retried code)) := by
  unfold WorkerPc.onPaymentError
  split
  · rename_i hlast
    show s.Cause d.job.bookingId (if code = .paymentDeclined then "payment_failed" else "payment_timeout")
    split
    · rename_i hcode
      exact .declined hk (hcode ▸ h)
    · rename_i hcode
      exact .timedOut hk h hcode (hlate (hlast.resolve_left hcode))
  · trivial

/-- So has the terminal branch after another error. Source: `app/api/worker/allocate/route.ts` (step 6,
last part of the `catch`). Kind: L -/
theorem taskCause_of_otherError {d : Delivery} (hlate : 3 ≤ d.retried → s.Late d.job.bookingId) :
    s.TaskCause (.worker d (.onOtherError d.retried)) := by
  unfold WorkerPc.onOtherError
  split
  · exact .workerError (hlate ‹_›)
  · trivial

/-- **A handler that has its reply** knows the causes. Source: `app/api/worker/allocate/route.ts`
(steps 4 to 6). Kind: L -/
theorem Provenance.onReply (hinv : Inv cfg s) (h : s.Provenance) {i left : ℕ} {e : Exec} {r : Reply}
    (hcl : s.clients[c]? = some ⟨t, .waiting i left⟩) (he : s.store.execs[i]? = some e)
    (hpc : e.pc = .done r) (ht : t.onReply cfg s.store.now r = some t') (hcause : s.TaskCause t) :
    s.TaskCause t' := by
  obtain ⟨e₁, he₁, hcall, -⟩ := hinv.waits c t i left hcl
  obtain rfl := Option.eq_some_unique he he₁
  have htask := hinv.tasks c _ hcl
  cases t with
  | worker d pc =>
    obtain ⟨pc', hpc', rfl⟩ := Option.map_eq_some_iff.mp ht
    cases WorkerPc.replied hpc' with
    | allocated =>
      exact ⟨i, e, _, _, _, _, he, (Option.some.inj hcall).symm, hpc⟩
    | soldOut => exact ⟨i, e, _, _, _, he, (Option.some.inj hcall).symm, hpc⟩
    | paid => exact hcause
    | @refused price seat code =>
      have hdeclined := h.refusals i e he _ _ code (Option.some.inj hcall).symm (.inr hpc)
      have hlate : 3 ≤ d.retried → s.Late d.job.bookingId := fun hlast =>
        ⟨c, _, d, hcl, rfl, rfl, hlast⟩
      exact taskCause_of_paymentError (keyOf_of_job htask.1) hdeclined hlate
    | _ => trivial
  | webhook cb pc =>
    obtain ⟨pc', -, rfl⟩ := Option.map_eq_some_iff.mp ht
    exact hcause
  | ingress | dlqRetry | sweeper =>
    obtain ⟨pc', -, rfl⟩ := Option.map_eq_some_iff.mp ht
    trivial

/-- **A handler that goes on without a reply** knows the causes. Source:
`app/api/worker/allocate/route.ts` (step 6). Kind: L -/
theorem TaskCause.goes {job : Option AllocateJobPayload} (hcl : s.running c = some cl)
    (hgoes : Goes cfg c a cl.task t' job) (h : s.TaskCause cl.task) : s.TaskCause t' := by
  obtain ⟨hcl, -⟩ := running_eq_some.mp hcl
  obtain ⟨t, ph⟩ := cl
  change s.TaskCause t at h
  cases hgoes with
  | throw =>
    cases t with
    | worker d pc =>
      cases pc with
      | charge => exact taskCause_of_otherError fun hlast => ⟨c, _, d, hcl, rfl, rfl, hlast⟩
      | _ => trivial
    | webhook => exact h
    | ingress | dlqRetry | sweeper => trivial
  | gate => trivial
  | published hjob | publishLost hjob | publishFailed hjob =>
    rcases publishing_cases hjob with ⟨req, rfl⟩ | ⟨id, rfl⟩ <;> trivial
  | @chaosPassed d =>
    show s.TaskCause (.worker d (WorkerPc.parse d.job))
    unfold WorkerPc.parse
    split <;> trivial
  | chaosFailed => trivial

/-- **A call that a handler sends** says what the handler knows. Source: `app/api/worker/allocate/route.ts`
(steps 5 to 7), `app/api/book/route.ts` (publish-failure branch),
`app/api/webhooks/qstash-failure/route.ts`. Kind: L -/
theorem TaskCause.sends (hinv : Inv cfg s) (hverdicts : VerdictsOk cfg s) {call : Call}
    (hcl : s.clients[c]? = some cl) (hcall : cl.task.call cfg = some call) (h : s.TaskCause cl.task) :
    s.CallCause call := by
  have htask := hinv.tasks c _ hcl
  have hkeyed := hverdicts.tasks c _ hcl
  obtain ⟨t, ph⟩ := cl
  cases t with
  | worker d pc =>
    cases pc with
    | chaosGate | refund | respond => cases hcall
    | charge price seat =>
      cases hcall
      exact ⟨d.job.bookingId, seat, keyOf_of_job htask.1, h⟩
    | releaseSoldOut =>
      cases hcall
      exact .soldOut h
    | releaseFailed | confirm =>
      cases hcall
      exact h
    | getBooking | allocate | commitSoldOut | commitFailed | releaseForRetry | commitExpired
    | commitConfirmed =>
      cases hcall
      trivial
  | ingress req pc =>
    cases pc with
    | start | publish | respond => cases hcall
    | rollback job =>
      cases hcall
      exact .unpublished ⟨c, _, req, _, hcl, rfl, rfl, hkeyed.1, keyOf_of_job htask⟩
    | idempotencyCheck | createBooking | commitRefused | commitAccepted =>
      cases hcall
      trivial
  | webhook cb pc =>
    cases pc with
    | release =>
      cases hcall
      exact .givenUp h ⟨c, _, hcl, rfl⟩ rfl
    | respond => cases hcall
    | insertDlq | commit =>
      cases hcall
      trivial
  | dlqRetry id pc =>
    cases pc with
    | publish | respond => cases hcall
    | lookup | mark =>
      cases hcall
      trivial
  | sweeper pc =>
    cases pc with
    | sweep =>
      cases hcall
      trivial
    | respond => cases hcall

end handlers

/-! ## What the rows say -/

section rows

variable {cfg : Config} {s s' : Sys} {a : Action}

/-- **A row that is written** says what the call that writes it says. Source: migrations
`110_fn_confirm_booking`, `20260418000000_split_release_hold`, `130_fn_sweep_expired_holds`. Kind: L -/
theorem Provenance.row_of_write (h : s.Provenance) (hl : s.store.LocksOk) (hs : Stepped cfg s a s')
    {i : ℕ} {e : Exec} {reply : Reply} {r r' : Booking} (he : s.store.execs[i]? = some e)
    (hx : Store.Stepped s.store (.commit i) s'.store) (hpc : e.pc = .ret reply)
    (hw : Store.BookingWrite e.call e.now r r') (hold : s.RowCause r) : s'.RowCause r' := by
  have hsays := h.calls i e he
  have hunset : r.status = .pending → r.failureReason = none := by
    intro hst
    simpa only [RowCause, hst] using hold
  cases hw with
  | @confirm b seat payment hcall hcond =>
    obtain ⟨rfl, hst⟩ := Store.confirmRowUpdate_cond_iff.mp hcond
    rw [hcall] at hsays
    exact ⟨hunset hst, seat, rfl, hs.allocated hsays⟩
  | @fail b why hcall hcond =>
    have hid : r.id = b := by
      simp only [Store.failRowUpdate, Bool.and_eq_true, beq_iff_eq] at hcond
      exact hcond.1
    refine ⟨why, rfl, Cause.step hl hs ?_⟩
    show s.Cause r.id why
    rw [hid]
    generalize e.call = call at hcall hsays
    cases call <;> cases hcall <;> exact hsays
  | expire hcall hcond =>
    obtain ⟨e', he', hcall', -⟩ := hx.exec_old he
    rcases hx.exec_moved rfl he he' with ⟨hsent, -⟩ | ⟨ch, st, hexec, -⟩ | ⟨-, -, hno⟩ | ⟨reply', -, hdone⟩
    · rw [hpc] at hsent
      cases hsent
    · cases hexec
    · exact absurd rfl (hno i)
    · exact ⟨rfl, i, e', reply', he', hcall'.trans hcall, hdone⟩

/-- **The causes survive every step.** Source: the routes of `app/api`, migrations `050_payments`,
`060_bookings`. Kind: L -/
theorem Provenance.step (hinv : Inv cfg s) (hverdicts : VerdictsOk cfg s) (h : s.Provenance)
    (hs : Stepped cfg s a s') : s'.Provenance where
  refusals := hs.on_store (P := fun σ => σ.LocksOk ∧ ∀ (i : ℕ) (e : Exec), σ.execs[i]? = some e →
    σ.RefusedOk e) (fun hx h => ⟨h.1.step hx, hx.refusedOk h.1 h.2⟩) ⟨hinv.store.locks, h.refusals⟩ |>.2
  tasks := by
    refine hs.forall_tasks (P := TaskCause) h.tasks (fun t ht => ht.step hinv.store.locks hs) ?_ ?_ ?_ ?_
    · intro t ht
      cases ht with
      | @failureCallback m msg cb hmsg hcb =>
        obtain rfl : cb.sourceMessageId = m := by
          unfold Message.callback at hcb
          split at hcb <;> cases hcb <;> rfl
        exact GivenUp.step hs ⟨msg, hmsg, hcb⟩
      | post | deliver | retryDlq | sweep => trivial
    · intro c i left t e r t' hcl he hpc ht hcause
      exact (h.onReply hinv hcl he hpc ht hcause).step hinv.store.locks hs
    · intro c cl t' job hcl hgoes hcause
      exact (hcause.goes hcl hgoes).step hinv.store.locks hs
    · intro d p _
      trivial
  calls := hs.forall_calls (P := CallCause) h.calls (fun call hcall => hcall.step hinv.store.locks hs)
    fun c cl call hcl hcall => (h.tasks c cl hcl).sends hinv hverdicts hcl hcall
  payments pay hpay := by
    have hold : ∀ k, (∃ b seat, s.store.KeyOf b k ∧ s.store.Allocated b seat) →
        ∃ b seat, s'.store.KeyOf b k ∧ s'.store.Allocated b seat := by
      rintro k ⟨b, seat, hk, halloc⟩
      exact ⟨b, seat, hk.mono (hs.le hinv.store.locks).store, hs.allocated halloc⟩
    rcases hs.store_cases with heq | ⟨x, hx, -⟩
    · rw [heq] at hpay
      exact hold _ (h.payments pay hpay)
    · rcases Store.payment_old (Store.step_cases hx) hpay with hmem | ⟨i, e, amount, he, hcall⟩
      · exact hold _ (h.payments pay hmem)
      · have hsays := h.calls i e he
        rw [hcall] at hsays
        exact hold _ hsays
  bookings b r' hr' := by
    rcases hs.store_cases with heq | ⟨x, hx, -⟩
    · rw [heq] at hr'
      exact (h.bookings b r' hr').step hinv.store.locks hs
    · have hx := Store.step_cases hx
      rcases Store.booking_old hx hr' with ⟨r, hr⟩ | ⟨-, i, ch, e, args, -, -, -, -, -, rfl⟩
      · rcases Store.booking_change hinv.store.locks hx hr hr' with rfl | ⟨i, e, reply, rfl, he, hpc, -, hw⟩
        · exact (h.bookings b r' hr).step hinv.store.locks hs
        · exact h.row_of_write hinv.store.locks hs he hx hpc hw (h.bookings b r hr)
      · rfl

/-- Nothing is said at the start. Source: none: infrastructure. Kind: L -/
theorem Initial.provenance (h : Initial s) : s.Provenance where
  refusals i e he := absurd he h.store_initial.no_exec
  tasks c cl hcl := by
    rw [h.no_clients] at hcl
    cases hcl
  calls i e he := absurd he h.store_initial.no_exec
  payments pay hpay := by
    rw [h.store_initial.payments_empty] at hpay
    cases hpay
  bookings b r hr := by
    rw [h.store_initial.bookings_empty] at hr
    cases hr

/-- **Everything has its cause**, in every reachable pipeline. Source: none: infrastructure. Kind: L -/
theorem provenance_of_reach {C : Sys → Action → Prop} (h : Reach (step cfg) Initial C s) :
    s.Provenance :=
  h.invariant (P := Provenance) (fun _ hinit => hinit.provenance) fun _ _ _ hreach hP _ hstep =>
    hP.step (inv_of_reach hreach) (verdictsOk_of_reach hreach) (step_cases hstep)

/-- **Nobody is charged before a seat is allocated**, and a confirmed booking has a seat that was
allocated to it, in every reachable pipeline. Source: `app/api/worker/allocate/route.ts` (steps 4 to 7).
Kind: P -/
theorem charged_after_allocation (h : Reachable cfg s) :
    (∀ (i : ℕ) (e : Exec) amount k, s.store.execs[i]? = some e → e.call = .charge amount k →
      ∃ b seat, s.store.KeyOf b k ∧ s.store.Allocated b seat) ∧
    (∀ pay ∈ s.store.payments, ∃ b seat,
      s.store.KeyOf b pay.idempotencyKey ∧ s.store.Allocated b seat) ∧
    ∀ b r, s.store.bookings.committed.find? b = some r → r.status = .confirmed →
      ∃ seat, r.seatId = some seat ∧ s.store.Allocated b seat := by
  have hall := provenance_of_reach h
  refine ⟨fun i e amount k he hcall => ?_, hall.payments, fun b r hr hst => ?_⟩
  · have hsays := hall.calls i e he
    rwa [hcall] at hsays
  · obtain rfl : r.id = b := Table.key_of_find? hr
    have hrow := hall.bookings r.id r hr
    simp only [RowCause, hst] at hrow
    exact hrow.2

/-- **A recorded reason has its cause**, and only bookings that are lost have a reason, in every reachable
pipeline. Source: `app/api/worker/allocate/route.ts` (steps 5 and 6), `app/api/book/route.ts`
(publish-failure branch), `app/api/webhooks/qstash-failure/route.ts`, migration
`130_fn_sweep_expired_holds`. Kind: P -/
theorem reasons_caused (h : Reachable cfg s) {b : BookingId} {r : Booking}
    (hr : s.store.bookings.committed.find? b = some r) : s.RowCause r :=
  (provenance_of_reach h).bookings b r hr

end rows

/-- A paid ticket has had its seat. Source: none: infrastructure. Kind: L -/
theorem charged_after_allocation_ticketing : ∃ s : Sys, s.store.payments.rows ≠ [] ∧
    ∀ pay ∈ s.store.payments, ∃ b seat,
      s.store.KeyOf b pay.idempotencyKey ∧ s.store.Allocated b seat := by
  have hrun : (run (step config) opening ticketing).map
      (fun s => !s.store.payments.rows.isEmpty) = some true := by decide +kernel
  obtain ⟨s, hreach, hp⟩ := reach_of_run initial_opening hrun
  exact ⟨s, by simpa using hp, (charged_after_allocation hreach).2.1⟩

/-- The booking of a refused publication says so. Source: none: infrastructure. Kind: L -/
theorem reasons_caused_refusing : ∃ (s : Sys) (r : Booking), r.status = .failed ∧ s.RowCause r := by
  have hrun : (run (step config) opening refusing).map (fun s =>
      s.store.bookings.committed.rows.any (·.status == .failed)) = some true := by decide +kernel
  obtain ⟨s, hreach, hp⟩ := reach_of_run initial_opening hrun
  obtain ⟨r, hr, hst⟩ := List.any_eq_true.mp hp
  exact ⟨s, r, beq_iff_eq.mp hst, reasons_caused hreach (Table.find?_of_mem hr)⟩

end Sys

end TrainsAndTracks
