import TrainsAndTracks.Pipeline.Steps
import TrainsAndTracks.Store.Tickets

/-!
# What holds of every reachable pipeline

The handlers carry rows, prices and payments from one call to the next. `TaskOk` says, for each
`await` of each route, what the values it carries have to do with the tables; `Sys.Inv` adds that the
messages are bodies the ingress published, that a `202` is cached for published bookings only, and
that a handler waits for the call it awaits. With it the callers know what they send, so the store is
`Store.Trusted` and its tickets are valid (`inv_of_reach`).
-/

namespace TrainsAndTracks

open Found

/-! ## What a message says -/

namespace Store

/-- The job is valid and names a booking, with its key and its train. Source: `app/api/book/route.ts`
(`publishAllocateJob`), `lib/validation/worker.ts`. Kind: D -/
structure JobOk (σ : Store) (job : AllocateJobPayload) : Prop where
  valid : job.valid = true
  booked : ∃ r, σ.bookings.committed.find? job.bookingId = some r ∧
    r.idempotencyKey = job.idempotencyKey ∧ r.trainId = job.trainId

/-- The price of the job's booking. Source: `app/api/worker/allocate/route.ts` (step 3). Kind: D -/
def Priced (σ : Store) (job : AllocateJobPayload) (price : ℕ) : Prop :=
  ∃ r, σ.bookings.committed.find? job.bookingId = some r ∧ r.pricePaise = price

/-- The payment succeeded, for the job's key. Source: `app/api/worker/allocate/route.ts` (step 6).
Kind: D -/
def PaidFor (σ : Store) (job : AllocateJobPayload) (payment : PaymentId) : Prop :=
  ∃ pay, σ.payments.find? payment = some pay ∧ pay.status = .succeeded ∧
    pay.idempotencyKey = job.idempotencyKey

/-- The booking is `CONFIRMED` with the seat. Source: `app/api/worker/allocate/route.ts` (step 7).
Kind: D -/
def ConfirmedWith (σ : Store) (b : BookingId) (seat : SeatId) : Prop :=
  ∃ r, σ.bookings.committed.find? b = some r ∧ r.status = .confirmed ∧ r.seatId = some seat

section later

variable {σ σ' : Store} {job : AllocateJobPayload} {b : BookingId}

/-- A job stays good. Source: none: infrastructure. Kind: L -/
theorem JobOk.mono (hle : Le σ σ') (h : JobOk σ job) : JobOk σ' job where
  valid := h.valid
  booked := by
    obtain ⟨r, hr, hk, ht⟩ := h.booked
    obtain ⟨r', hr', hg⟩ := hle.booking _ r hr
    exact ⟨r', hr', hg.idempotencyKey.trans hk, hg.trainId.trans ht⟩

/-- A price stays. Source: none: infrastructure. Kind: L -/
theorem Priced.mono (hle : Le σ σ') {price : ℕ} (h : Priced σ job price) : Priced σ' job price := by
  obtain ⟨r, hr, hp⟩ := h
  obtain ⟨r', hr', hg⟩ := hle.booking _ r hr
  exact ⟨r', hr', hg.pricePaise.trans hp⟩

/-- A payment stays. Source: none: infrastructure. Kind: L -/
theorem PaidFor.mono (hle : Le σ σ') {p : PaymentId} (h : PaidFor σ job p) : PaidFor σ' job p := by
  obtain ⟨pay, hp, hrest⟩ := h
  exact ⟨pay, hle.payment p pay hp, hrest⟩

/-- A ticket stays. Source: none: infrastructure. Kind: L -/
theorem ConfirmedWith.mono (hle : Le σ σ') {seat : SeatId} (h : ConfirmedWith σ b seat) :
    ConfirmedWith σ' b seat := by
  obtain ⟨r, hr, hst, hseat⟩ := h
  exact ⟨r, hle.settled hr (by rw [hst]; simp), hst, hseat⟩

/-- A ticket is settled. Source: none: infrastructure. Kind: L -/
theorem ConfirmedWith.settled {seat : SeatId} (h : ConfirmedWith σ b seat) : Settled σ b := by
  obtain ⟨r, hr, hst, -⟩ := h
  exact ⟨r, hr, by rw [hst]; simp⟩

end later

end Store

open Store (JobOk Settled Priced PaidFor ConfirmedWith)

/-! ## What the handlers carry -/

/-- The booking a cached body is about. Source: `app/api/book/route.ts`,
`app/api/worker/allocate/route.ts`, `app/api/webhooks/qstash-failure/route.ts` (bodies). Kind: D.
Fidelity: exact -/
def CachedBody.jobId : CachedBody → BookingId
  | pending b .. | error _ _ _ b | failed b .. | expired b .. | confirmed b .. => b

/-- The booking an answer of the ingress is about. Source: `app/api/book/route.ts`. Kind: D.
Fidelity: exact -/
def IngressResponse.jobId : IngressResponse → Option BookingId
  | accepted body | replay _ body => some body.jobId
  | _ => none

/-- What a delivery of `job` carries at each `await`. Source: `app/api/worker/allocate/route.ts`
`handler`. Kind: D -/
def WorkerOk (σ : Store) (job : AllocateJobPayload) : WorkerPc → Prop
  | .allocate price | .charge price _ => Priced σ job price
  | .confirm _ _ payment | .refund payment => PaidFor σ job payment
  | .commitSoldOut => Settled σ job.bookingId
  | .releaseFailed f => f.answer.status = 489
  | .commitFailed f => f.answer.status = 489 ∧ Settled σ job.bookingId
  | .releaseForRetry answer => answer.status = 500
  | .commitConfirmed _ seat _ => ConfirmedWith σ job.bookingId seat
  | .respond r => r.status = 200 ∨ r.status = 489 →
      Settled σ job.bookingId ∨ r = .ok (WorkerPc.expiredBody job)
  | _ => True

/-- What a delivery carries stays true. Source: none: infrastructure. Kind: L -/
theorem WorkerOk.mono {σ σ' : Store} (hle : Store.Le σ σ')
    {job : AllocateJobPayload} {pc : WorkerPc} (h : WorkerOk σ job pc) : WorkerOk σ' job pc := by
  cases pc with
  | allocate price => exact Priced.mono hle h
  | charge price seat => exact Priced.mono hle h
  | confirm price seat payment => exact PaidFor.mono hle h
  | refund payment => exact PaidFor.mono hle h
  | commitSoldOut => exact Settled.mono hle h
  | releaseFailed f => exact h
  | commitFailed f => exact ⟨h.1, h.2.mono hle⟩
  | releaseForRetry answer => exact h
  | commitConfirmed price seat confirmedAt => exact ConfirmedWith.mono hle h
  | respond r => exact fun hst => (h hst).imp_left (·.mono hle)
  | _ => trivial

namespace Sys

/-- A message about booking `b` was published. Source: `infra/qstash/publisher.ts`. Kind: D -/
def Published (s : Sys) (b : BookingId) : Prop :=
  ∃ m ∈ s.messages, m.payload.bookingId = b

/-- Message `m` carries `job`. Source: `infra/qstash/publisher.ts`. Kind: D -/
def Carries (s : Sys) (m : MessageId) (job : AllocateJobPayload) : Prop :=
  ∃ msg, s.messages[m]? = some msg ∧ msg.payload = job

/-- A `202` is for a published booking. Source: `app/api/book/route.ts` (step 10). Kind: D -/
def Backed (s : Sys) (status : ℕ) (body : CachedBody) : Prop :=
  status = 202 → s.Published body.jobId

/-- A cached `202` is for a published booking. Source: `app/api/book/route.ts` (step 10). Kind: D -/
def RowBacked (s : Sys) (row : IdempotencyRow) : Prop :=
  ∀ status body, row.responseStatus = some status → row.responseBody = some body →
    s.Backed status body

/-- The failure of message `m` is in `dlq_jobs`. Source:
`app/api/webhooks/qstash-failure/route.ts`. Kind: D -/
def Recorded (s : Sys) (m : MessageId) : Prop := ∃ j ∈ s.store.dlqJobs, j.qstashMessageId = m

/-- What a request carries at each `await` of the ingress. Source: `app/api/book/route.ts` `handle`.
Kind: D -/
def IngressOk (s : Sys) : IngressPc → Prop
  | .start => True
  | .idempotencyCheck k body => uuidV4Re k = true ∧ ∃ raw, BookRequest.safeParse raw = some body
  | .createBooking k body =>
    (uuidV4Re k = true ∧ ∃ raw, BookRequest.safeParse raw = some body) ∧
      ∃ row, s.store.idempotencyKeys.find? k = some row
  | .publish job | .rollback job | .commitRefused job => JobOk s.store job
  | .commitAccepted job => JobOk s.store job ∧ s.Published job.bookingId
  | .respond r => r.status = 202 → ∀ b, r.jobId = some b → s.Published b

/-- What a failure callback carries at each `await`. Source:
`app/api/webhooks/qstash-failure/route.ts` `handler`. Kind: D -/
def WebhookOk (s : Sys) (cb : FailureCallback) : WebhookPc → Prop
  | .insertDlq => True
  | .release => s.Recorded cb.sourceMessageId
  | .commit => s.Recorded cb.sourceMessageId ∧ Settled s.store cb.payload.bookingId
  | .respond st => st = 200 → s.Recorded cb.sourceMessageId

/-- What an operator's retry carries at each `await`. Source: `app/api/admin/dlq/[id]/retry/route.ts`
`POST`. Kind: D -/
def DlqRetryOk (s : Sys) : DlqRetryPc → Prop
  | .publish job => JobOk s.store job
  | _ => True

/-- What a handler carries. Source: the routes of `app/api`. Kind: D -/
def TaskOk (s : Sys) : Task → Prop
  | .ingress _ pc => s.IngressOk pc
  | .worker d pc => JobOk s.store d.job ∧ s.Carries d.message d.job ∧ WorkerOk s.store d.job pc
  | .webhook cb pc =>
    JobOk s.store cb.payload ∧ s.Carries cb.sourceMessageId cb.payload ∧ s.WebhookOk cb pc
  | .dlqRetry _ pc => s.DlqRetryOk pc
  | .sweeper _ => True

/-- What the handlers send about messages: a `202` for a published booking, a failure with the body
of its message. Source: `app/api/book/route.ts`, `app/api/webhooks/qstash-failure/route.ts`.
Kind: D -/
def Sent (s : Sys) : Call → Prop
  | .writeIdempotencyResponse _ status body => s.Backed status body
  | .insertDlqJob m payload .. => s.Carries m payload
  | _ => True

/-- **The invariant of the pipeline.** Source: none: infrastructure. Kind: D -/
structure Inv (cfg : Config) (s : Sys) : Prop where
  store : s.store.Trusted
  tickets : s.store.TicketsOk
  messages : ∀ (m : ℕ) (msg : Message), s.messages[m]? = some msg → JobOk s.store msg.payload
  calls : ∀ (i : ℕ) (e : Exec), s.store.execs[i]? = some e → s.Sent e.call
  keys : ∀ row ∈ s.store.idempotencyKeys, s.RowBacked row
  replays : ∀ (i : ℕ) (e : Exec), s.store.execs[i]? = some e → ∀ row inserted,
    e.pc = .ret (.idempotency row inserted) ∨ e.pc = .done (.idempotency row inserted) →
    s.RowBacked row
  dlqJobs : ∀ j ∈ s.store.dlqJobs, s.Carries j.qstashMessageId j.payload
  waits : ∀ (c : ℕ) t i left, s.clients[c]? = some ⟨t, .waiting i left⟩ →
    ∃ e : Exec, s.store.execs[i]? = some e ∧ t.call cfg = some e.call ∧ e.client = c
  senders : ∀ (i : ℕ) (e : Exec), s.store.execs[i]? = some e → e.client < s.clients.length
  tasks : ∀ (c : ℕ) (cl : Client), s.clients[c]? = some cl → s.TaskOk cl.task

/-! ## What no step takes back -/

/-- `s'` is later than `s`. Source: none: infrastructure. Kind: D -/
structure Le (s s' : Sys) : Prop where
  store : Store.Le s.store s'.store
  message : ∀ (m : ℕ) (msg : Message), s.messages[m]? = some msg →
    ∃ msg', s'.messages[m]? = some msg' ∧ msg'.payload = msg.payload

section later

variable {cfg : Config} {s s' : Sys} {a : Action}

/-- A step of the pipeline goes forward. Source: none: infrastructure. Kind: L -/
theorem Stepped.le (hl : s.store.LocksOk) (hs : Stepped cfg s a s') : Le s s' where
  store := by
    rcases hs.store_cases with heq | ⟨b, hb, -⟩
    · rw [heq]
      exact .refl _
    · exact (Store.step_cases hb).le hl
  message _ _ h := hs.message_stays h

/-- A published booking stays published. Source: none: infrastructure. Kind: L -/
theorem Published.mono (hle : Le s s') {b : BookingId} (h : s.Published b) : s'.Published b := by
  obtain ⟨msg, hmem, hb⟩ := h
  obtain ⟨m, hmsg⟩ := List.mem_iff_getElem?.mp hmem
  obtain ⟨msg', hmsg', hpayload⟩ := hle.message m msg hmsg
  exact ⟨msg', List.mem_of_getElem? hmsg', by rw [hpayload, hb]⟩

/-- A message carries its body for good. Source: none: infrastructure. Kind: L -/
theorem Carries.mono (hle : Le s s') {m : MessageId} {job : AllocateJobPayload}
    (h : s.Carries m job) : s'.Carries m job := by
  obtain ⟨msg, hmsg, hjob⟩ := h
  obtain ⟨msg', hmsg', hpayload⟩ := hle.message m msg hmsg
  exact ⟨msg', hmsg', hpayload.trans hjob⟩

/-- What backs a `202` stays. Source: none: infrastructure. Kind: L -/
theorem Backed.mono (hle : Le s s') {st : ℕ} {body : CachedBody} (h : s.Backed st body) :
    s'.Backed st body :=
  fun hst => (h hst).mono hle

/-- What backs a cached `202` stays. Source: none: infrastructure. Kind: L -/
theorem RowBacked.mono (hle : Le s s') {row : IdempotencyRow} (h : s.RowBacked row) :
    s'.RowBacked row :=
  fun st body hst hbody => (h st body hst hbody).mono hle

/-- A recorded failure stays recorded. Source: none: infrastructure. Kind: L -/
theorem Recorded.mono (hle : Le s s') {m : MessageId} (h : s.Recorded m) : s'.Recorded m := by
  obtain ⟨j, hj, hm⟩ := h
  obtain ⟨j', hj', hm', -⟩ := hle.store.mem_dlqJobs hj
  exact ⟨j', hj', hm'.trans hm⟩

/-- What is sent stays true. Source: none: infrastructure. Kind: L -/
theorem Sent.mono (hle : Le s s') {call : Call} (h : s.Sent call) : s'.Sent call := by
  cases call with
  | writeIdempotencyResponse k st body => exact Backed.mono hle h
  | insertDlqJob m payload => exact Carries.mono hle h
  | _ => trivial

/-- What a request carries stays true. Source: none: infrastructure. Kind: L -/
theorem IngressOk.mono (hle : Le s s') {pc : IngressPc} (h : s.IngressOk pc) : s'.IngressOk pc := by
  cases pc with
  | start => trivial
  | idempotencyCheck k body => exact h
  | createBooking k body =>
    obtain ⟨hok, row, hrow⟩ := h
    obtain ⟨row', hrow', -⟩ := hle.store.idempotencyKey k row hrow
    exact ⟨hok, row', hrow'⟩
  | publish job => exact JobOk.mono hle.store h
  | rollback job => exact JobOk.mono hle.store h
  | commitRefused job => exact JobOk.mono hle.store h
  | commitAccepted job => exact ⟨h.1.mono hle.store, h.2.mono hle⟩
  | respond r => exact fun hst b hb => (h hst b hb).mono hle

/-- What a handler carries stays true. Source: none: infrastructure. Kind: L -/
theorem TaskOk.mono (hle : Le s s') {t : Task} (h : s.TaskOk t) : s'.TaskOk t := by
  cases t with
  | ingress req pc => exact IngressOk.mono hle h
  | worker d pc => exact ⟨h.1.mono hle.store, h.2.1.mono hle, h.2.2.mono hle.store⟩
  | webhook cb pc =>
    refine ⟨h.1.mono hle.store, h.2.1.mono hle, ?_⟩
    have hpc := h.2.2
    cases pc with
    | insertDlq => trivial
    | release => exact Recorded.mono hle hpc
    | commit => exact ⟨hpc.1.mono hle, hpc.2.mono hle.store⟩
    | respond st => exact fun hst => (hpc hst).mono hle
  | dlqRetry id pc =>
    cases pc with
    | publish job => exact JobOk.mono hle.store h
    | _ => trivial
  | sweeper pc => trivial

end later

/-! ## The calls the handlers send -/

section calls

variable {cfg : Config} {s s' : Sys} {a : Action} {t t' : Task}

/-- A delivery knows what it sends. Source: `app/api/worker/allocate/route.ts` `handler`. Kind: L -/
theorem callOk_of_worker {σ : Store} {hold : ℕ} {job : AllocateJobPayload} {pc : WorkerPc}
    {call : Call} (hjob : JobOk σ job) (hpc : WorkerOk σ job pc) (hcall : pc.call hold job = some call) :
    Store.CallOk σ call := by
  obtain ⟨r, hr, hk, ht⟩ := hjob.booked
  cases pc with
  | chaosGate | refund | respond => cases hcall
  | allocate price =>
    cases hcall
    exact ⟨r, hr, ht⟩
  | charge price seat =>
    cases hcall
    obtain ⟨r', hr', hp⟩ := hpc
    obtain rfl := Option.eq_some_unique hr hr'
    exact ⟨_, r, hr, hk, hp⟩
  | confirm price seat payment =>
    cases hcall
    obtain ⟨pay, hpay, hst, hpk⟩ := hpc
    exact ⟨r, pay, hr, hpay, hst, hpk.trans hk.symm⟩
  | getBooking | releaseSoldOut | releaseFailed | releaseForRetry =>
    cases hcall
    exact ⟨r, hr⟩
  | commitSoldOut | commitFailed | commitExpired | commitConfirmed =>
    cases hcall
    trivial

/-- **A handler knows what it sends.** Source: the routes of `app/api`. Kind: L -/
theorem TaskOk.callOk (h : s.TaskOk t) {call : Call} (hcall : t.call cfg = some call) :
    Store.CallOk s.store call := by
  cases t with
  | ingress req pc =>
    cases pc with
    | start | publish | respond => cases hcall
    | createBooking k body =>
      cases hcall
      exact h.2
    | rollback job =>
      cases hcall
      obtain ⟨r, hr, -⟩ := JobOk.booked h
      exact ⟨r, hr⟩
    | idempotencyCheck | commitRefused | commitAccepted =>
      cases hcall
      trivial
  | worker d pc => exact callOk_of_worker h.1 h.2.2 hcall
  | webhook cb pc =>
    obtain ⟨r, hr, -⟩ := h.1.booked
    cases pc with
    | release =>
      cases hcall
      exact ⟨r, hr⟩
    | insertDlq | commit =>
      cases hcall
      trivial
    | respond => cases hcall
  | dlqRetry id pc =>
    cases pc with
    | publish | respond => cases hcall
    | lookup | mark =>
      cases hcall
      trivial
  | sweeper pc =>
    cases pc with
    | sweep =>
      cases hcall
      trivial
    | respond => cases hcall

/-- What a handler sends about messages is true. Source: `app/api/book/route.ts`,
`app/api/worker/allocate/route.ts`, `app/api/webhooks/qstash-failure/route.ts`. Kind: L -/
theorem TaskOk.sent (h : s.TaskOk t) {call : Call} (hcall : t.call cfg = some call) :
    s.Sent call := by
  cases t with
  | ingress req pc =>
    cases pc with
    | start | publish | respond => cases hcall
    | commitAccepted job =>
      cases hcall
      exact fun _ => h.2
    | commitRefused job =>
      cases hcall
      exact fun hst => absurd hst (by decide)
    | idempotencyCheck | createBooking | rollback =>
      cases hcall
      trivial
  | worker d pc =>
    cases pc with
    | chaosGate | refund | respond => cases hcall
    | commitSoldOut | commitFailed | commitExpired | commitConfirmed =>
      cases hcall
      exact fun hst => absurd hst (by decide)
    | getBooking | allocate | releaseSoldOut | charge | releaseFailed | releaseForRetry | confirm =>
      cases hcall
      trivial
  | webhook cb pc =>
    cases pc with
    | insertDlq =>
      cases hcall
      exact h.2.1
    | release =>
      cases hcall
      trivial
    | commit =>
      cases hcall
      exact fun hst => absurd hst (by decide)
    | respond => cases hcall
  | dlqRetry id pc =>
    cases pc with
    | publish | respond => cases hcall
    | lookup | mark =>
      cases hcall
      trivial
  | sweeper pc =>
    cases pc with
    | sweep =>
      cases hcall
      trivial
    | respond => cases hcall

end calls

/-! ## A handler receives a reply -/

section replies

variable {cfg : Config} {s s' : Sys} {a : Action}

/-- A call that fails a booking has settled it when it replies. Source: migration
`20260418000000_split_release_hold`. Kind: L -/
theorem Inv.settled_of_done (hinv : Inv cfg s) {i : ℕ} {e : Exec} {r : Reply} {b : BookingId}
    {why : String} (he : s.store.execs[i]? = some e) (hpc : e.pc = .done r)
    (hcall : e.call.fails = some (b, why)) : Settled s.store b :=
  (hinv.store.fails i e he b why hcall).settled r hpc

/-- **A delivery receives a reply.** Source: `app/api/worker/allocate/route.ts` `handler`. Kind: L -/
theorem Inv.worker_receive (hinv : Inv cfg s) {d : Delivery} {pc pc' : WorkerPc} {i : ℕ} {e : Exec}
    {r : Reply} (he : s.store.execs[i]? = some e) (hdone : e.pc = .done r)
    (hcall : pc.call cfg.holdDurationSec d.job = some e.call)
    (hreply : WorkerPc.Replied d.retried d.job s.store.now pc r pc')
    (hpc : WorkerOk s.store d.job pc) : WorkerOk s.store d.job pc' := by
  have hok := hinv.store.replies i e he r (.inr hdone)
  cases hreply with
  | noBooking =>
    rw [← Option.some.inj hcall] at hok
    obtain ⟨r, r', hrow, -⟩ := hok
    cases hrow
  | @pending row hst =>
    rw [← Option.some.inj hcall] at hok
    obtain ⟨r, r', hrow, hr', hg⟩ := hok
    cases hrow
    exact ⟨r', hr', hg.pricePaise⟩
  | @terminal row hst =>
    rw [← Option.some.inj hcall] at hok
    obtain ⟨r, r', hrow, hr', hg⟩ := hok
    cases hrow
    obtain rfl := hg.settled hst
    exact fun _ => .inl ⟨r', hr', hst⟩
  | soldOut => trivial
  | allocated => exact hpc
  | soldOutReleased => exact hinv.settled_of_done he hdone (by rw [← Option.some.inj hcall]; rfl)
  | soldOutCommitted => exact fun _ => .inl hpc
  | paid =>
    rw [← Option.some.inj hcall] at hok
    exact hok
  | @refused price seat code =>
    unfold WorkerPc.onPaymentError
    split <;> rfl
  | failedReleased =>
    exact ⟨hpc, hinv.settled_of_done he hdone (by rw [← Option.some.inj hcall]; rfl)⟩
  | failedCommitted => exact fun _ => .inl hpc.2
  | retryReleased =>
    rintro (hst | hst) <;> rw [show WorkerResponse.status _ = 500 from hpc] at hst <;> cases hst
  | confirmed =>
    obtain ⟨r, hr, hst, hseat, -⟩ := (hinv.store.confirms i e he _ _ _
      (Option.some.inj hcall).symm).confirmed _ hdone
    exact ⟨r, hr, hst, hseat⟩
  | holdLost => exact hpc
  | expiredCommitted => exact fun _ => .inr rfl
  | confirmedCommitted => exact fun _ => .inl (ConfirmedWith.settled hpc)

/-- **A request receives a reply.** Source: `app/api/book/route.ts` `handle`. Kind: L -/
theorem Inv.ingress_receive (hinv : Inv cfg s) {req : PostRequest} {pc pc' : IngressPc} {i : ℕ}
    {e : Exec} {r : Reply} (he : s.store.execs[i]? = some e) (hdone : e.pc = .done r)
    (hcall : pc.call cfg req = some e.call) (hreply : IngressPc.Replied cfg pc r pc')
    (hpc : s.IngressOk pc) : s.IngressOk pc' := by
  have hok := hinv.store.replies i e he r (.inr hdone)
  cases hreply with
  | fresh =>
    rw [← Option.some.inj hcall] at hok
    exact ⟨hpc, hok⟩
  | mismatch | inflight | refused => exact fun hst => absurd hst (by simp [IngressResponse.status])
  | @replay k body row st cached hst hbody =>
    rintro hst' b hb
    cases hb
    exact hinv.replays i e he row false (.inr hdone) st cached hst hbody hst'
  | @created k body id =>
    rw [← Option.some.inj hcall] at hok
    obtain ⟨hchecks, row, hr, hk, ht, -⟩ := hok
    obtain ⟨⟨hkey, raw, hraw⟩, -⟩ := hpc
    exact ⟨AllocateJobPayload.valid_of_safeParse hkey hraw rfl rfl hchecks, row, hr, hk, ht⟩
  | rolledBack => exact hpc
  | accepted =>
    rintro - b hb
    cases hb
    exact hpc.2

/-- **A failure callback receives a reply.** Source: `app/api/webhooks/qstash-failure/route.ts`
`handler`. Kind: L -/
theorem Inv.webhook_receive (hinv : Inv cfg s) {cb : FailureCallback} {pc pc' : WebhookPc} {i : ℕ}
    {e : Exec} {r : Reply} (he : s.store.execs[i]? = some e) (hdone : e.pc = .done r)
    (hcall : pc.call cb = some e.call) (hreply : WebhookPc.Replied pc r pc')
    (hpc : s.WebhookOk cb pc) : s.WebhookOk cb pc' := by
  have hok := hinv.store.replies i e he r (.inr hdone)
  cases hreply with
  | recorded =>
    rw [← Option.some.inj hcall] at hok
    exact hok
  | recordedOnly =>
    rw [← Option.some.inj hcall] at hok
    exact fun _ => hok
  | released => exact ⟨hpc, hinv.settled_of_done he hdone (by rw [← Option.some.inj hcall]; rfl)⟩
  | committed => exact fun _ => hpc.1

/-- **An operator's retry receives a reply.** Source: `app/api/admin/dlq/[id]/retry/route.ts` `POST`.
Kind: L -/
theorem Inv.dlqRetry_receive (hinv : Inv cfg s) {id : ℕ} {pc pc' : DlqRetryPc} {i : ℕ} {e : Exec}
    {r : Reply} (he : s.store.execs[i]? = some e) (hdone : e.pc = .done r)
    (hcall : pc.call id = some e.call) (hreply : DlqRetryPc.Replied pc r pc') :
    s.DlqRetryOk pc' := by
  have hok := hinv.store.replies i e he r (.inr hdone)
  cases hreply with
  | missing | invalid | marked => trivial
  | @found row =>
    rw [← Option.some.inj hcall] at hok
    obtain ⟨j, hj, hpayload⟩ := hok
    obtain ⟨msg, hmsg, hm⟩ := hinv.dlqJobs j hj
    have hjob := hinv.messages _ msg hmsg
    rw [hm, hpayload] at hjob
    exact hjob

/-- **A handler receives a reply.** Source: the routes of `app/api`. Kind: L -/
theorem Inv.receive (hinv : Inv cfg s) {c i left : ℕ} {t t' : Task} {e : Exec} {r : Reply}
    (hcl : s.clients[c]? = some ⟨t, .waiting i left⟩) (he : s.store.execs[i]? = some e)
    (hdone : e.pc = .done r) (ht : t.onReply cfg s.store.now r = some t') : s.TaskOk t' := by
  have hok : s.TaskOk t := hinv.tasks c _ hcl
  obtain ⟨e', he', hcall, -⟩ := hinv.waits c t i left hcl
  obtain rfl := Option.eq_some_unique he he'
  cases t with
  | ingress req pc =>
    obtain ⟨pc', hpc', rfl⟩ := Option.map_eq_some_iff.mp ht
    exact hinv.ingress_receive he hdone hcall (IngressPc.replied hpc') hok
  | worker d pc =>
    obtain ⟨pc', hpc', rfl⟩ := Option.map_eq_some_iff.mp ht
    exact ⟨hok.1, hok.2.1, hinv.worker_receive he hdone hcall (WorkerPc.replied hpc') hok.2.2⟩
  | webhook cb pc =>
    obtain ⟨pc', hpc', rfl⟩ := Option.map_eq_some_iff.mp ht
    exact ⟨hok.1, hok.2.1, hinv.webhook_receive he hdone hcall (WebhookPc.replied hpc') hok.2.2⟩
  | dlqRetry id pc =>
    obtain ⟨pc', hpc', rfl⟩ := Option.map_eq_some_iff.mp ht
    exact hinv.dlqRetry_receive he hdone hcall (DlqRetryPc.replied hpc')
  | sweeper pc =>
    obtain ⟨pc', hpc', rfl⟩ := Option.map_eq_some_iff.mp ht
    trivial

end replies

/-! ## A handler goes on without the store -/

section goes

variable {cfg : Config} {s s' : Sys} {a : Action} {t t' : Task}

/-- After an exception. Source: the routes of `app/api` (`catch` blocks). Kind: L -/
theorem TaskOk.onThrow (h : s.TaskOk t) (hrun : t.status = none) : s.TaskOk t.onThrow := by
  cases t with
  | ingress req pc =>
    cases pc with
    | publish job => exact h
    | rollback job => exact h
    | respond r => cases hrun
    | _ => exact fun hst => absurd hst (by simp [IngressResponse.status])
  | worker d pc =>
    refine ⟨h.1, h.2.1, ?_⟩
    cases pc with
    | charge price seat =>
      simp only [WorkerPc.onThrow, WorkerPc.onOtherError]
      split <;> rfl
    | respond r => cases hrun
    | _ => exact fun hst => absurd hst (by simp [WorkerResponse.status])
  | webhook cb pc =>
    refine ⟨h.1, h.2.1, ?_⟩
    cases pc with
    | insertDlq => exact fun hst => absurd hst (by decide)
    | release => exact fun _ => h.2.2
    | commit => exact fun _ => h.2.2.1
    | respond st => cases hrun
  | dlqRetry id pc => cases pc <;> trivial
  | sweeper pc => trivial

/-- Past the gates of the ingress. Source: `app/api/book/route.ts` `handle` (steps 1–4). Kind: L -/
theorem ingressOk_gate (s : Sys) (req : PostRequest) (rateOk depthOk : Bool) :
    s.IngressOk (.gate req rateOk depthOk) := by
  have herror : ∀ st code, st ≠ 202 → s.IngressOk (.respond (.error st code)) :=
    fun st code hne hst => absurd hst hne
  unfold IngressPc.gate
  split
  · exact herror _ _ (by decide)
  · rename_i k hk
    split
    · exact herror _ _ (by decide)
    · rename_i hre
      split
      · exact herror _ _ (by decide)
      · rename_i body hbody
        obtain ⟨raw, -, hraw⟩ := Option.bind_eq_some_iff.mp hbody
        split
        · exact herror _ _ (by decide)
        · split
          · exact herror _ _ (by decide)
          · exact ⟨by simpa using hre, raw, hraw⟩

/-- Whoever awaits a call or publishes has not finished. Source: none: infrastructure. Kind: L -/
theorem status_of_call {call : Call} (h : t.call cfg = some call) : t.status = none := by
  cases t with
  | ingress req pc => cases pc <;> first | rfl | cases h
  | worker d pc => cases pc <;> first | rfl | cases h
  | webhook cb pc => cases pc <;> first | rfl | cases h
  | dlqRetry id pc => cases pc <;> first | rfl | cases h
  | sweeper pc => cases pc <;> first | rfl | cases h

/-- Whoever publishes is a request or an operator's retry at that point.
Source: `infra/qstash/publisher.ts` `publishAllocateJob` (call sites). Kind: L -/
theorem publishing_cases {job : AllocateJobPayload} (h : t.publishing = some job) :
    (∃ req, t = .ingress req (.publish job)) ∨ ∃ id, t = .dlqRetry id (.publish job) := by
  unfold Task.publishing at h
  split at h <;> cases h
  · exact .inl ⟨_, rfl⟩
  · exact .inr ⟨_, rfl⟩

/-- What is published is a good job. Source: `app/api/book/route.ts`,
`app/api/admin/dlq/[id]/retry/route.ts`. Kind: L -/
theorem TaskOk.publishing (h : s.TaskOk t) {job : AllocateJobPayload}
    (hjob : t.publishing = some job) : JobOk s.store job := by
  rcases publishing_cases hjob with ⟨req, rfl⟩ | ⟨id, rfl⟩ <;> exact h

/-- **A handler goes on without the store.** Source: the routes of `app/api`. Kind: L -/
theorem TaskOk.goes (h : s.TaskOk t) (hle : Le s s') {c : ℕ} {job : Option AllocateJobPayload}
    (hgoes : Goes cfg c a t t' job)
    (hpub : ∀ j, a = .publish c true true → t.publishing = some j → s'.Published j.bookingId) :
    s'.TaskOk t' := by
  cases hgoes with
  | throw hcall => exact (h.onThrow (status_of_call hcall)).mono hle
  | gate => exact ingressOk_gate _ _ _ _
  | @published _ job hjob =>
    have hok := h.publishing hjob
    have hpublished := hpub job rfl hjob
    rcases publishing_cases hjob with ⟨req, rfl⟩ | ⟨id, rfl⟩
    · exact ⟨hok.mono hle.store, hpublished⟩
    · trivial
  | publishLost hjob | publishFailed hjob =>
    refine (h.onThrow ?_).mono hle
    rcases publishing_cases hjob with ⟨req, rfl⟩ | ⟨id, rfl⟩ <;> rfl
  | @chaosPassed d =>
    refine ⟨h.1.mono hle.store, h.2.1.mono hle, ?_⟩
    rw [WorkerPc.parse, if_pos h.1.valid]
    trivial
  | @chaosFailed d mode answer hanswer =>
    refine ⟨h.1.mono hle.store, h.2.1.mono hle, ?_⟩
    rintro (hst | hst) <;> rw [hanswer] at hst <;> cases hst

/-- A publication the broker takes. Source: `infra/qstash/publisher.ts` `publishAllocateJob`.
Kind: L -/
theorem Stepped.published {c : ℕ} {cl : Client} {job : AllocateJobPayload} {acknowledged : Bool}
    (hs : Stepped cfg s (.publish c true acknowledged) s') (hcl : s.running c = some cl)
    (hjob : cl.task.publishing = some job) : s'.Published job.bookingId := by
  generalize ha : Action.publish c true acknowledged = a at hs
  cases hs with
  | start ht => cases ht <;> cases ha
  | @go _ c' cl' t' job' hcl' hgoes =>
    have hc : c' = c := by
      have := hgoes.client
      rw [← ha] at this
      exact (Option.some.inj this).symm
    subst hc
    obtain rfl := Option.eq_some_unique hcl hcl'
    have hjob' : job' = some job := by
      generalize cl.task = t at hjob hgoes
      cases hgoes <;> cases ha <;> rename_i hjob' <;> rw [hjob] at hjob' <;> rw [hjob']
    subst hjob'
    exact ⟨⟨job, .active 0⟩, by simp [enqueued, enqueue, setClient], rfl⟩
  | _ => cases ha

/-- A handler starts with nothing to carry but its message. Source: the routes of `app/api`. Kind: L -/
theorem Inv.starts (hinv : Inv cfg s) (h : Starts s a t) : s.TaskOk t := by
  cases h with
  | post => trivial
  | deliver hmsg => exact ⟨hinv.messages _ _ hmsg, ⟨_, hmsg, rfl⟩, trivial⟩
  | @failureCallback m msg cb hmsg hcb =>
    have hcb' : cb.sourceMessageId = m ∧ cb.payload = msg.payload := by
      unfold Message.callback at hcb
      split at hcb <;> cases hcb <;> exact ⟨rfl, rfl⟩
    obtain ⟨rfl, hpayload⟩ := hcb'
    exact ⟨hpayload ▸ hinv.messages _ _ hmsg, ⟨msg, hmsg, hpayload.symm⟩, trivial⟩
  | retryDlq => trivial
  | sweep => trivial

end goes

/-! ## The invariant -/

section invariant

variable {cfg : Config} {s s' : Sys} {a : Action}

/-- The handlers' facts after a step. Source: none: infrastructure. Kind: L -/
theorem Inv.tasks_step (hinv : Inv cfg s) (hs : Stepped cfg s a s') :
    ∀ (c : ℕ) (cl : Client), s'.clients[c]? = some cl → s'.TaskOk cl.task := by
  have hle := hs.le hinv.store.locks
  refine hs.forall_tasks (P := TaskOk) hinv.tasks (fun t h => h.mono hle)
    (fun t ht => (hinv.starts ht).mono hle) ?_ ?_ ?_
  · intro c i left t e r t' hcl he hpc ht _
    exact (hinv.receive hcl he hpc ht).mono hle
  · intro c cl t' job hcl hgoes hok
    refine hok.goes hle hgoes fun j ha hjob => ?_
    subst ha
    exact hs.published hcl hjob
  · intro d p hok
    exact ⟨hok.1.mono hle.store, hok.2.1.mono hle, trivial⟩

/-- The callers of the store know what they send. Source: the routes of `app/api`. Kind: L -/
theorem Inv.sendsOk (hinv : Inv cfg s) {b : Store.Action}
    (hb : (a = .store b ∧ ∀ call client, b ≠ .begin call client) ∨
      ∃ c cl call, a = .issue c ∧ b = .begin call c ∧ s.running c = some cl ∧
        cl.task.call cfg = some call) : Store.SendsOk s.store b := by
  rintro call client rfl
  rcases hb with ⟨-, hno⟩ | ⟨c, cl, call', -, heq, hcl, hcall⟩
  · exact absurd rfl (hno call client)
  · cases heq
    exact (hinv.tasks client cl (running_eq_some.mp hcl).1).callOk hcall

/-- The store stays trusted, and its tickets valid. Source: none: infrastructure. Kind: L -/
theorem Inv.store_step (hinv : Inv cfg s) (hs : Stepped cfg s a s') :
    s'.store.Trusted ∧ s'.store.TicketsOk := by
  rcases hs.store_cases with heq | ⟨b, hb, hcause⟩
  · rw [heq]
    exact ⟨hinv.store, hinv.tickets⟩
  · have hstep := Store.step_cases hb
    exact ⟨hinv.store.step hstep (hinv.sendsOk hcause), hinv.tickets.step hinv.store hstep⟩

/-- Messages stay good jobs. Source: `infra/qstash/publisher.ts`. Kind: L -/
theorem Inv.messages_step (hinv : Inv cfg s) (hs : Stepped cfg s a s') :
    ∀ (m : ℕ) (msg : Message), s'.messages[m]? = some msg → JobOk s'.store msg.payload := by
  have hle := hs.le hinv.store.locks
  intro m msg' hmsg'
  rcases hs.message_cases hmsg' with ⟨msg, hmsg, hpayload, -⟩ | ⟨c, cl, job, hcl, hjob, rfl⟩
  · rw [hpayload]
    exact (hinv.messages m msg hmsg).mono hle.store
  · exact ((hinv.tasks c cl (running_eq_some.mp hcl).1).publishing hjob).mono hle.store

/-- What is sent stays true. Source: none: infrastructure. Kind: L -/
theorem Inv.calls_step (hinv : Inv cfg s) (hs : Stepped cfg s a s') :
    ∀ (i : ℕ) (e : Exec), s'.store.execs[i]? = some e → s'.Sent e.call :=
  hs.forall_calls (P := Sent) hinv.calls (fun _ h => h.mono (hs.le hinv.store.locks))
    fun c cl _ hcl hcall => (hinv.tasks c cl hcl).sent hcall

/-- Cached `202`s stay backed. Source: `app/api/book/route.ts` (step 10), migration
`150_fn_write_idempotency_response`. Kind: L -/
theorem Inv.keys_step (hinv : Inv cfg s) (hs : Stepped cfg s a s') :
    ∀ row ∈ s'.store.idempotencyKeys, s'.RowBacked row := by
  have hle := hs.le hinv.store.locks
  intro row hrow
  suffices h : s.RowBacked row from h.mono hle
  rcases hs.store_cases with heq | ⟨b, hb, -⟩
  · rw [heq] at hrow
    exact hinv.keys row hrow
  · have hnew := Table.find?_of_mem hrow
    generalize key row = k at hnew
    rcases Store.key_change (Store.step_cases hb) hnew with hold | ⟨i, ch, e, -, he, -, hw⟩
    · exact hinv.keys row (Table.mem_of_find? hold)
    · have hsent := hinv.calls i e he
      cases hold : s.store.idempotencyKeys.find? k with
      | none =>
        rw [hold] at hw
        cases hw with
        | check hcall =>
          intro st body hst
          cases hst
      | some row₀ =>
        rw [hold] at hw
        cases hw with
        | answer hcall =>
          rw [hcall] at hsent
          intro st body hst hbody
          cases hst
          cases hbody
          exact hsent

/-- Replies of `idempotency_check` stay backed. Source: migration `140_fn_idempotency_check`.
Kind: L -/
theorem Inv.replays_step (hinv : Inv cfg s) (hs : Stepped cfg s a s') :
    ∀ (i : ℕ) (e : Exec), s'.store.execs[i]? = some e → ∀ row inserted,
      e.pc = .ret (.idempotency row inserted) ∨ e.pc = .done (.idempotency row inserted) →
      s'.RowBacked row := by
  have hle := hs.le hinv.store.locks
  suffices h : ∀ (i : ℕ) (e : Exec), s'.store.execs[i]? = some e → ∀ row inserted,
      e.pc = .ret (.idempotency row inserted) ∨ e.pc = .done (.idempotency row inserted) →
      s.RowBacked row from fun i e he row ins hpc => (h i e he row ins hpc).mono hle
  rcases hs.store_cases with heq | ⟨b, hb, -⟩
  · rw [heq]
    exact hinv.replays
  · refine (Store.step_cases hb).forall_execs (P := fun _ _ e => ∀ row inserted,
      e.pc = .ret (.idempotency row inserted) ∨ e.pc = .done (.idempotency row inserted) →
      s.RowBacked row) hinv.replays ?_ ?_ ?_ ?_ ?_ ?_
    · intro i e _ _ hP
      exact hP
    · intro i e _ hpc row ins hret
      exact absurd hret (Store.not_returned hpc _)
    · intro i e next _ _ he _ hr row ins hret
      rcases hret with hret | hret
      · obtain ⟨call, client, now, pc⟩ := e
        cases hret
        cases hr with
        | keyKnown hrow => exact hinv.keys row (Table.mem_of_find? hrow)
      · exact absurd hret (hr.next_ne_done _)
    · intro i e us ub next seats bookings _ _ _ _ hr _ _ row ins hret
      rcases hret with hret | hret
      · obtain ⟨call, client, now, pc⟩ := e
        cases hret
        cases hr
      · exact absurd hret (hr.next_ne_done _)
    · intro i e r _ hP hpc _ _ _ row ins hret
      rcases hret with hret | hret <;> cases hret
      exact hP row ins (.inl hpc)
    · intro i e st _ _ hr hst _ _ _ _ row ins hret
      rcases hret with hret | hret
      · obtain ⟨call, client, now, pc⟩ := e
        cases hr with
        | keyNew =>
          cases hret
          intro st body hst
          cases hst
        | keyKnown => cases hst
        | _ => cases hret
      · exact absurd hret (hr.next_ne_done _)

/-- Dead-lettered jobs stay bodies of their messages. Source:
`app/api/webhooks/qstash-failure/route.ts`. Kind: L -/
theorem Inv.dlqJobs_step (hinv : Inv cfg s) (hs : Stepped cfg s a s') :
    ∀ j ∈ s'.store.dlqJobs, s'.Carries j.qstashMessageId j.payload := by
  have hle := hs.le hinv.store.locks
  intro j hj
  suffices h : s.Carries j.qstashMessageId j.payload from h.mono hle
  rcases hs.store_cases with heq | ⟨b, hb, -⟩
  · rw [heq] at hj
    exact hinv.dlqJobs j hj
  · have hstep := Store.step_cases hb
    generalize s'.store = σ' at *
    cases hstep with
    | @insertDlqJob i ch e row next he hr hnew =>
      rcases (Table.mem_insert (h := hnew)).mp hj with hmem | rfl
      · exact hinv.dlqJobs j hmem
      · have hsent := hinv.calls i e he
        obtain ⟨call, client, now, pc⟩ := e
        cases hr with
        | dlqNew => exact hsent
    | @updateDlqJobs i ch e u next he hr =>
      have hmem : j ∈ s.store.dlqJobs.modify u.apply u.key_apply := hj
      obtain ⟨j₀, hj₀, rfl⟩ := Table.mem_modify.mp hmem
      obtain ⟨hm, hpayload⟩ := hr.dlqJobs_update j₀
      rw [hm, hpayload]
      exact hinv.dlqJobs j₀ hj₀
    | _ => exact hinv.dlqJobs j hj

/-- An execution stays, with its call and its client. Source: none: infrastructure. Kind: L -/
theorem Stepped.exec_stays (hs : Stepped cfg s a s') {i : ℕ} {e : Exec}
    (he : s.store.execs[i]? = some e) :
    ∃ e', s'.store.execs[i]? = some e' ∧ e'.call = e.call ∧ e'.client = e.client := by
  rcases hs.store_cases with heq | ⟨b, hb, -⟩
  · rw [heq]
    exact ⟨e, he, rfl, rfl⟩
  · obtain ⟨e', he', hcall, hclient, -⟩ := (Store.step_cases hb).exec_old he
    exact ⟨e', he', hcall, hclient⟩

/-- A handler waits for the call it awaits. Source: `lib/resilience/pg-policy.ts`. Kind: L -/
theorem Inv.waits_step (hinv : Inv cfg s) (hs : Stepped cfg s a s') :
    ∀ (c : ℕ) t i left, s'.clients[c]? = some ⟨t, .waiting i left⟩ →
      ∃ e : Exec, s'.store.execs[i]? = some e ∧ t.call cfg = some e.call ∧ e.client = c := by
  intro c t i left hcl'
  rcases hs.client_cases hcl' with ⟨cl, hcl, ⟨rfl, -⟩ | hm⟩ | ⟨-, t', -, heq⟩
  · obtain ⟨e, he, hcall, hclient⟩ := hinv.waits c t i left hcl
    obtain ⟨e', he', hcall', hclient'⟩ := hs.exec_stays he
    exact ⟨e', he', by rw [hcall, hcall'], hclient'.trans hclient⟩
  · generalize hnew : (⟨t, .waiting i left⟩ : Client) = cl' at hm
    cases hm with
    | issue hlive hcall =>
      cases hnew
      cases hs with
      | @issue _ cl' call' left' hcl₀ hcall₀ =>
        rw [running_eq_some.mpr ⟨hcl, hlive⟩] at hcl₀
        cases hcl₀
        obtain rfl := Option.eq_some_unique hcall hcall₀
        exact ⟨⟨_, c, s.store.now, .sent⟩, by simp [Store.begin], hcall, rfl⟩
      | start ht => cases ht
      | go _ hgoes => exact absurd rfl (hgoes.ne_issue c)
    | _ => cases hnew
  · cases heq

/-- An execution after a step was sent by a handler from before it. Source: none: infrastructure.
Kind: L -/
theorem Inv.sender_lt (hinv : Inv cfg s) (hs : Stepped cfg s a s') {i : ℕ} {e' : Exec}
    (he' : s'.store.execs[i]? = some e') : e'.client < s.clients.length := by
  rcases hs.store_cases with heq | ⟨b, hb, hcause⟩
  · rw [heq] at he'
    exact hinv.senders i e' he'
  · have hstep := Store.step_cases hb
    rcases hstep.exec_new he' with ⟨e, he⟩ | ⟨call, client, rfl, -, rfl⟩
    · obtain ⟨e₁, he₁, -, hclient, -⟩ := hstep.exec_old he
      obtain rfl := Option.eq_some_unique he' he₁
      rw [hclient]
      exact hinv.senders i e he
    · rcases hcause with ⟨-, hno⟩ | ⟨c, cl, call', -, heq, hcl, -⟩
      · exact absurd rfl (hno call client)
      · cases heq
        exact (List.getElem?_eq_some_iff.mp (running_eq_some.mp hcl).1).1

/-- **Every step keeps the invariant.** Source: none: infrastructure. Kind: L -/
theorem Inv.step (hinv : Inv cfg s) (hs : Stepped cfg s a s') : Inv cfg s' where
  store := (hinv.store_step hs).1
  tickets := (hinv.store_step hs).2
  messages := hinv.messages_step hs
  calls := hinv.calls_step hs
  keys := hinv.keys_step hs
  replays := hinv.replays_step hs
  dlqJobs := hinv.dlqJobs_step hs
  waits := hinv.waits_step hs
  senders _ _ he := (hinv.sender_lt hs he).trans_le hs.clients_length
  tasks := hinv.tasks_step hs

/-- An initial pipeline satisfies the invariant. Source: none: infrastructure. Kind: L -/
theorem Initial.inv (h : Initial s) : Inv cfg s where
  store := h.store_initial.trusted
  tickets := h.store_initial.ticketsOk
  messages m msg hmsg := by
    rw [h.no_messages] at hmsg
    cases hmsg
  calls i e he := absurd he h.store_initial.no_exec
  keys row hrow := by
    rw [h.store_initial.keys_empty] at hrow
    cases hrow
  replays i e he := absurd he h.store_initial.no_exec
  dlqJobs j hj := by
    rw [h.store_initial.dlq_empty] at hj
    cases hj
  waits c t i left hcl := by
    rw [h.no_clients] at hcl
    cases hcl
  senders i e he := absurd he h.store_initial.no_exec
  tasks c cl hcl := by
    rw [h.no_clients] at hcl
    cases hcl

/-- **The invariant holds in every reachable pipeline.** Source: none: infrastructure. Kind: L -/
theorem inv_of_reach {C : Sys → Action → Prop} (h : Reach (step cfg) Initial C s) : Inv cfg s :=
  h.invariant (fun _ h => h.inv) fun _ _ _ _ hinv _ hstep => hinv.step (step_cases hstep)

end invariant

end Sys

end TrainsAndTracks
