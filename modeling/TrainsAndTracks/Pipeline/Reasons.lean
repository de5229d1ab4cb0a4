import TrainsAndTracks.Pipeline.Intent
import TrainsAndTracks.Pipeline.Replay

/-!
# The reason of a failure

The reason of a `FAILED` booking is stored twice, by two calls of whoever fails it: `release_hold_terminal`
writes `bookings.failure_reason`, which a poll reports, and `write_idempotency_response` the body that a
replay answers. The first of the two is kept by a guard and the second is not, and the failure webhook writes
both once more under a mapping of its own.

* `PollResponse`, `Store.poll` — `GET /api/book/[jobId]`.
* `reasons` — the reason as something the cached response has to say (`Debts`).
* `reasons_differ` — the last attempt times out: the poll says `payment_timeout`, the replay
  `payment_failed`.
* `reasons_agree` — at rest both say the same, in the runs that `reasons` covers.
-/

namespace TrainsAndTracks

open Found

/-! ## The poll -/

/-- The body of a poll. Source: `app/api/book/[jobId]/route.ts` `GET`. Kind: D. Fidelity: exact -/
structure PollBody where
  jobId : BookingId
  status : BookingStatus
  queuedAt : Time
  confirmedAt : Option Time
  seatId : Option SeatId
  trainId : TrainId
  pricePaise : ℕ
  failureReason : Option String
  deriving DecidableEq, Repr

/-- An answer of the route. Source: `app/api/book/[jobId]/route.ts` `GET`, `notFound`. Kind: D.
Fidelity: exact -/
inductive PollResponse
  | ok (body : PollBody)
  | error (status : ℕ) (code message : String)
  deriving DecidableEq, Repr

namespace PollResponse

/-- `notFound`. Source: `app/api/book/[jobId]/route.ts` `notFound`. Kind: D. Fidelity: exact -/
def notFound : PollResponse := .error 404 "job_not_found" "booking not found for this jobId"

/-- The answer once PostgREST has replied: an error with its message, no row, or the row. Source:
`app/api/book/[jobId]/route.ts` `GET`. Kind: D. Fidelity: exact -/
def onReply : Except String (Option Booking) → PollResponse
  | .error message => .error 502 "upstream_failure" message
  | .ok none => notFound
  | .ok (some data) => .ok
      { jobId := data.id
        status := data.status
        queuedAt := data.createdAt
        confirmedAt := data.confirmedAt
        seatId := data.seatId
        trainId := data.trainId
        pricePaise := data.pricePaise
        failureReason := data.failureReason }

end PollResponse

/-- A poll that PostgREST answers; `none` is a `jobId` that is no UUID. Source:
`app/api/book/[jobId]/route.ts` `GET`. Kind: D. Fidelity: exact -/
def Store.poll (σ : Store) : Option BookingId → PollResponse
  | none => .notFound
  | some jobId => .onReply (.ok (σ.bookings.committed.find? jobId))

/-- A poll reports the row of the booking. Source: `app/api/book/[jobId]/route.ts` `GET`. Kind: L -/
theorem Store.poll_of_row {σ : Store} {b : BookingId} {r : Booking}
    (hr : σ.bookings.committed.find? b = some r) : σ.poll (some b) = .ok
      ⟨r.id, r.status, r.createdAt, r.confirmedAt, r.seatId, r.trainId, r.pricePaise, r.failureReason⟩ := by
  simp only [poll, hr, PollResponse.onReply]

/-! ## Who gives which reason -/

/-- The cached response gives the reason of a booking that the worker or the failure webhook has failed.
Source: `app/api/worker/allocate/route.ts` (steps 5 and 6),
`app/api/webhooks/qstash-failure/route.ts`. Kind: D -/
def Booking.reasoned (r : Booking) (st : Option ℕ) (body : Option CachedBody) : Bool :=
  r.status != .failed || r.failureReason == some "upstream_publish_failure" ||
    match st, body with
    | some _, some (.failed b why _) => b == r.id && r.failureReason == some why
    | _, _ => false

/-- The points of a delivery from which it goes on to cache the reason `why`. Source:
`app/api/worker/allocate/route.ts` (steps 5 and 6). Kind: D -/
def WorkerPc.cachesReason (why : String) : WorkerPc → Bool
  | releaseSoldOut | commitSoldOut => why == "sold_out"
  | releaseFailed f | commitFailed f => why == f.bodyReason
  | _ => false

/-- The handler goes on to cache that booking `b` has failed for the reason `why`. Source:
`app/api/worker/allocate/route.ts` (steps 5 and 6), `app/api/webhooks/qstash-failure/route.ts`. Kind: D -/
def Task.cachesReason (b : BookingId) (why : String) : Task → Bool
  | worker d pc => d.job.bookingId == b && pc.cachesReason why
  | webhook cb .release | webhook cb .commit => cb.payload.bookingId == b && why == cb.failureReason
  | _ => false

/-- The handler goes on to cache the reason of booking `r`. Source: `app/api/worker/allocate/route.ts`
(steps 5 and 6), `app/api/webhooks/qstash-failure/route.ts`. Kind: D -/
def Client.owesReason (σ : Store) (r : Booking) (cl : Client) : Bool :=
  cl.phase.unwritten σ && r.failureReason.any fun why => cl.task.cachesReason r.id why

namespace Sys

section owing

variable {cfg : Config} {s s' : Sys} {a : Action} {c : ℕ} {cl cl' : Client} {r : Booking}
variable {t t' : Task} {b : BookingId} {why : String} {σ σ' : Store} {x : Store.Action}

/-- What a handler owes. Source: none: infrastructure. Kind: L -/
theorem owesReason_iff : cl.owesReason σ r = true ↔ cl.phase.unwritten σ = true ∧
    ∃ why, r.failureReason = some why ∧ cl.task.cachesReason r.id why = true := by
  simp [Client.owesReason, Option.any_eq_true]

/-- Who caches a reason caches a failure. Source: `app/api/worker/allocate/route.ts` (steps 5 and 6),
`app/api/webhooks/qstash-failure/route.ts`. Kind: L -/
theorem caches_of_reason (h : t.cachesReason b why = true) : t.caches b .failed = true := by
  cases t with
  | worker d pc =>
    simp only [Task.cachesReason, Task.caches, Bool.and_eq_true] at h ⊢
    refine ⟨h.1, ?_⟩
    cases pc <;> first | rfl | cases h.2
  | webhook cb pc => cases pc <;> simp_all [Task.cachesReason, Task.caches]
  | ingress | dlqRetry | sweeper => cases h

/-- A handler after a reply still caches the reason, or has cached it. Source:
`app/api/worker/allocate/route.ts` (steps 5 and 6), `app/api/webhooks/qstash-failure/route.ts`.
Kind: L -/
theorem cachesReason_receive {now : Time} {reply : Reply} (h : t.onReply cfg now reply = some t')
    (hcaches : t.cachesReason b why = true) : t'.cachesReason b why = true ∨
    ∃ k n body, t.call cfg = some (.writeIdempotencyResponse k n body) := by
  cases t with
  | worker d pc =>
    obtain ⟨pc', hpc', rfl⟩ := Option.map_eq_some_iff.mp h
    cases WorkerPc.replied hpc' with
    | soldOutReleased | failedReleased => exact .inl hcaches
    | soldOutCommitted | failedCommitted => exact .inr ⟨_, _, _, rfl⟩
    | _ => simp [Task.cachesReason, WorkerPc.cachesReason] at hcaches
  | webhook cb pc =>
    obtain ⟨pc', hpc', rfl⟩ := Option.map_eq_some_iff.mp h
    cases WebhookPc.replied hpc' with
    | recorded | recordedOnly => cases hcaches
    | released => exact .inl hcaches
    | committed => exact .inr ⟨_, _, _, rfl⟩
  | ingress | dlqRetry | sweeper => cases hcaches

/-- The handler that no longer caches the reason it owes after the step. Source:
`app/api/worker/allocate/route.ts`, `app/api/webhooks/qstash-failure/route.ts`. Kind: D -/
def leavesReason (_ : Sys) : Action → Option ℕ
  | .crash c | .throw c => some c
  | _ => none

/-- Only handlers that run owe reasons. Source: none: infrastructure. Kind: L -/
theorem live_of_owesReason (h : cl.owesReason σ r = true) : cl.phase.live = true := by
  obtain ⟨hunwritten, -⟩ := owesReason_iff.mp h
  cases hph : cl.phase with
  | ready | waiting => rfl
  | answered | crashed =>
    rw [hph] at hunwritten
    cases hunwritten

/-- A handler owes a reason until it writes it. Source: `app/api/worker/allocate/route.ts` (steps 5
and 6), `app/api/webhooks/qstash-failure/route.ts`. Kind: L -/
theorem owesReason_store (hinv : Inv cfg s) (hs : s.store.Stepped x σ') (hcl : s.clients[c]? = some cl)
    (howes : cl.owesReason s.store r = true)
    (hr : s.store.bookings.committed.find? r.id = some r ∨ ∃ j, x = .commit j) :
    cl.owesReason σ' r = true ∨ ∃ i ch st body, x = .exec i ch ∧
      s.store.writing i = some (c, r.idempotencyKey, st, body) := by
  obtain ⟨hunwritten, why, hwhy, hcaches⟩ := owesReason_iff.mp howes
  refine (caches_store hinv hs hcl hunwritten (caches_of_reason hcaches) hr).imp_left fun hkept => ?_
  exact owesReason_iff.mpr ⟨hkept, why, hwhy, hcaches⟩

/-- A handler that goes on without the store and caches a reason has thrown. Source:
`app/api/worker/allocate/route.ts`, `app/api/webhooks/qstash-failure/route.ts`. Kind: L -/
theorem leavesReason_goes {job : Option AllocateJobPayload} (h : Goes cfg c a t t' job)
    (hcaches : t.cachesReason b why = true) : s.leavesReason a = some c := by
  cases h with
  | throw hcall => rfl
  | gate => cases hcaches
  | published hjob | publishLost hjob | publishFailed hjob =>
    rcases publishing_cases hjob with ⟨req, rfl⟩ | ⟨id, rfl⟩ <;> cases hcaches
  | chaosPassed | chaosFailed => simp [Task.cachesReason, WorkerPc.cachesReason] at hcaches

/-- A handler that moves goes on owing its reason, or crashes or throws. Source:
`app/api/worker/allocate/route.ts` (steps 5 and 6), `app/api/webhooks/qstash-failure/route.ts`.
Kind: L -/
theorem owesReason_moves (hinv : Inv cfg s) (hs : Stepped cfg s a s') (hm : Moves cfg s c a cl cl')
    (hcl : s.clients[c]? = some cl) (howes : cl.owesReason s.store r = true) :
    cl'.owesReason s'.store r = true ∨ s.leavesReason a = some c := by
  obtain ⟨hunwritten, why, hwhy, hcaches⟩ := owesReason_iff.mp howes
  cases hm with
  | issue => exact .inl (owesReason_iff.mpr ⟨unwritten_issue hs _, why, hwhy, hcaches⟩)
  | again => exact .inl (owesReason_iff.mpr ⟨rfl, why, hwhy, hcaches⟩)
  | receive he hpc ht =>
    rcases cachesReason_receive ht hcaches with hkept | ⟨k, n, body, hwrite⟩
    · exact .inl (owesReason_iff.mpr ⟨rfl, why, hwhy, hkept⟩)
    · rw [written_of_reply hinv hcl he hpc hwrite] at hunwritten
      cases hunwritten
  | go hlive hgoes => exact .inr (leavesReason_goes hgoes hcaches)
  | refund => simp [Task.cachesReason, WorkerPc.cachesReason] at hcaches
  | answer hlive hst =>
    obtain ⟨hnot, -⟩ := owes_nothing r.id .failed hst
    rw [caches_of_reason hcaches] at hnot
    cases hnot
  | crash => exact .inr rfl

/-- The debts of a reason: the cached response gives it. Source: `app/api/worker/allocate/route.ts`
(steps 5 and 6), `app/api/webhooks/qstash-failure/route.ts`. Kind: D -/
def reasons (cfg : Config) : Debts cfg where
  reported := Booking.reasoned
  owes σ r cl := cl.owesReason σ r
  abandons := leavesReason
  pending h := by simp [Booking.reasoned, h]
  live := live_of_owesReason
  store := owesReason_store
  moves hinv hs hm hcl _ := owesReason_moves hinv hs hm hcl

end owing

/-! ## Poll and replay -/

/-- Poll and replay give the same reason: at rest, the body replayed for a booking that was failed by the
worker or by the failure webhook gives the reason that a poll of the booking gives. Source:
`app/api/book/[jobId]/route.ts` `GET`, `app/api/book/route.ts` (step 7). Kind: D -/
def ReasonsAgree (cfg : Config) (s : Sys) : Prop :=
  s.Quiescent → ∀ b r row req body, s.store.bookings.committed.find? b = some r →
    r.status = .failed → r.failureReason ≠ some "upstream_publish_failure" →
    s.store.idempotencyKeys.find? r.idempotencyKey = some row →
    cfg.requestHash body = row.requestHash →
    ∃ st why train polled, s.replay cfg r.idempotencyKey req body = some (.replay st (.failed b why train)) ∧
      s.store.poll (some b) = .ok polled ∧ polled.failureReason = some why

/-- Deliveries do not overlap: a message is delivered when no handler runs and nothing that one has sent is
under way; and the broker is disciplined. Source: none: infrastructure. Kind: D -/
def Sequential (s : Sys) : Action → Prop
  | .deliver m retried => Disciplined s (.deliver m retried) ∧
      (∀ cl ∈ s.clients, cl.phase.live = false) ∧ ∀ e ∈ s.store.execs, ended e.pc = true
  | a => Disciplined s a

instance (s : Sys) (a : Action) : Decidable (Sequential s a) :=
  match a with
  | .deliver m retried => inferInstanceAs (Decidable (Disciplined s (.deliver m retried) ∧
      (∀ cl ∈ s.clients, cl.phase.live = false) ∧ ∀ e ∈ s.store.execs, ended e.pc = true))
  | .store _ | .post _ | .failureCallback _ | .retryDlq _ | .sweep | .issue _ | .receive _
  | .throw _ | .gate .. | .publish .. | .chaos .. | .refund _ | .answer _ | .crash _ =>
    .isTrue trivial

/-- Handler `c` allocates; its charge, execution 5, is refused with `code`, and the policy's retries find the
failure; the release and the response commit and the answer is `489`. Handler `c + 1` is the failure
callback. Source: none: infrastructure. Kind: D -/
def failingTerminally (c : ℕ) (code : PaymentErrorCode) : List Action :=
  [.chaos c none] ++ callReturns c 3 1 ++ callReturns c 4 2 ++
    [.issue c, .store (.start 5), .store (.exec 5 Store.usualChoice),
      .store (.exec 5 ⟨1, some code, "12951-A1"⟩), .store (.commit 5), .receive c] ++
    callReturns c 6 1 ++ callReturns c 7 1 ++ callReturns c 8 3 ++ callReturns c 9 1 ++
    [.answer c, .failureCallback 0] ++ callReturns (c + 1) 10 1 ++ callReturns (c + 1) 11 3 ++
    callReturns (c + 1) 12 1 ++ [.answer (c + 1)]

/-- Three deliveries die and the charge of the fourth one times out. Source: none: infrastructure.
Kind: D -/
def timingOutLast : List Action :=
  accepting ++ [.deliver 0 0, .crash 1, .deliver 0 1, .crash 2, .deliver 0 2, .crash 3, .deliver 0 3] ++
    failingTerminally 4 .gatewayTimeout

/-- At rest, the replay of a `FAILED` booking says `replayed` where its row says `stored`. Source: none:
infrastructure. Kind: D -/
def saysReasons (replayed stored : String) (s : Sys) : Bool :=
  s.atRest && s.store.bookings.committed.rows.any fun r => r.status == .failed &&
    r.failureReason == some stored && (s.store.idempotencyKeys.find? r.idempotencyKey).any fun row =>
      row.requestHash == "Asha" && match s.replay config r.idempotencyKey asha ⟨"12951", "Asha", none⟩ with
        | some (.replay _ (.failed _ why _)) => why == replayed
        | _ => false

/-- **The two reasons differ.** In some reachable pipeline at rest, with a disciplined broker and deliveries
that do not overlap, the replay of a booking says `payment_failed` and the poll `payment_timeout`. Source:
`app/api/worker/allocate/route.ts` (step 6), `app/api/book/[jobId]/route.ts` `GET`. Kind: P -/
theorem reasons_differ : ¬ ∀ s, Reach (step config) Initial Sequential s → s.ReasonsAgree config := by
  intro h
  have hrun : (run (guarded (step config) Sequential) opening timingOutLast).map
      (saysReasons "payment_failed" "payment_timeout") = some true := by decide +kernel
  obtain ⟨s, hreach, hp⟩ := reach_of_guarded initial_opening hrun
  simp only [saysReasons, Bool.and_eq_true, List.any_eq_true, beq_iff_eq, Option.any_eq_true] at hp
  obtain ⟨hrest, r, hr, ⟨hst, hstored⟩, row, hrow, hhash, hp⟩ := hp
  have hr := Table.find?_of_mem hr
  obtain ⟨st, why, train, polled, hreplay, hpoll, hwhy⟩ :=
    h s hreach (quiescent_of_atRest hrest).1 r.id r row asha ⟨"12951", "Asha", none⟩ hr hst
      (by rw [hstored]; decide) hrow hhash.symm
  rw [hreplay] at hp
  have hp : why = "payment_failed" := beq_iff_eq.mp hp
  obtain rfl := PollResponse.ok.inj ((Store.poll_of_row hr).symm.trans hpoll)
  have hwhy : r.failureReason = some why := hwhy
  rw [hstored, hp] at hwhy
  exact absurd hwhy (by decide)

/-- What a response that gives the reason is. Source: `app/api/worker/allocate/route.ts` (steps 5 and 6).
Kind: L -/
theorem failed_of_reasoned {r : Booking} {st : Option ℕ} {body : Option CachedBody}
    (h : r.reasoned st body = true) (hst : r.status = .failed)
    (hwhy : r.failureReason ≠ some "upstream_publish_failure") :
    ∃ n why train, st = some n ∧ body = some (.failed r.id why train) ∧ r.failureReason = some why := by
  simp only [Booking.reasoned, hst, bne_self_eq_false, beq_eq_false_iff_ne.mpr hwhy, Bool.false_or] at h
  split at h
  · obtain ⟨hb, hreason⟩ := (Bool.and_eq_true _ _).mp h
    rw [beq_iff_eq] at hb hreason
    exact ⟨_, _, _, rfl, by rw [hb], hreason⟩
  · cases h

/-- **Poll and replay give the same reason.** At rest, after a run all of whose steps are covered, the body
replayed for a booking that the worker or the failure webhook has failed gives the reason that a poll gives.
Source: `app/api/worker/allocate/route.ts` (steps 5 and 6), `app/api/webhooks/qstash-failure/route.ts`,
migration `20260418000000_split_release_hold`, `app/api/book/[jobId]/route.ts` `GET`. Kind: P -/
theorem reasons_agree {cfg : Config} {s : Sys} (h : Reach (step cfg) Initial (reasons cfg).Covered s) :
    s.ReasonsAgree cfg := by
  intro hrest b r row req body hr hst hwhy hrow hhash
  have hfresh : (reasons cfg).stale s.store r = false := Debts.fresh (Debts.owed (fun _ _ => id) h) hrest hr
  have hreasoned : r.reasoned row.responseStatus row.responseBody = true := by
    simpa [Debts.stale, hrow, reasons] using hfresh
  obtain rfl : r.id = b := Table.key_of_find? hr
  obtain ⟨st, why, train, hstatus, hbody, hreason⟩ := failed_of_reasoned hreasoned hst hwhy
  refine ⟨st, why, train, _, ?_, Store.poll_of_row hr, hreason⟩
  rw [replay_of_row hrow hhash, hstatus, hbody]

/-- A declined charge is covered, and both say `payment_failed`. Source: none: infrastructure. Kind: L -/
theorem reasons_agree_declined : ∃ s : Sys, s.saysReasons "payment_failed" "payment_failed" = true ∧
    s.ReasonsAgree config := by
  have hrun : (run (guarded (step config) (reasons config).Covered) opening
      (accepting ++ [.deliver 0 0] ++ failingTerminally 1 .paymentDeclined)).map
      (saysReasons "payment_failed" "payment_failed") = some true := by decide +kernel
  obtain ⟨s, hreach, hp⟩ := reach_of_guarded initial_opening hrun
  exact ⟨s, hp, reasons_agree hreach⟩

end Sys

end TrainsAndTracks
