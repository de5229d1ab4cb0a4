import TrainsAndTracks.Pipeline.Debts

/-!
# Replays

The response a replayed `POST` receives is cached by the ingress, the worker and the failure webhook,
each with an unconditional `UPDATE` in a transaction of its own, while the booking is settled by stored
functions. The two agree at rest only if somebody who knows the outcome writes last.

* `Client.owes` — a handler that goes on to cache the outcome of a booking.
* `outcomes` — the outcome as something the response has to say (`Debts`). What leads out of its covered
  steps: a write that contradicts the booking, a booking that ends while nobody is about to cache it (the
  sweeper never does), and a handler that owes a response and does not get to write it.
* `stale_replay` — the `202` of the ingress written after the worker's response.
* `replays_agree` — at rest every replay reports the booking's outcome, in covered runs.
-/

namespace TrainsAndTracks

open Found

open Store (JobOk)

/-! ## What a response reports -/

/-- The body of a failure. Source: `app/api/book/route.ts` (`errBody`),
`app/api/worker/allocate/route.ts` (`body`). Kind: D -/
def CachedBody.failure : CachedBody → Bool
  | failed .. | error .. => true
  | _ => false

/-- The answer reports the outcome of the booking. Source: `app/api/book/route.ts` (step 7). Kind: D -/
def IngressResponse.Reports (r : Booking) (resp : IngressResponse) : Prop :=
  match r.status with
  | .pending => True
  | .confirmed => ∃ seat passenger price confirmedAt,
    resp = .replay 200 (.confirmed r.id seat passenger price confirmedAt) ∧ r.seatId = some seat
  | .failed => ∃ st body, resp = .replay st body ∧ body.failure = true ∧ body.jobId = r.id
  | .expired => ∃ st why train, resp = .replay st (.expired r.id why train)

/-- The cached response reports the outcome of the booking. Source: `app/api/book/route.ts` (step 7).
Kind: D -/
def Booking.reported (r : Booking) : Option ℕ → Option CachedBody → Bool
  | some st, some body =>
    match r.status, body with
    | .pending, _ => true
    | .confirmed, .confirmed b seat _ _ _ => st == 200 && b == r.id && r.seatId == some seat
    | .failed, body => body.failure && body.jobId == r.id
    | .expired, .expired b _ _ => b == r.id
    | _, _ => false
  | _, _ => r.status == .pending

/-- An open booking is reported by anything. Source: none: infrastructure. Kind: L -/
theorem Booking.reported_of_pending {r : Booking} (h : r.status = .pending) (st : Option ℕ)
    (body : Option CachedBody) : r.reported st body = true := by
  cases st <;> cases body <;> simp [reported, h]

/-- A reported outcome is what a replay answers. Source: `app/api/book/route.ts` (step 7). Kind: L -/
theorem Booking.reports_of_reported {r : Booking} {st : Option ℕ} {body : Option CachedBody}
    (h : r.reported st body = true) : r.status = .pending ∨
    ∃ st' body', st = some st' ∧ body = some body' ∧ (IngressResponse.replay st' body').Reports r := by
  cases hst : r.status with
  | pending => exact .inl rfl
  | confirmed | failed | expired =>
    right
    cases st with
    | none => simp [reported, hst] at h
    | some st =>
      cases body with
      | none => simp [reported, hst] at h
      | some body =>
        refine ⟨st, body, rfl, rfl, ?_⟩
        unfold IngressResponse.Reports
        rw [hst]
        cases body <;> simp_all [reported, CachedBody.failure, CachedBody.jobId]

/-! ## Who owes a response -/

/-- The points of a delivery from which it goes on to cache that its booking is `st`. Source:
`app/api/worker/allocate/route.ts` (steps 4 to 8). Kind: D -/
def WorkerPc.caches : BookingStatus → WorkerPc → Bool
  | .failed, .releaseSoldOut | .failed, .commitSoldOut => true
  | .failed, .releaseFailed _ | .failed, .commitFailed _ => true
  | .expired, .commitExpired => true
  | .expired, pc => pc.compensates
  | .confirmed, .commitConfirmed .. => true
  | _, _ => false

/-- The handler goes on to cache that booking `b` is `st`. Source:
`app/api/worker/allocate/route.ts` (steps 4 to 8), `app/api/webhooks/qstash-failure/route.ts`,
`app/api/book/route.ts` (publish-failure branch). Kind: D -/
def Task.caches (b : BookingId) (st : BookingStatus) : Task → Bool
  | worker d pc => d.job.bookingId == b && pc.caches st
  | webhook cb pc => cb.payload.bookingId == b && st == .failed && (pc == .release || pc == .commit)
  | ingress _ (.rollback job) | ingress _ (.commitRefused job) => job.bookingId == b && st == .failed
  | _ => false

/-- The handler confirms booking `b`. Source: `app/api/worker/allocate/route.ts` (step 7). Kind: D -/
def Task.confirms (b : BookingId) : Task → Bool
  | worker d (.confirm ..) => d.job.bookingId == b
  | _ => false

/-- The execution of `confirm_booking` returns a row. Source: migration `110_fn_confirm_booking`.
Kind: D -/
def Exec.rowReturned : Exec → Bool
  | ⟨_, _, _, .ret (.confirmed (some _))⟩ => true
  | ⟨_, _, _, .done (.confirmed (some _))⟩ => true
  | _ => false

/-- The execution the handler waits for returns a row. Source: migration `110_fn_confirm_booking`.
Kind: D -/
def Phase.rowReturned (σ : Store) : Phase → Bool
  | waiting i _ => (σ.execs[i]?).any Exec.rowReturned
  | _ => false

/-- The handler goes on to cache the outcome of booking `r`. Source: `app/api/worker/allocate/route.ts`
(steps 5 to 8), `app/api/webhooks/qstash-failure/route.ts`, `app/api/book/route.ts` (publish-failure
branch). Kind: D -/
def Client.owes (σ : Store) (r : Booking) (cl : Client) : Bool :=
  (cl.phase.unwritten σ && cl.task.caches r.id r.status) ||
    (r.status == .confirmed && cl.phase.rowReturned σ && cl.task.confirms r.id)

namespace Sys

/-- The handler of the publish-failure branch, which writes its response also when the `UPDATE` of the
booking throws. Source: `app/api/book/route.ts` (publish-failure branch). Kind: D -/
def rollsBack (s : Sys) (c : ℕ) : Bool :=
  match s.clients[c]? with
  | some ⟨.ingress _ (.rollback _), _⟩ => true
  | _ => false

/-- The handler whose reply leads away from `confirm_booking`: the train is sold out, or the charge is
refused for good. Source: `app/api/worker/allocate/route.ts` (steps 5 and 6). Kind: D -/
def deflected (s : Sys) (c : ℕ) : Bool :=
  match s.clients[c]? with
  | some ⟨_, .waiting i left⟩ =>
    match s.store.execs[i]? with
    | some ⟨_, _, _, .done (.allocated none)⟩ => true
    | some ⟨_, _, _, .done (.paymentError _)⟩ => left == 0
    | _ => false
  | _ => false

/-- The handler that no longer writes the response it owes after the step: it crashes, its call throws,
its reply leads elsewhere, or it repeats a `confirm_booking` that has returned a row. Source:
`app/api/worker/allocate/route.ts`, `lib/resilience/pg-policy.ts`. Kind: D -/
def abandons (s : Sys) : Action → Option ℕ
  | .crash c => some c
  | .throw c => if s.rollsBack c then none else some c
  | .receive c => if s.deflected c then some c else none
  | .issue c => if (s.clients[c]?).any (·.phase.rowReturned s.store) then some c else none
  | _ => none

/-- What a `POST` with key `k` and body `body` is answered from the cache. Source:
`app/api/book/route.ts` (step 7), `lib/idempotency/postgres-authority.ts` `checkIdempotency`. Kind: D -/
def replay (cfg : Config) (s : Sys) (k : IdempotencyKey) (req : PostRequest) (body : BookRequest) :
    Option IngressResponse :=
  match s.store.idempotencyCheck s.store.now k req.ip (cfg.requestHash body) .start with
  | some (.select (.ret reply)) =>
    match IngressPc.onReply cfg (.idempotencyCheck k body) reply with
    | some (.respond resp) => some resp
    | _ => none
  | _ => none

/-- Replay agrees with the booking: at rest, a `POST` with the key and the body of a booking is answered
with the outcome of the booking. Source: `app/api/book/route.ts` (step 7). Kind: D -/
def ReplaysAgree (cfg : Config) (s : Sys) : Prop :=
  s.Quiescent → ∀ b r row req body, s.store.bookings.committed.find? b = some r →
    s.store.idempotencyKeys.find? r.idempotencyKey = some row →
    cfg.requestHash body = row.requestHash →
    ∃ resp, s.replay cfg r.idempotencyKey req body = some resp ∧ resp.Reports r

/-! ## The failing schedule -/

/-- The worker confirms and answers before the ingress writes its `202`. Source: none: infrastructure.
Kind: D -/
def overwriting : List Action :=
  booking ++ [.deliver 0 0, .chaos 1 none] ++ callReturns 1 2 1 ++ callReturns 1 3 2 ++ callReturns 1 4 2 ++
    callReturns 1 5 3 ++ callReturns 1 6 1 ++ [.answer 1] ++ callReturns 0 7 1 ++ [.answer 0]

/-- At rest, a booking that is `CONFIRMED` has a cached `202`. Source: none: infrastructure. Kind: D -/
def hasStaleReplay (s : Sys) : Bool :=
  s.atRest && s.store.bookings.committed.rows.any fun r => r.status == .confirmed &&
    (s.store.idempotencyKeys.find? r.idempotencyKey).any fun row =>
      row.requestHash == "Asha" && match s.replay config r.idempotencyKey asha ⟨"12951", "Asha", none⟩ with
        | some (.replay st _) => st == 202
        | _ => false

/-- **The ingress overwrites the outcome.** In some reachable pipeline at rest the replay of a
`CONFIRMED` booking is a `202`. Source: `app/api/book/route.ts` (step 10), migration
`150_fn_write_idempotency_response`. Kind: P -/
theorem stale_replay : ¬ ∀ s, Reachable config s → s.ReplaysAgree config := by
  intro h
  have hrun : (run (step config) opening overwriting).map hasStaleReplay = some true := by
    decide +kernel
  obtain ⟨s, hreach, hp⟩ := reach_of_run initial_opening hrun
  simp only [hasStaleReplay, Bool.and_eq_true, List.any_eq_true, beq_iff_eq, Option.any_eq_true] at hp
  obtain ⟨hrest, r, hr, hst, row, hrow, hhash, hp⟩ := hp
  obtain ⟨resp, hresp, hreports⟩ := h s hreach (quiescent_of_atRest hrest).1 r.id r row asha
    ⟨"12951", "Asha", none⟩ (Table.find?_of_mem hr) hrow hhash.symm
  unfold IngressResponse.Reports at hreports
  rw [hst] at hreports
  obtain ⟨seat, passenger, price, confirmedAt, rfl, -⟩ := hreports
  rw [hresp] at hp
  cases hp

/-! ## Owing through the steps of the store -/

section owing

variable {cfg : Config} {s s' : Sys} {a : Action} {c : ℕ} {cl cl' : Client} {r : Booking}
variable {σ σ' : Store} {x : Store.Action} {ph : Phase}

/-- What a handler owes. Source: none: infrastructure. Kind: L -/
theorem owes_iff : cl.owes σ r = true ↔
    (cl.phase.unwritten σ = true ∧ cl.task.caches r.id r.status = true) ∨
      (r.status = .confirmed ∧ cl.phase.rowReturned σ = true ∧ cl.task.confirms r.id = true) := by
  simp [Client.owes, and_assoc]

/-- Only handlers that run owe responses. Source: none: infrastructure. Kind: L -/
theorem live_of_owes (h : cl.owes σ r = true) : cl.phase.live = true := by
  obtain ⟨t, ph⟩ := cl
  cases ph with
  | ready | waiting => rfl
  | answered | crashed => rcases owes_iff.mp h with ⟨h, -⟩ | ⟨-, h, -⟩ <;> cases h

/-- Who confirms is a delivery at its step 7. Source: `app/api/worker/allocate/route.ts` (step 7).
Kind: L -/
theorem confirms_iff {t : Task} {b : BookingId} : t.confirms b = true ↔
    ∃ d price seat payment, t = .worker d (.confirm price seat payment) ∧ d.job.bookingId = b := by
  cases t with
  | worker d pc => cases pc <;> simp [Task.confirms]
  | _ => simp [Task.confirms]

/-- A row is in the reply. Source: migration `110_fn_confirm_booking`. Kind: L -/
theorem rowReturned_iff {e : Exec} : e.rowReturned = true ↔
    ∃ b, e.pc = .ret (.confirmed (some b)) ∨ e.pc = .done (.confirmed (some b)) := by
  obtain ⟨call, client, now, pc⟩ := e
  unfold Exec.rowReturned
  split <;> simp_all

/-- A returned row stays, unless its transaction fails. Source: migration `110_fn_confirm_booking`.
Kind: L -/
theorem rowReturned_step (hs : σ.Stepped x σ') (h : ph.rowReturned σ = true) :
    ph.rowReturned σ' = true ∨ (∀ j, x ≠ .commit j) ∧ ∃ i left e b, ph = .waiting i left ∧
      σ.execs[i]? = some e ∧ e.pc = .ret (.confirmed (some b)) := by
  cases ph with
  | ready | answered | crashed => cases h
  | waiting i left =>
    obtain ⟨e, he, hret⟩ := (Option.any_eq_true _ _).mp h
    obtain ⟨b, hpc⟩ := rowReturned_iff.mp hret
    obtain ⟨e', he', hcall, -⟩ := hs.exec_old he
    have hkept : ∀ {e'}, σ'.execs[i]? = some e' → e'.pc = .done (.confirmed (some b)) ∨ e' = e →
        (Phase.waiting i left).rowReturned σ' = true := by
      rintro ⟨call', client', now', pc'⟩ he' (rfl | rfl)
      · exact (Option.any_eq_true _ _).mpr ⟨_, he', rfl⟩
      · exact (Option.any_eq_true _ _).mpr ⟨_, he', hret⟩
    by_cases hx : x.actor = some i
    · rcases hs.exec_moved hx he he' with ⟨hsent, -⟩ | ⟨ch, stmt, -, hr, -⟩ | ⟨-, hne, hcommit⟩ |
        ⟨reply, hreply, hdone⟩
      · rcases hpc with hpc | hpc <;> rw [hpc] at hsent <;> cases hsent
      · rcases hpc with hpc | hpc
        · exact absurd hpc (hr.ne_ret _)
        · exact absurd hpc (hr.ne_done _)
      · rcases hpc with hpc | hpc
        · exact .inr ⟨hcommit, i, left, e, b, rfl, he, hpc⟩
        · exact absurd hpc (hne _)
      · rcases hpc with hpc | hpc <;> rw [hpc] at hreply <;> cases hreply
        exact .inl (hkept he' (.inl hdone))
    · have hsame := hs.exec_of_ne hx he
      exact .inl (hkept hsame (.inr rfl))

/-- A handler that caches an outcome writes it under the key of the booking. Source:
`app/api/worker/allocate/route.ts`, `app/api/webhooks/qstash-failure/route.ts`,
`app/api/book/route.ts` (publish-failure branch). Kind: L -/
theorem key_of_caches (hinv : Inv cfg s) (hcl : s.clients[c]? = some cl) {st : BookingStatus}
    (hcaches : cl.task.caches r.id st = true) {k : IdempotencyKey} {n : ℕ} {body : CachedBody}
    (hcall : cl.task.call cfg = some (.writeIdempotencyResponse k n body))
    (hr : s.store.bookings.committed.find? r.id = some r) : r.idempotencyKey = k := by
  have hok := hinv.tasks c cl hcl
  have hjob : ∀ {job : AllocateJobPayload}, JobOk s.store job → job.bookingId = r.id →
      r.idempotencyKey = job.idempotencyKey := by
    intro job hjob hid
    obtain ⟨r₁, hr₁, hk, -⟩ := hjob.booked
    rw [hid, hr] at hr₁
    cases hr₁
    exact hk
  obtain ⟨t, ph⟩ := cl
  cases t with
  | worker d pc =>
    simp only [Task.caches, Bool.and_eq_true, beq_iff_eq] at hcaches
    rw [hjob hok.1 hcaches.1]
    cases pc <;> cases hcall <;> rfl
  | webhook cb pc =>
    simp only [Task.caches, Bool.and_eq_true, beq_iff_eq] at hcaches
    rw [hjob hok.1 hcaches.1.1]
    cases pc <;> cases hcall
    rfl
  | ingress req pc =>
    cases pc with
    | commitRefused job =>
      simp only [Task.caches, Bool.and_eq_true, beq_iff_eq] at hcaches
      rw [hjob hok hcaches.1]
      cases hcall
      rfl
    | rollback job => cases hcall
    | _ => cases hcaches
  | dlqRetry | sweeper => cases hcaches

/-- A handler that goes on to cache an outcome does so by the statement of its call: no other step of the
store writes it. Source: `app/api/worker/allocate/route.ts` (steps 5 to 8). Kind: L -/
theorem caches_store (hinv : Inv cfg s) (hs : s.store.Stepped x σ') (hcl : s.clients[c]? = some cl)
    {st : BookingStatus} (hunwritten : cl.phase.unwritten s.store = true)
    (hcaches : cl.task.caches r.id st = true)
    (hr : s.store.bookings.committed.find? r.id = some r ∨ ∃ j, x = .commit j) :
    cl.phase.unwritten σ' = true ∨ ∃ i ch st body, x = .exec i ch ∧
      s.store.writing i = some (c, r.idempotencyKey, st, body) := by
  rcases unwritten_step hs hunwritten with hkept |
    ⟨i, left, ch, e, k, st, body, hph, rfl, he, hcall, hwriting⟩
  · exact .inl hkept
  · rcases hr with hr | ⟨j, hj⟩
    · obtain ⟨t, ph⟩ := cl
      cases hph
      obtain ⟨e₁, he₁, htask, hclient⟩ := hinv.waits c t i left hcl
      obtain rfl := Option.eq_some_unique he he₁
      rw [hcall] at htask
      have hk := key_of_caches hinv hcl hcaches htask hr
      exact .inr ⟨i, ch, st, body, rfl, by rw [hwriting, hclient, hk]⟩
    · cases hj

/-- A handler owes a response until it writes it: no other step of the store takes that away.
Source: `app/api/worker/allocate/route.ts` (steps 5 to 8). Kind: L -/
theorem owes_store (hinv : Inv cfg s) (hs : s.store.Stepped x σ') (hcl : s.clients[c]? = some cl)
    (howes : cl.owes s.store r = true)
    (hr : s.store.bookings.committed.find? r.id = some r ∨ ∃ j, x = .commit j) :
    cl.owes σ' r = true ∨ ∃ i ch st body, x = .exec i ch ∧
      s.store.writing i = some (c, r.idempotencyKey, st, body) := by
  rcases owes_iff.mp howes with ⟨hunwritten, hcaches⟩ | ⟨hst, hret, hconfirms⟩
  · refine (caches_store hinv hs hcl hunwritten hcaches hr).imp_left fun hkept => ?_
    exact owes_iff.mpr (.inl ⟨hkept, hcaches⟩)
  · rcases rowReturned_step hs hret with hkept | ⟨hno, i, left, e, b, hph, he, hpc⟩
    · exact .inl (owes_iff.mpr (.inr ⟨hst, hkept, hconfirms⟩))
    · rcases hr with hr | ⟨j, rfl⟩
      · -- a `CONFIRMED` booking is not locked by another confirmation
        exfalso
        obtain ⟨t, ph⟩ := cl
        cases hph
        obtain ⟨e₁, he₁, htask, -⟩ := hinv.waits c t i left hcl
        obtain rfl := Option.eq_some_unique he he₁
        obtain ⟨d, price, seat, payment, rfl, hid⟩ := confirms_iff.mp hconfirms
        have hcall := (Option.some.inj htask).symm
        obtain ⟨w, hlock⟩ := (hinv.store.confirms i e he _ _ _ hcall).row_locked b hpc
        obtain ⟨r₁, hr₁, hw⟩ := hinv.store.locks.booking_write he hlock
        rw [hid] at hr₁
        obtain rfl := Option.eq_some_unique hr hr₁
        rw [hw.pending] at hst
        cases hst
      · exact absurd rfl (hno j)

end owing

/-! ## Owing through the steps of the handlers -/

section moving

variable {cfg : Config} {s s' : Sys} {a : Action} {c : ℕ} {cl cl' : Client} {r : Booking}
variable {t t' : Task} {b : BookingId} {st : BookingStatus} {reply : Reply}

/-- The worker after a reply: it still caches the outcome, has cached it, or learns something that leads
elsewhere. Source: `app/api/worker/allocate/route.ts` (steps 4 to 8). Kind: L -/
theorem caches_of_replied (hold : ℕ) {d : Delivery} {now : Time} {pc pc' : WorkerPc}
    (h : WorkerPc.Replied d.retried d.job now pc reply pc') (hpc : pc.caches st = true) :
    pc'.caches st = true ∨
    (∃ k n body, pc.call hold d.job = some (.writeIdempotencyResponse k n body)) ∨
    reply = .allocated none ∨ (∃ code, reply = .paymentError code) ∨
    st = .expired ∧ (∃ price seat payment, pc = .confirm price seat payment) ∧
      ∃ b', reply = .confirmed (some b') := by
  cases h with
  | noBooking | pending | terminal => cases st <;> cases hpc
  | soldOut => exact .inr (.inr (.inl rfl))
  | refused => exact .inr (.inr (.inr (.inl ⟨_, rfl⟩)))
  | soldOutCommitted | failedCommitted | expiredCommitted | confirmedCommitted =>
    exact .inr (.inl ⟨_, _, _, rfl⟩)
  | allocated | paid | holdLost | soldOutReleased | failedReleased =>
    cases st <;> first | exact .inl rfl | cases hpc
  | confirmed =>
    cases st <;> cases hpc
    exact .inr (.inr (.inr (.inr ⟨rfl, ⟨_, _, _, rfl⟩, _, rfl⟩)))
  | retryReleased => cases st <;> cases hpc

/-- A handler after a reply, likewise. Source: `app/api/worker/allocate/route.ts` (steps 4 to 8),
`app/api/webhooks/qstash-failure/route.ts`, `app/api/book/route.ts` (publish-failure branch). Kind: L -/
theorem caches_receive {now : Time} (h : t.onReply cfg now reply = some t')
    (hcaches : t.caches b st = true) : t'.caches b st = true ∨
    (∃ k n body, t.call cfg = some (.writeIdempotencyResponse k n body)) ∨
    reply = .allocated none ∨ (∃ code, reply = .paymentError code) ∨
    st = .expired ∧ t.confirms b = true ∧ ∃ b', reply = .confirmed (some b') := by
  cases t with
  | worker d pc =>
    obtain ⟨pc', hpc', rfl⟩ := Option.map_eq_some_iff.mp h
    simp only [Task.caches, Bool.and_eq_true] at hcaches ⊢
    rcases caches_of_replied cfg.holdDurationSec (WorkerPc.replied hpc') hcaches.2 with
      hkept | hwrite | hsold | hrefused | ⟨hst, ⟨_, _, _, rfl⟩, hrow⟩
    · exact .inl ⟨hcaches.1, hkept⟩
    · exact .inr (.inl hwrite)
    · exact .inr (.inr (.inl hsold))
    · exact .inr (.inr (.inr (.inl hrefused)))
    · exact .inr (.inr (.inr (.inr ⟨hst, hcaches.1, hrow⟩)))
  | webhook cb pc =>
    obtain ⟨pc', hpc', rfl⟩ := Option.map_eq_some_iff.mp h
    cases WebhookPc.replied hpc' with
    | recorded | recordedOnly => simp [Task.caches] at hcaches
    | released =>
      left
      simpa [Task.caches] using hcaches
    | committed => exact .inr (.inl ⟨_, _, _, rfl⟩)
  | ingress req pc =>
    obtain ⟨pc', hpc', rfl⟩ := Option.map_eq_some_iff.mp h
    cases IngressPc.replied hpc' with
    | rolledBack => exact .inl hcaches
    | refused => exact .inr (.inl ⟨_, _, _, rfl⟩)
    | _ => cases hcaches
  | dlqRetry | sweeper => cases hcaches

/-- A handler that goes on without the store owed nothing, still owes it, or abandons it. Source:
`app/api/worker/allocate/route.ts`, `app/api/book/route.ts` (publish-failure branch). Kind: L -/
theorem caches_goes {job : Option AllocateJobPayload} (h : Goes cfg c a t t' job) {ph : Phase}
    (hcl : s.clients[c]? = some ⟨t, ph⟩) (howes : t.caches b st = true ∨ t.confirms b = true) :
    t'.caches b st = true ∨ s.abandons a = some c := by
  cases h with
  | throw hcall =>
    by_cases hback : s.rollsBack c = true
    · left
      unfold rollsBack at hback
      rw [hcl] at hback
      split at hback
      · rename_i heq
        cases heq
        rcases howes with hcaches | hconfirms
        · exact hcaches
        · cases hconfirms
      · cases hback
    · exact .inr (by simp [abandons, hback])
  | gate => rcases howes with h | h <;> cases h
  | published hjob | publishLost hjob | publishFailed hjob =>
    rcases publishing_cases hjob with ⟨req, rfl⟩ | ⟨id, rfl⟩ <;> rcases howes with h | h <;> cases h
  | chaosPassed | chaosFailed =>
    rcases howes with h | h
    · simp only [Task.caches, Bool.and_eq_true] at h
      cases st <;> cases h.2
    · cases h

/-- A handler that has finished owes nothing. Source: none: infrastructure. Kind: L -/
theorem owes_nothing (b : BookingId) (st : BookingStatus) {n : ℕ} (h : t.status = some n) :
    t.caches b st = false ∧ t.confirms b = false := by
  cases t with
  | worker d pc =>
    cases pc <;> cases h
    exact ⟨by cases st <;> simp [Task.caches, WorkerPc.caches, WorkerPc.compensates], rfl⟩
  | webhook cb pc =>
    cases pc <;> cases h
    exact ⟨by simp [Task.caches], rfl⟩
  | ingress req pc =>
    cases pc <;> cases h
    exact ⟨rfl, rfl⟩
  | dlqRetry | sweeper => exact ⟨rfl, rfl⟩

/-- A delivery that receives its row goes on to cache it. Source: `app/api/worker/allocate/route.ts`
(steps 7 and 8). Kind: L -/
theorem caches_of_row {b' : BookingId} {now : Time} (hconfirms : t.confirms b = true)
    (ht : t.onReply cfg now (.confirmed (some b')) = some t') : t'.caches b .confirmed = true := by
  obtain ⟨d, price, seat, payment, rfl, hid⟩ := confirms_iff.mp hconfirms
  cases ht
  simp [Task.caches, WorkerPc.caches, hid]

/-- A handler that receives a reply owes its response after it or abandons it. Source:
`app/api/worker/allocate/route.ts` (steps 4 to 8). Kind: L -/
theorem owes_receive (hinv : Inv cfg s) {i left : ℕ} {e : Exec}
    (hcl : s.clients[c]? = some ⟨t, .waiting i left⟩)
    (hr : s.store.bookings.committed.find? r.id = some r)
    (howes : Client.owes s.store r ⟨t, .waiting i left⟩ = true) (he : s.store.execs[i]? = some e)
    (hpc : e.pc = .done reply) (ht : t.onReply cfg s.store.now reply = some t')
    (hlast : ∀ code, reply = .paymentError code → left = 0) :
    t'.caches r.id r.status = true ∨ s.abandons (.receive c) = some c := by
  obtain ⟨call, client, now, pc⟩ := e
  cases hpc
  rcases owes_iff.mp howes with ⟨hunwritten, hcaches⟩ | ⟨hst, hret, hconfirms⟩
  · rcases caches_receive ht hcaches with hkept | ⟨k, n, body, hwrite⟩ | rfl | ⟨code, rfl⟩ |
      ⟨hst, hconfirms, b', rfl⟩
    · exact .inl hkept
    · rw [written_of_reply hinv hcl he rfl hwrite] at hunwritten
      cases hunwritten
    · exact .inr (by simp [abandons, deflected, hcl, he])
    · exact .inr (by simp [abandons, deflected, hcl, he, hlast code rfl])
    · obtain ⟨d, price, seat, payment, rfl, hid⟩ := confirms_iff.mp hconfirms
      have hconfirmed := confirmed_of_reply hinv hcl he rfl (hid ▸ hr)
      rw [hst] at hconfirmed
      cases hconfirmed
  · left
    obtain ⟨b', rfl⟩ : ∃ b', reply = .confirmed (some b') := by
      simp only [Phase.rowReturned, he, Option.any_some] at hret
      obtain ⟨b', hpc | hpc⟩ := rowReturned_iff.mp hret <;> cases hpc
      exact ⟨b', rfl⟩
    rw [hst]
    exact caches_of_row hconfirms ht

/-- A handler that owes a response goes on owing it or abandons it. Source:
`app/api/worker/allocate/route.ts` (steps 4 to 8). Kind: L -/
theorem owes_moves (hinv : Inv cfg s) (hs : Stepped cfg s a s') (hm : Moves cfg s c a cl cl')
    (hcl : s.clients[c]? = some cl) (hr : s.store.bookings.committed.find? r.id = some r)
    (howes : cl.owes s.store r = true) :
    cl'.owes s'.store r = true ∨ s.abandons a = some c := by
  have hcases := owes_iff.mp howes
  have hready : ∀ {t' : Task}, t'.caches r.id r.status = true →
      (Client.arrive t').owes s'.store r = true :=
    fun h => owes_iff.mpr (.inl ⟨rfl, h⟩)
  cases hm with
  | @issue _ call left hlive hcall =>
    rcases hcases with ⟨-, hcaches⟩ | ⟨-, hret, -⟩
    · exact .inl (owes_iff.mpr (.inl ⟨unwritten_issue hs left, hcaches⟩))
    · exact .inr (by simp [abandons, hcl, hret])
  | @again t i left e code he hpc =>
    rcases hcases with ⟨-, hcaches⟩ | ⟨-, hret, -⟩
    · exact .inl (owes_iff.mpr (.inl ⟨rfl, hcaches⟩))
    · simp only [Phase.rowReturned, he, Option.any_some] at hret
      obtain ⟨call, client, now, pc⟩ := e
      cases hpc
      cases hret
  | receive he hpc ht hlast =>
    exact (owes_receive hinv hcl hr howes he hpc ht hlast).imp_left hready
  | go hlive hgoes =>
    have howes : cl.task.caches r.id r.status = true ∨ cl.task.confirms r.id = true :=
      hcases.imp And.right fun h => h.2.2
    exact (caches_goes hgoes hcl howes).imp_left hready
  | @refund d p ph hlive =>
    rcases hcases with ⟨-, hcaches⟩ | ⟨-, -, hconfirms⟩
    · refine .inl (hready ?_)
      simp only [Task.caches, Bool.and_eq_true] at hcaches ⊢
      refine ⟨hcaches.1, ?_⟩
      generalize r.status = st at hcaches ⊢
      cases st <;> first | rfl | cases hcaches.2
    · cases hconfirms
  | answer hlive hst =>
    obtain ⟨hcaches, hconfirms⟩ := owes_nothing r.id r.status hst
    rcases hcases with ⟨-, h⟩ | ⟨-, -, h⟩
    · rw [hcaches] at h
      cases h
    · rw [hconfirms] at h
      cases h
  | crash => exact .inr rfl

end moving

/-! ## Replays agree -/

section owed

variable {cfg : Config} {s : Sys}

/-- The outcomes as debts: a response reports the outcome of the booking. Source: `app/api/book/route.ts`
(step 7), `app/api/worker/allocate/route.ts` (steps 4 to 8). Kind: D -/
def outcomes (cfg : Config) : Debts cfg where
  reported := Booking.reported
  owes σ r cl := cl.owes σ r
  abandons := abandons
  pending h := Booking.reported_of_pending h _ _
  live := live_of_owes
  store := owes_store
  moves := owes_moves

/-- A key that is known is answered with its row. Source: migration `140_fn_idempotency_check`. Kind: L -/
theorem replay_of_row {row : IdempotencyRow} {k : IdempotencyKey} {req : PostRequest}
    {body : BookRequest} (hrow : s.store.idempotencyKeys.find? k = some row)
    (hhash : cfg.requestHash body = row.requestHash) :
    s.replay cfg k req body = some (match row.responseStatus, row.responseBody with
      | some st, some cached => .replay st cached
      | _, _ => .error 409 "idempotency_key_replaying") := by
  simp only [replay, Store.idempotencyCheck, hrow, IngressPc.onReply, Bool.false_eq_true, if_false,
    hhash, ne_eq, not_true_eq_false]
  cases row.responseStatus <;> cases row.responseBody <;> rfl

/-- **Replays agree with the bookings.** At rest, after a run all of whose steps are covered, a replayed
`POST` of every booking reports the outcome of the booking. Source: `app/api/book/route.ts` (step 7),
`lib/idempotency/postgres-authority.ts` `checkIdempotency`. Kind: P -/
theorem replays_agree (h : Reach (step cfg) Initial (outcomes cfg).Covered s) : s.ReplaysAgree cfg := by
  intro hrest b r row req body hr hrow hhash
  refine ⟨_, replay_of_row hrow hhash, ?_⟩
  have hfresh : (outcomes cfg).stale s.store r = false := Debts.fresh (Debts.owed (fun _ _ => id) h) hrest hr
  have hreported : r.reported row.responseStatus row.responseBody = true := by
    simpa [Debts.stale, hrow, outcomes] using hfresh
  rcases Booking.reports_of_reported hreported with hst | ⟨st, cached, hst, hcached, hreports⟩
  · unfold IngressResponse.Reports
    rw [hst]
    trivial
  · rw [hst, hcached]
    exact hreports

end owed

/-- At rest, some booking is `CONFIRMED`. Source: none: infrastructure. Kind: D -/
def ticketAtRest (s : Sys) : Bool := s.atRest && s.hasTicket

/-- The undisturbed run is covered, and its replay is the ticket. Source: none: infrastructure. Kind: L -/
theorem replays_agree_ticketing : ∃ s : Sys, s.ticketAtRest = true ∧ s.ReplaysAgree config := by
  have hrun : (run (guarded (step config) (outcomes config).Covered) opening ticketing).map
      ticketAtRest = some true := by decide +kernel
  obtain ⟨s, hreach, hrest⟩ := reach_of_guarded initial_opening hrun
  exact ⟨s, hrest, replays_agree hreach⟩

end Sys

end TrainsAndTracks
