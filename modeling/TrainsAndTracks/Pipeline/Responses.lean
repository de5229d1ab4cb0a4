import TrainsAndTracks.Found.Lifecycle
import TrainsAndTracks.Pipeline.Replay

/-!
# The life cycle of a cached response

What is stored for a key is first nothing, then perhaps the `202` of the ingress, then one terminal
response. Every writer stores what it believes with an unconditional `UPDATE`, so the order of the writers
decides.

* `Response.Next` — the documented order.
* `Truthful` — a response is written while the booking is what the response says; the `202` also while
  nothing is stored.
* `regressed_response` — a `202` stored over the terminal response of the worker.
* `responses_advance` — in truthful runs the responses keep to the documented order.
-/

namespace TrainsAndTracks

open Found

open Store (JobOk)

/-! ## Responses -/

/-- `body.status`; an error body has none. Source: `app/api/book/route.ts` (`responseBody`, `errBody`),
`app/api/worker/allocate/route.ts` (`body`), `app/api/webhooks/qstash-failure/route.ts` (`body`). Kind: D.
Fidelity: exact -/
def CachedBody.status : CachedBody → Option BookingStatus
  | pending .. => some .pending
  | error .. => none
  | failed .. => some .failed
  | expired .. => some .expired
  | confirmed .. => some .confirmed

/-- `response_status` and `body.status`. Source: migration `040_idempotency_keys`. Kind: D -/
abbrev Response := ℕ × Option BookingStatus

/-- The response stored in a row. Source: migration `040_idempotency_keys`. Kind: D. Fidelity: exact -/
def IdempotencyRow.response (row : IdempotencyRow) : Option Response :=
  match row.responseStatus, row.responseBody with
  | some st, some body => some (st, body.status)
  | _, _ => none

namespace Response

/-- The responses that report an end. Source: `app/api/book/route.ts` (publish-failure branch),
`app/api/worker/allocate/route.ts`, `app/api/webhooks/qstash-failure/route.ts`. Kind: D -/
inductive Terminal : Response → Prop
  | confirmed : Terminal (200, some .confirmed)
  | failed : Terminal (200, some .failed)
  | expired : Terminal (200, some .expired)
  | refused : Terminal (502, none)

/-- The documented order: nothing, then perhaps `202 PENDING`, then one terminal response. Source:
`app/api/book/route.ts` (header), `app/api/worker/allocate/route.ts` (step 8). Kind: D -/
inductive Next : Option Response → Option Response → Prop
  | accepted : Next none (some (202, some .pending))
  | answered {v : Response} (hv : v.Terminal) : Next none (some v)
  | settled {v : Response} (hv : v.Terminal) : Next (some (202, some .pending)) (some v)

end Response

/-- The status a body is stored with. Source: `app/api/book/route.ts`,
`app/api/worker/allocate/route.ts`, `app/api/webhooks/qstash-failure/route.ts`
(`commitIdempotencyResponse` call sites). Kind: D. Fidelity: exact -/
def CachedBody.code : CachedBody → ℕ
  | pending .. => 202
  | error .. => 502
  | failed .. | expired .. | confirmed .. => 200

/-- A body with its status is the `202` or reports an end. Source: none: infrastructure. Kind: L -/
theorem CachedBody.terminal_of_ne {body : CachedBody} (h : body.status ≠ some .pending) :
    Response.Terminal (body.code, body.status) := by
  cases body with
  | pending => exact absurd rfl h
  | error => exact .refused
  | failed => exact .failed
  | expired => exact .expired
  | confirmed => exact .confirmed

/-- A body that says `PENDING` is the `202`. Source: `app/api/book/route.ts` (`responseBody`). Kind: L -/
theorem CachedBody.code_of_pending {body : CachedBody} (h : body.status = some .pending) :
    body.code = 202 := by
  cases body <;> first | rfl | cases h

/-- The first response stored is in order. Source: none: infrastructure. Kind: L -/
theorem CachedBody.next_none (body : CachedBody) :
    Response.Next none (some (body.code, body.status)) := by
  by_cases h : body.status = some .pending
  · rw [h, CachedBody.code_of_pending h]
    exact .accepted
  · exact .answered (CachedBody.terminal_of_ne h)

/-- The booking is what the body says. Source: `app/api/book/route.ts` (`responseBody`, `errBody`),
`app/api/worker/allocate/route.ts` (`body`), `app/api/webhooks/qstash-failure/route.ts` (`body`).
Kind: D -/
def Booking.agrees (r : Booking) : CachedBody → Bool
  | .pending .. => r.status == .pending
  | .error .. => r.status == .failed && r.failureReason == some "upstream_publish_failure"
  | .failed .. => r.status == .failed && r.failureReason != some "upstream_publish_failure"
  | .expired .. => r.status == .expired
  | .confirmed .. => r.status == .confirmed

/-- Two bodies that a booking agrees with are one response. Source: none: infrastructure. Kind: L -/
theorem Booking.agrees_inj {r : Booking} {body body' : CachedBody} (h : r.agrees body = true)
    (h' : r.agrees body' = true) : body.code = body'.code ∧ body.status = body'.status := by
  cases body <;> cases body' <;> simp_all [agrees, CachedBody.code, CachedBody.status]

/-- A booking that agrees with a terminal body has ended. Source: none: infrastructure. Kind: L -/
theorem Booking.ne_pending_of_agrees {r : Booking} {body : CachedBody} (h : r.agrees body = true)
    (hbody : body.status ≠ some .pending) : r.status ≠ .pending := by
  intro hst
  cases body <;> simp_all [agrees, CachedBody.status]

/-- One move of a row: its response keeps, or goes on in order. Source: migrations
`040_idempotency_keys`, `150_fn_write_idempotency_response`. Kind: D -/
def IdempotencyRow.Moves (row row' : IdempotencyRow) : Prop :=
  row'.response = row.response ∨ Response.Next row.response row'.response

namespace Store

/-- The response stored for a key. Source: migration `040_idempotency_keys`. Kind: D. Fidelity: exact -/
def response (σ : Store) (k : IdempotencyKey) : Option Response :=
  (σ.idempotencyKeys.find? k).bind IdempotencyRow.response

/-- A booking has the key. Source: migration `060_bookings`. Kind: D -/
def Booked (σ : Store) (k : IdempotencyKey) : Prop :=
  ∃ b r, σ.bookings.committed.find? b = some r ∧ r.idempotencyKey = k

/-- A response is written with its status, for the key of a booking. Source: `app/api/book/route.ts`,
`app/api/worker/allocate/route.ts`, `app/api/webhooks/qstash-failure/route.ts`
(`commitIdempotencyResponse` call sites). Kind: D -/
def AnswersOk (σ : Store) : Call → Prop
  | .writeIdempotencyResponse k st body => st = body.code ∧ σ.Booked k
  | _ => True

/-- What is stored for a key agrees with its booking, a stored `202` apart. Source:
`app/api/book/route.ts` (header), `app/api/worker/allocate/route.ts` (step 8). Kind: D -/
def Told (σ : Store) : Prop :=
  ∀ k row st body, σ.idempotencyKeys.find? k = some row → row.responseStatus = some st →
    row.responseBody = some body → st = body.code ∧
      ∃ b r, σ.bookings.committed.find? b = some r ∧ r.idempotencyKey = k ∧
        (body.status ≠ some .pending → r.agrees body = true)

/-- A response is written while the booking is what the response says; the `202` also while nothing is
stored. Source: migration `150_fn_write_idempotency_response`, `app/api/book/route.ts` (step 10),
`app/api/worker/allocate/route.ts`, `app/api/webhooks/qstash-failure/route.ts`. Kind: D -/
def Truthful (σ : Store) : Action → Prop
  | .exec i _ => ∀ w ∈ σ.writing i, ∀ r ∈ σ.bookings.committed.rows, r.idempotencyKey = w.2.1 →
    r.agrees w.2.2.2 = true ∨ w.2.2.2.status = some .pending ∧ σ.response w.2.1 = none
  | _ => True

instance (σ : Store) (a : Action) : Decidable (Truthful σ a) :=
  match a with
  | .exec i _ => inferInstanceAs (Decidable (∀ w ∈ σ.writing i,
    ∀ r ∈ σ.bookings.committed.rows, r.idempotencyKey = w.2.1 →
      r.agrees w.2.2.2 = true ∨ w.2.2.2.status = some .pending ∧ σ.response w.2.1 = none))
  | .begin .. | .start _ | .commit _ | .abort _ | .tick _ => .isTrue trivial

section told

variable {σ σ' : Store} {a : Action}

/-- What a call that writes a response says. Source: migration `150_fn_write_idempotency_response`.
Kind: L -/
theorem answersOk_of_call {call : Call} {k : IdempotencyKey} {st : ℕ} {body : CachedBody}
    (h : σ.AnswersOk call) (hcall : call = .writeIdempotencyResponse k st body) :
    st = body.code ∧ σ.Booked k := by
  subst hcall
  exact h

/-- A booking keeps its key. Source: migration `060_bookings`. Kind: L -/
theorem Booked.mono (hle : Le σ σ') {k : IdempotencyKey} (h : σ.Booked k) : σ'.Booked k := by
  obtain ⟨b, r, hr, hk⟩ := h
  obtain ⟨r', hr', hg⟩ := hle.booking b r hr
  exact ⟨b, r', hr', hg.idempotencyKey.trans hk⟩

/-- A response that is on its way stays one for a booking. Source: none: infrastructure. Kind: L -/
theorem AnswersOk.mono (hle : Le σ σ') {call : Call} (h : σ.AnswersOk call) : σ'.AnswersOk call := by
  cases call with
  | writeIdempotencyResponse k st body => exact ⟨h.1, h.2.mono hle⟩
  | _ => trivial

/-- What agrees with its booking goes on to. Source: migration `060_bookings`. Kind: L -/
theorem agrees_mono (hle : Le σ σ') {k : IdempotencyKey} {body : CachedBody}
    (h : ∃ b r, σ.bookings.committed.find? b = some r ∧ r.idempotencyKey = k ∧
      (body.status ≠ some .pending → r.agrees body = true)) :
    ∃ b r, σ'.bookings.committed.find? b = some r ∧ r.idempotencyKey = k ∧
      (body.status ≠ some .pending → r.agrees body = true) := by
  obtain ⟨b, r, hr, hk, hagrees⟩ := h
  obtain ⟨r', hr', hg⟩ := hle.booking b r hr
  refine ⟨b, r', hr', hg.idempotencyKey.trans hk, fun hbody => ?_⟩
  rw [hg.settled (Booking.ne_pending_of_agrees (hagrees hbody) hbody)]
  exact hagrees hbody

/-- What a response says is true, or it is the `202`. Source: migration
`150_fn_write_idempotency_response`. Kind: L -/
theorem agrees_of_written {i client st : ℕ} {ch : Choice} {k : IdempotencyKey} {body : CachedBody}
    (hC : Truthful σ (.exec i ch)) (hwriting : σ.writing i = some (client, k, st, body))
    (hbooked : σ.Booked k) :
    ∃ b r, σ.bookings.committed.find? b = some r ∧ r.idempotencyKey = k ∧
      (r.agrees body = true ∨ body.status = some .pending ∧ σ.response k = none) := by
  obtain ⟨b, r, hr, hk⟩ := hbooked
  exact ⟨b, r, hr, hk, hC _ hwriting r (Table.mem_of_find? hr) hk⟩

/-- **A truthful write goes on in order.** Source: migration `150_fn_write_idempotency_response`. Kind: L -/
theorem moves_of_written (hunique : UniqueOk σ) (htold : σ.Told) {k : IdempotencyKey} {st : ℕ}
    {body : CachedBody} {row : IdempotencyRow} (hrow : σ.idempotencyKeys.find? k = some row)
    (hcode : st = body.code)
    (hwrite : ∃ b r, σ.bookings.committed.find? b = some r ∧ r.idempotencyKey = k ∧
      (r.agrees body = true ∨ body.status = some .pending ∧ σ.response k = none)) :
    row.Moves (answeredRow row st body) := by
  obtain ⟨b, r, hr, hk, hwrite⟩ := hwrite
  have hresponse : σ.response k = row.response := by simp [response, hrow]
  cases hold : row.response with
  | none =>
    right
    rw [hold, hcode]
    exact CachedBody.next_none body
  | some v =>
    obtain ⟨st₀, body₀, hst₀, hbody₀, rfl⟩ : ∃ st₀ body₀, row.responseStatus = some st₀ ∧
        row.responseBody = some body₀ ∧ v = (st₀, body₀.status) := by
      unfold IdempotencyRow.response at hold
      split at hold
      · rename_i st₀ body₀ hst₀ hbody₀
        cases hold
        exact ⟨st₀, body₀, hst₀, hbody₀, rfl⟩
      · cases hold
    obtain ⟨hcode₀, b₀, r₀, hr₀, hk₀, hagrees₀⟩ := htold k row st₀ body₀ hrow hst₀ hbody₀
    obtain rfl := hunique.bookings b b₀ r r₀ hr hr₀ (hk.trans hk₀.symm)
    obtain rfl := Option.eq_some_unique hr hr₀
    have hagrees : r.agrees body = true := by
      rcases hwrite with h | ⟨-, hnone⟩
      · exact h
      · rw [hresponse, hold] at hnone
        cases hnone
    rw [IdempotencyRow.Moves, hold, hcode, hcode₀]
    by_cases hp₀ : body₀.status = some .pending
    · by_cases hp : body.status = some .pending
      · left
        show some (body.code, body.status) = _
        rw [hp, hp₀, CachedBody.code_of_pending hp, CachedBody.code_of_pending hp₀]
      · right
        rw [hp₀, CachedBody.code_of_pending hp₀]
        exact .settled (CachedBody.terminal_of_ne hp)
    · left
      obtain ⟨hsame, hsame'⟩ := Booking.agrees_inj hagrees (hagrees₀ hp₀)
      show some (body.code, body.status) = _
      rw [hsame, hsame']

/-- A step that is truthful advances the responses. Source: migrations `140_fn_idempotency_check`,
`150_fn_write_idempotency_response`. Kind: L -/
theorem Stepped.response_moves (hunique : UniqueOk σ) (htold : σ.Told)
    (hcalls : ∀ (i : ℕ) (e : Exec), σ.execs[i]? = some e → σ.AnswersOk e.call)
    (hs : Stepped σ a σ') (hC : Truthful σ a) :
    Advances IdempotencyRow.Moves σ.idempotencyKeys σ'.idempotencyKeys := by
  intro k row hrow
  obtain ⟨row', hrow', rfl | ⟨i, ch, e, st, body, rfl, he, hpc, hcall, rfl⟩⟩ := key_next hs hrow
  · exact ⟨row', hrow', .refl⟩
  · obtain ⟨hcode, hbooked⟩ := answersOk_of_call (hcalls i e he) hcall
    exact ⟨_, hrow', .single
      (moves_of_written hunique htold hrow hcode
        (agrees_of_written hC (writing_of_exec he hpc hcall) hbooked))⟩

/-- What is stored goes on to agree with the bookings. Source: migrations `140_fn_idempotency_check`,
`150_fn_write_idempotency_response`. Kind: L -/
theorem Told.step (hl : LocksOk σ) (h : σ.Told)
    (hcalls : ∀ (i : ℕ) (e : Exec), σ.execs[i]? = some e → σ.AnswersOk e.call)
    (hs : Stepped σ a σ') (hC : Truthful σ a) : σ'.Told := by
  have hle := hs.le hl
  intro k row' st body hrow' hst hbody
  rcases key_change hs hrow' with hrow | ⟨i, ch, e, rfl, he, hpc, hw⟩
  · obtain ⟨hcode, hagrees⟩ := h k row' st body hrow hst hbody
    exact ⟨hcode, agrees_mono hle hagrees⟩
  · cases hrow : σ.idempotencyKeys.find? k with
    | none =>
      rw [hrow] at hw
      cases hw with
      | check hcall => cases hst
    | some row =>
      rw [hrow] at hw
      cases hw with
      | answer hcall =>
        cases hst
        cases hbody
        obtain ⟨hcode, hbooked⟩ := answersOk_of_call (hcalls i e he) hcall
        obtain ⟨b, r, hr, hk, hagrees⟩ :=
          agrees_of_written hC (writing_of_exec he hpc hcall) hbooked
        refine ⟨hcode, agrees_mono hle ⟨b, r, hr, hk, fun hne => ?_⟩⟩
        rcases hagrees with h | ⟨hp, -⟩
        · exact h
        · exact absurd hp hne

end told

end Store

namespace Sys

/-! ## Responses in the pipeline -/

/-- The responses of `s` go on in order to those of `t`. Source: `app/api/book/route.ts` (header),
`app/api/worker/allocate/route.ts` (step 8). Kind: D -/
def ResponsesAdvance (s t : Sys) : Prop :=
  ∀ k, Relation.ReflTransGen Response.Next (s.store.response k) (t.store.response k)

section responses

variable {cfg : Config} {s s' t : Sys} {a : Action}

/-- The handlers write responses for bookings. Source: `app/api/book/route.ts`,
`app/api/worker/allocate/route.ts`, `app/api/webhooks/qstash-failure/route.ts`
(`commitIdempotencyResponse` call sites). Kind: L -/
theorem TaskOk.answersOk {t : Task} (hok : s.TaskOk t) {call : Call}
    (hcall : t.call cfg = some call) : s.store.AnswersOk call := by
  have hbooked : ∀ {job : AllocateJobPayload}, JobOk s.store job →
      s.store.Booked job.idempotencyKey := by
    intro job hjob
    obtain ⟨r, hr, hk, -⟩ := hjob.booked
    exact ⟨_, r, hr, hk⟩
  cases t with
  | ingress req pc =>
    cases pc with
    | commitRefused job =>
      cases hcall
      exact ⟨rfl, hbooked hok⟩
    | commitAccepted job =>
      cases hcall
      exact ⟨rfl, hbooked hok.1⟩
    | start | publish | respond => cases hcall
    | idempotencyCheck | createBooking | rollback => cases hcall; trivial
  | worker d pc =>
    cases pc with
    | commitSoldOut | commitFailed | commitExpired | commitConfirmed =>
      cases hcall
      exact ⟨rfl, hbooked hok.1⟩
    | chaosGate | refund | respond => cases hcall
    | getBooking | allocate | releaseSoldOut | charge | releaseFailed | releaseForRetry | confirm =>
      cases hcall
      trivial
  | webhook cb pc =>
    cases pc with
    | commit =>
      cases hcall
      exact ⟨rfl, hbooked hok.1⟩
    | respond => cases hcall
    | insertDlq | release => cases hcall; trivial
  | dlqRetry id pc => cases pc <;> cases hcall <;> trivial
  | sweeper pc =>
    cases pc <;> cases hcall
    trivial

/-- The responses that are on their way are responses for bookings. Source: `app/api/book/route.ts`,
`app/api/worker/allocate/route.ts`, `app/api/webhooks/qstash-failure/route.ts`
(`commitIdempotencyResponse` call sites). Kind: L -/
theorem answersOk_of_reach {C : Sys → Action → Prop} (h : Reach (step cfg) Initial C s) :
    ∀ (i : ℕ) (e : Exec), s.store.execs[i]? = some e → s.store.AnswersOk e.call := by
  refine h.invariant
    (P := fun s => ∀ (i : ℕ) (e : Exec), s.store.execs[i]? = some e → s.store.AnswersOk e.call)
    (fun s hinit i e he => absurd he hinit.store_initial.no_exec) fun s a s' hreach hP _ hstep => ?_
  have hinv := inv_of_reach hreach
  have hs := step_cases hstep
  exact hs.forall_calls (P := fun s => s.store.AnswersOk) hP
    (fun _ hok => hok.mono (hs.le hinv.store.locks).store)
    fun c cl _ hcl hcall => (hinv.tasks c cl hcl).answersOk hcall

/-- Nothing is stored at first. Source: none: infrastructure. Kind: L -/
theorem Initial.told (h : Initial s) : s.store.Told := by
  intro k row st body hrow
  rw [h.store_initial.keys_empty] at hrow
  cases hrow

/-- In a truthful run what is stored agrees with the bookings. Source: migration
`150_fn_write_idempotency_response`. Kind: L -/
theorem told_of_reach (h : Reach (step cfg) Initial (OnStore Store.Truthful) s) : s.store.Told := by
  refine h.invariant (P := fun s => s.store.Told) (fun _ hinit => hinit.told)
    fun s a s' hreach hP hC hstep => ?_
  have hl := (inv_of_reach hreach).store.locks
  have hcalls := answersOk_of_reach hreach
  rcases (step_cases hstep).store_cases with heq | ⟨x, hx, ⟨rfl, -⟩ | ⟨_, _, _, -, rfl, -⟩⟩
  · rw [heq]
    exact hP
  · exact hP.step hl hcalls (Store.step_cases hx) hC
  · exact hP.step hl hcalls (Store.step_cases hx) trivial

/-- A truthful step advances the stored responses. Source: migration
`150_fn_write_idempotency_response`. Kind: L -/
theorem keys_advance (h : Reach (step cfg) Initial (OnStore Store.Truthful) s)
    (hs : Stepped cfg s a s') (hC : OnStore Store.Truthful s a) :
    Advances IdempotencyRow.Moves s.store.idempotencyKeys s'.store.idempotencyKeys := by
  have hadvance : ∀ {x}, s.store.step x = some s'.store → Store.Truthful s.store x →
      Advances IdempotencyRow.Moves s.store.idempotencyKeys s'.store.idempotencyKeys :=
    fun hx hC => (Store.step_cases hx).response_moves (inv_of_reach h).store.unique
      (told_of_reach h) (answersOk_of_reach h) hC
  rcases hs.store_cases with heq | ⟨x, hx, ⟨rfl, -⟩ | ⟨_, _, _, -, rfl, -⟩⟩
  · rw [heq]
    exact .refl _ _
  · exact hadvance hx hC
  · exact hadvance hx trivial

/-- **Cached responses never regress.** Along every run whose responses are written while the booking is
what the response says, the `202` also while nothing is stored, what is stored for a key is first nothing,
then perhaps `202 PENDING`, then one terminal response for good. Source: `app/api/book/route.ts` (header),
`app/api/worker/allocate/route.ts` (step 8), migration `150_fn_write_idempotency_response`. Kind: P -/
theorem responses_advance (h : Reach (step cfg) Initial (OnStore Store.Truthful) s)
    (hrun : Steps (step cfg) (OnStore Store.Truthful) s t) : s.ResponsesAdvance t := by
  have hevolves : Evolves IdempotencyRow.Moves s.store.idempotencyKeys t.store.idempotencyKeys := by
    refine evolves_of_steps (P := Reach (step cfg) Initial (OnStore Store.Truthful))
      (fun s : Sys => s.store.idempotencyKeys) ?_ hrun h
    intro u a u' hreach hC hstep
    exact ⟨hreach.snoc hC hstep, keys_advance hreach (step_cases hstep) hC⟩
  have htold : t.store.Told := by
    obtain ⟨s₀, h₀, hs⟩ := h
    have hreach : Reach (step cfg) Initial (OnStore Store.Truthful) t := ⟨s₀, h₀, hs.trans hrun⟩
    exact told_of_reach hreach
  intro k
  cases hrow : s.store.idempotencyKeys.find? k with
  | some row =>
    obtain ⟨row', hrow', hmoves⟩ := hevolves k row hrow
    simp only [Store.response, hrow, hrow', Option.bind_some]
    refine hmoves.lift' IdempotencyRow.response fun a b hab => ?_
    rcases hab with heq | hnext
    · show Relation.ReflTransGen _ _ _
      rw [heq]
    · exact .single hnext
  | none =>
    simp only [Store.response, hrow, Option.bind_none]
    cases hrow' : t.store.idempotencyKeys.find? k with
    | none => exact .refl
    | some row' =>
      rw [Option.bind_some, IdempotencyRow.response]
      split
      · rename_i st body hst hbody
        obtain ⟨rfl, -⟩ := htold k row' st body hrow' hst hbody
        exact .single (CachedBody.next_none body)
      · exact .refl

end responses

/-! ## The race -/

/-- The worker confirms and answers before the ingress writes its `202`. Source: none: infrastructure.
Kind: D -/
def racing : List Action :=
  booking ++ [.deliver 0 0, .chaos 1 none] ++ callReturns 1 2 1 ++ callReturns 1 3 2 ++ callReturns 1 4 2 ++
    callReturns 1 5 3 ++ callReturns 1 6 1

/-- What is stored for the key of the request. Source: none: infrastructure. Kind: D -/
def told (s : Sys) : Option Response := asha.idempotencyKey.bind s.store.response

/-- **A cached response regresses.** In some reachable pipeline `200 CONFIRMED` is stored for a key, and
the `202` of the ingress replaces it. Source: `app/api/book/route.ts` (step 10), migration
`150_fn_write_idempotency_response`. Kind: P -/
theorem regressed_response :
    ¬ ∀ s t, Reachable config s → Steps (step config) Always s t → s.ResponsesAdvance t := by
  intro h
  have hrun : ((run (step config) opening racing).bind fun s =>
      (run (step config) s (callReturns 0 7 1)).map fun t => (s.told, t.told)) =
      some (some (200, some .confirmed), some (202, some .pending)) := by decide +kernel
  obtain ⟨s, hs, hrun⟩ := Option.bind_eq_some_iff.mp hrun
  obtain ⟨t, ht, hrun⟩ := Option.map_eq_some_iff.mp hrun
  obtain ⟨hbefore, hafter⟩ := Prod.ext_iff.mp hrun
  have hadvance := h s t ⟨_, initial_opening, steps_of_run hs⟩ (steps_of_run ht)
    "0b8e4c1a-5f2d-4e3a-9c7b-1a2b3c4d5e6f"
  simp only [told, asha, Option.bind_some] at hbefore hafter
  rw [hbefore, hafter] at hadvance
  rcases hadvance.cases_head with heq | ⟨v, hnext, -⟩
  · cases heq
  · cases hnext

/-- The booking is accepted and confirmed, and its response settled. Source: none: infrastructure.
Kind: L -/
theorem responses_advance_ticketing : ∃ s t : Sys, s.told = none ∧
    t.told = some (200, some .confirmed) ∧ s.ResponsesAdvance t := by
  have hrun : (run (guarded (step config) (OnStore Store.Truthful)) opening ticketing).map told =
      some (some (200, some .confirmed)) := by decide +kernel
  obtain ⟨t, ht, htold⟩ := Option.map_eq_some_iff.mp hrun
  exact ⟨opening, t, rfl, htold,
    responses_advance (.start initial_opening) (steps_of_guarded ht)⟩

end Sys

end TrainsAndTracks
