import TrainsAndTracks.Pipeline.Routes
import TrainsAndTracks.Found.Run

/-!
# Publishing a job again

`POST /api/admin/dlq/[id]/retry` looks a row of `dlq_jobs` up, publishes its payload and marks the row:
three effects, with no lock between them and no condition on the mark. Whether two requests are two
messages is up to the broker, which drops a message that repeats a `deduplicationId`.

* `publishAllocateJob` — what `infra/qstash/publisher.ts` hands to the broker, field by field.
* `Broker.accept` — the broker takes a message, or drops it.
* `Requeue` — the row, `n` requests for it and the broker, with every interleaving of their effects.

`requeued_once_iff` says when the promise of the route holds. The publisher identifies no message, so each
request that comes as far as the broker is one more message, and it holds only where at most one does.
-/

namespace TrainsAndTracks

open Found

/-! ## What is published -/

/-- The environment the publisher reads. Source: `infra/qstash/publisher.ts`. Kind: D. Fidelity: exact -/
structure PublisherEnv where
  appUrl : Option String
  qstashDevBypass : Option String
  vercel : Option String
  deriving DecidableEq, Repr

/-- A variable that is set and not empty. Source: `infra/qstash/publisher.ts` `required` (`!v`). Kind: D.
Fidelity: exact -/
def truthy (v : Option String) : Option String := v.filter (· ≠ "")

/-- The worker is to run in this process. Source: `infra/qstash/publisher.ts` `publishAllocateJob`
(`bypass`). Kind: D. Fidelity: exact -/
def PublisherEnv.bypass (env : PublisherEnv) : Bool :=
  env.qstashDevBypass == some "1" && (truthy env.vercel).isNone

/-- How the broker spaces the messages of a key. Source: `infra/qstash/publisher.ts` `publishAllocateJob`
(`flowControl`). Kind: D. Fidelity: exact -/
structure FlowControl where
  key : String
  parallelism : ℕ
  rate : ℕ
  period : String
  deriving DecidableEq, Repr

/-- A request to the broker. Source: `infra/qstash/publisher.ts` `publishAllocateJob`, with the
`deduplicationId` that `docs/API_CONTRACT.md` (7.2) names. Kind: D -/
structure PublishRequest where
  url : String
  body : AllocateJobPayload
  flowControl : FlowControl
  retries : ℕ
  failureCallback : String
  /-- What identifies the message to the broker, where the caller says. -/
  deduplicationId : Option String
  deriving DecidableEq, Repr

/-- What becomes of a job that is published. Source: `infra/qstash/publisher.ts` `publishAllocateJob`.
Kind: D. Fidelity: exact -/
inductive Dispatch
  /-- `required('APP_URL')` throws. -/
  | throws (message : String)
  /-- `enqueueLocalWorker`: the worker runs in this process. -/
  | inProcess (args : AllocateJobPayload)
  | publishJSON (req : PublishRequest)
  deriving DecidableEq, Repr

/-- A job is refused, run in this process, or sent to the broker. Source: `infra/qstash/publisher.ts`
`publishAllocateJob`. Kind: D. Fidelity: exact -/
def publishAllocateJob (env : PublisherEnv) (args : AllocateJobPayload) : Dispatch :=
  match truthy env.appUrl with
  | none => .throws "env var APP_URL missing"
  | some appUrl =>
    if env.bypass then .inProcess args
    else .publishJSON
      { url := s!"{appUrl}/api/worker/allocate"
        body := args
        flowControl := ⟨s!"train.{args.trainId}", 50, 200, "1s"⟩
        retries := 3
        failureCallback := s!"{appUrl}/api/webhooks/qstash-failure"
        deduplicationId := none }

/-- The broker takes a message unless it repeats a `deduplicationId`. Source: `docs/API_CONTRACT.md` (7.2).
Kind: D. Fidelity: the documented behaviour of the broker -/
def Broker.accept (log : List PublishRequest) (req : PublishRequest) : List PublishRequest :=
  if req.deduplicationId.any fun id => log.any fun m => m.deduplicationId == some id then log
  else log ++ [req]

/-! ## Requests for one row -/

/-- The row the requests are for, where each of them stands and what the broker has accepted. Source:
`app/api/admin/dlq/[id]/retry/route.ts` `POST`. Kind: D -/
structure Requeue where
  now : Time
  row : Option DlqJob
  requests : List DlqRetryPc
  accepted : List PublishRequest
  /-- The jobs of `LOCAL_QUEUES`. -/
  inProcess : List AllocateJobPayload

namespace Requeue

/-- The steps of the requests, and the clock. Source: `app/api/admin/dlq/[id]/retry/route.ts` `POST`.
Kind: D -/
inductive Action
  | tick (d : ℕ)
  | lookup (n : ℕ) (throws : Bool)
  /-- The broker may have accepted the message without the request learning so. -/
  | publish (n : ℕ) (accepted acknowledged : Bool)
  /-- The `UPDATE` may have been executed without the request learning so. -/
  | mark (n : ℕ) (executed acknowledged : Bool)

/-- Request `n` goes on to `pc`. Source: none: bookkeeping. Kind: D -/
def goto (w : Requeue) (n : ℕ) (pc : DlqRetryPc) : Requeue := { w with requests := w.requests.set n pc }

/-- The row once it is marked. Source: `lib/db/repositories/dlq.ts` `markDlqRetried`. Kind: D.
Fidelity: exact -/
def marked (w : Requeue) : Requeue :=
  { w with row := w.row.map fun j => (Store.markRetriedUpdate j.id w.now).set j }

/-- One effect of one request. Source: `app/api/admin/dlq/[id]/retry/route.ts` `POST`. Kind: D -/
def step (env : PublisherEnv) (w : Requeue) : Action → Option Requeue
  | .tick d => some { w with now := w.now + d }
  | .lookup n throws =>
    match w.requests[n]? with
    | some .lookup =>
      if throws then some (w.goto n (DlqRetryPc.onThrow .lookup))
      else (DlqRetryPc.onReply .lookup (.dlqJob w.row)).map (w.goto n)
    | _ => none
  | .publish n accepted acknowledged =>
    match w.requests[n]? with
    | some (.publish job) =>
      match publishAllocateJob env job with
      | .throws _ => some (w.goto n (DlqRetryPc.onThrow (.publish job)))
      | .inProcess args => some ({ w with inProcess := w.inProcess ++ [args] }.goto n .mark)
      | .publishJSON req =>
        let w' := if accepted then { w with accepted := Broker.accept w.accepted req } else w
        some (w'.goto n (if accepted && acknowledged then .mark else DlqRetryPc.onThrow (.publish job)))
    | _ => none
  | .mark n executed acknowledged =>
    match w.requests[n]? with
    | some .mark =>
      let w' := if executed then w.marked else w
      if executed && acknowledged then (DlqRetryPc.onReply .mark .unit).map (w'.goto n)
      else some (w'.goto n (DlqRetryPc.onThrow .mark))
    | _ => none

/-- `n` requests for the row, with what the broker has accepted before. Source:
`app/api/admin/dlq/[id]/retry/route.ts` `POST`. Kind: D -/
def Asked (row : Option DlqJob) (n : ℕ) (earlier : List PublishRequest) (w : Requeue) : Prop :=
  w.row = row ∧ w.requests = List.replicate n .lookup ∧ w.accepted = earlier

/-- A request for the row comes as far as the broker: the row exists, its payload is a job, `APP_URL` is
set, and the worker is not run in this process. Source: `app/api/admin/dlq/[id]/retry/route.ts` `POST`,
`infra/qstash/publisher.ts` `publishAllocateJob`. Kind: D -/
def Republishes (env : PublisherEnv) (row : Option DlqJob) : Prop :=
  (∃ j, row = some j ∧ j.payload.valid = true) ∧ (truthy env.appUrl).isSome = true ∧ env.bypass = false

/-- Whatever the order of their effects and whichever of them fail, the requests make at most one new
message. Source: `app/api/admin/dlq/[id]/retry/route.ts` (header comment). Kind: D -/
def RequeuedOnce (env : PublisherEnv) (row : Option DlqJob) (n : ℕ) (earlier : List PublishRequest) : Prop :=
  ∀ w, Reach (step env) (Asked row n earlier) Always w → w.accepted.length ≤ earlier.length + 1

/-! ## A double click -/

/-- A row of `dlq_jobs`. Source: none: infrastructure. Kind: D -/
def deadLetter : DlqJob :=
  ⟨0, 0, ⟨0, "5f0c3f5e-7d2a-4c1b-9a55-0d6a1f2b3c4d", "12951", "Asha"⟩, "retries_exhausted", 3, none, none⟩

/-- An environment that publishes. Source: none: infrastructure. Kind: D -/
def deployed : PublisherEnv := ⟨some "https://trains-and-tracks.vercel.app", none, some "1"⟩

/-- Two requests for the row, before the broker has accepted anything. Source: none: infrastructure.
Kind: D -/
def askedTwice : Requeue := ⟨0, some deadLetter, List.replicate 2 .lookup, [], []⟩

/-- A double click. Source: none: infrastructure. Kind: D -/
def doubleClick : List Action :=
  [.lookup 0 false, .lookup 1 false, .publish 0 true true, .publish 1 true true]

/-- **Two messages for a double click.** Nothing identifies the message to the broker. Source:
`app/api/admin/dlq/[id]/retry/route.ts` `POST`. Kind: P -/
theorem requeued_twice : ¬ ∀ (env : PublisherEnv) (row : Option DlqJob) (n : ℕ)
    (earlier : List PublishRequest), RequeuedOnce env row n earlier := by
  intro h
  have hasked : Asked (some deadLetter) 2 [] askedTwice := ⟨rfl, rfl, rfl⟩
  have hrun : (run (step deployed) askedTwice doubleClick).map
      (fun w => decide (w.accepted.length = 2)) = some true := by decide
  obtain ⟨w, hw, htwo⟩ := reach_of_run hasked hrun
  have hle := h deployed (some deadLetter) 2 [] w hw
  rw [of_decide_eq_true htwo] at hle
  exact absurd hle (by decide)

/-! ## What the broker is given -/

/-- A message without a `deduplicationId` is always one more. Source: `docs/API_CONTRACT.md` (7.2).
Kind: L -/
theorem accept_of_none {log : List PublishRequest} {req : PublishRequest}
    (h : req.deduplicationId = none) : Broker.accept log req = log ++ [req] := by
  unfold Broker.accept
  rw [h]
  rfl

/-- The publisher identifies no message. Source: `infra/qstash/publisher.ts` `publishAllocateJob`.
Kind: L -/
theorem publishAllocateJob_unidentified {env : PublisherEnv} {args : AllocateJobPayload}
    {req : PublishRequest} (h : publishAllocateJob env args = .publishJSON req) :
    req.body = args ∧ req.deduplicationId = none := by
  unfold publishAllocateJob at h
  split at h
  · cases h
  · split at h
    · cases h
    · cases h
      exact ⟨rfl, rfl⟩

/-- When it publishes to the broker. Source: `infra/qstash/publisher.ts` `publishAllocateJob`. Kind: L -/
theorem exists_publishJSON_iff {env : PublisherEnv} {args : AllocateJobPayload} :
    (∃ req, publishAllocateJob env args = .publishJSON req) ↔
      (truthy env.appUrl).isSome = true ∧ env.bypass = false := by
  unfold publishAllocateJob
  cases truthy env.appUrl with
  | none => simp
  | some appUrl => by_cases hbypass : env.bypass = true <;> simp [hbypass]

/-! ## One effect -/

section effects

variable {env : PublisherEnv} {w w' : Requeue} {a : Action} {row : Option DlqJob} {n i : ℕ}
variable {earlier : List PublishRequest} {pc old : DlqRetryPc}

/-- The request has had its publication. Source: `app/api/admin/dlq/[id]/retry/route.ts` `POST`. Kind: D -/
def published : DlqRetryPc → Bool
  | .mark | .respond _ => true
  | .lookup | .publish _ => false

/-- What one effect is: time passes; a request looks the row up; it publishes; it marks the row. Source:
`app/api/admin/dlq/[id]/retry/route.ts` `POST`. Kind: L -/
theorem step_cases (h : step env w a = some w') :
    (w'.requests = w.requests ∧ w'.accepted = w.accepted ∧ w'.row = w.row) ∨
    (∃ i pc, w.requests[i]? = some .lookup ∧ w'.requests = w.requests.set i pc ∧
      w'.accepted = w.accepted ∧ w'.row = w.row ∧
      ∀ job, pc = .publish job → ∃ j, w.row = some j ∧ j.payload = job ∧ job.valid = true) ∨
    (∃ i job pc, w.requests[i]? = some (.publish job) ∧ published pc = true ∧
      w'.requests = w.requests.set i pc ∧ w'.row = w.row ∧
      (w'.accepted = w.accepted ∨
        ∃ req, publishAllocateJob env job = .publishJSON req ∧ w'.accepted = w.accepted ++ [req])) ∨
    (∃ i pc, w.requests[i]? = some .mark ∧ published pc = true ∧ w'.requests = w.requests.set i pc ∧
      w'.accepted = w.accepted ∧ (w'.row = w.row ∨ w'.row = w.marked.row)) := by
  cases a with
  | tick d =>
    cases h
    exact .inl ⟨rfl, rfl, rfl⟩
  | lookup i throws =>
    unfold step at h
    dsimp only at h
    split at h
    · rename_i hi
      right
      left
      split at h
      · cases h
        exact ⟨i, _, hi, rfl, rfl, rfl, fun job hjob => by cases hjob⟩
      · obtain ⟨pc, hpc, rfl⟩ := Option.map_eq_some_iff.mp h
        refine ⟨i, pc, hi, rfl, rfl, rfl, ?_⟩
        rintro job rfl
        cases hrow : w.row with
        | none =>
          rw [hrow] at hpc
          cases hpc
        | some j =>
          rw [hrow] at hpc
          simp only [DlqRetryPc.onReply, Option.some.injEq] at hpc
          split at hpc
          · rename_i hvalid
            cases hpc
            exact ⟨j, rfl, rfl, hvalid⟩
          · cases hpc
    · cases h
  | publish i accepted acknowledged =>
    unfold step at h
    dsimp only at h
    split at h
    · rename_i job hi
      right
      right
      left
      split at h
      · cases h
        exact ⟨i, job, _, hi, rfl, rfl, rfl, .inl rfl⟩
      · cases h
        exact ⟨i, job, _, hi, rfl, rfl, rfl, .inl rfl⟩
      · rename_i req hreq
        cases accepted with
        | false =>
          cases h
          exact ⟨i, job, _, hi, rfl, rfl, rfl, .inl rfl⟩
        | true =>
          cases h
          refine ⟨i, job, _, hi, ?_, rfl, rfl, .inr ⟨req, hreq, ?_⟩⟩
          · split <;> rfl
          · exact accept_of_none (publishAllocateJob_unidentified hreq).2
    · cases h
  | mark i executed acknowledged =>
    unfold step at h
    dsimp only at h
    split at h
    · rename_i hi
      right
      right
      right
      cases executed with
      | false =>
        cases h
        exact ⟨i, _, hi, rfl, rfl, rfl, .inl rfl⟩
      | true =>
        cases acknowledged with
        | false =>
          cases h
          exact ⟨i, _, hi, rfl, rfl, rfl, .inr rfl⟩
        | true =>
          cases h
          exact ⟨i, _, hi, rfl, rfl, rfl, .inr rfl⟩
    · cases h

/-- The row keeps its payload. Source: `lib/db/repositories/dlq.ts` `markDlqRetried`. Kind: L -/
theorem payload_marked : w.marked.row.map DlqJob.payload = w.row.map DlqJob.payload := by
  unfold marked
  cases w.row <;> rfl

/-- A request is before its publication with the payload of the row, and each message is that of a request
that has had its publication. Source: `app/api/admin/dlq/[id]/retry/route.ts` `POST`. Kind: D -/
structure Offered (row : Option DlqJob) (n : ℕ) (earlier : List PublishRequest) (w : Requeue) : Prop where
  payload : w.row.map DlqJob.payload = row.map DlqJob.payload
  length : w.requests.length = n
  publishing : ∀ job, .publish job ∈ w.requests → ∃ j, row = some j ∧ j.payload = job ∧ job.valid = true
  accepted : w.accepted.length ≤ earlier.length + w.requests.countP published

/-- The requests before their lookup. Source: `app/api/admin/dlq/[id]/retry/route.ts` `POST`. Kind: L -/
theorem Offered.start (h : Asked row n earlier w) : Offered row n earlier w := by
  obtain ⟨hrow, hrequests, haccepted⟩ := h
  constructor
  · rw [hrow]
  · rw [hrequests, List.length_replicate]
  · intro job hjob
    rw [hrequests] at hjob
    cases List.eq_of_mem_replicate hjob
  · rw [haccepted]
    exact Nat.le_add_right _ _

/-- **What one effect keeps.** Source: `app/api/admin/dlq/[id]/retry/route.ts` `POST`. Kind: L -/
theorem Offered.step (h : Offered row n earlier w) (hstep : Requeue.step env w a = some w') :
    Offered row n earlier w' := by
  obtain ⟨hrequests, haccepted, hrow⟩ | ⟨i, pc, hi, hrequests, haccepted, hrow, hpc⟩ |
    ⟨i, job, pc, hi, hpc, hrequests, hrow, haccepted⟩ | ⟨i, pc, hi, hpc, hrequests, haccepted, hrow⟩ :=
    step_cases hstep
  · constructor
    · rw [hrow]
      exact h.payload
    · rw [hrequests]
      exact h.length
    · rw [hrequests]
      exact h.publishing
    · rw [hrequests, haccepted]
      exact h.accepted
  · have hcount := countP_set_of_some hi published pc
    rw [show published .lookup = false from rfl, if_neg Bool.false_ne_true] at hcount
    constructor
    · rw [hrow]
      exact h.payload
    · rw [hrequests, List.length_set]
      exact h.length
    · intro job hjob
      rw [hrequests] at hjob
      rcases List.mem_or_eq_of_mem_set hjob with hold | hnew
      · exact h.publishing job hold
      · obtain ⟨j, hj, hpayload, hvalid⟩ := hpc job hnew.symm
        have hkept := h.payload
        rw [hj, Option.map_some] at hkept
        obtain ⟨j', rfl, hj'⟩ := Option.map_eq_some_iff.mp hkept.symm
        exact ⟨j', rfl, hj'.trans hpayload, hvalid⟩
    · have hold := h.accepted
      rw [hrequests, haccepted]
      omega
  · have hcount := countP_set_of_some hi published pc
    rw [show published (.publish job) = false from rfl, hpc, if_neg Bool.false_ne_true] at hcount
    constructor
    · rw [hrow]
      exact h.payload
    · rw [hrequests, List.length_set]
      exact h.length
    · intro job' hjob
      rw [hrequests] at hjob
      rcases List.mem_or_eq_of_mem_set hjob with hold | hnew
      · exact h.publishing job' hold
      · rw [← hnew] at hpc
        cases hpc
    · have hold := h.accepted
      rw [hrequests]
      rcases haccepted with hsame | ⟨req, -, hone⟩
      · rw [hsame]
        simp at hcount
        omega
      · rw [hone, List.length_append, List.length_singleton]
        simp at hcount
        omega
  · have hcount := countP_set_of_some hi published pc
    rw [show published .mark = true from rfl, hpc] at hcount
    constructor
    · rcases hrow with hsame | hmarked
      · rw [hsame]
        exact h.payload
      · rw [hmarked, payload_marked]
        exact h.payload
    · rw [hrequests, List.length_set]
      exact h.length
    · intro job hjob
      rw [hrequests] at hjob
      rcases List.mem_or_eq_of_mem_set hjob with hold | hnew
      · exact h.publishing job hold
      · rw [← hnew] at hpc
        cases hpc
    · have hold := h.accepted
      rw [hrequests, haccepted]
      omega

/-- Where no request comes as far as the broker, nothing is accepted. Source:
`app/api/admin/dlq/[id]/retry/route.ts` `POST`. Kind: L -/
theorem accepted_of_not_republishes (hnone : ¬ Republishes env row) (h : Offered row n earlier w)
    (hstep : Requeue.step env w a = some w') : w'.accepted = w.accepted := by
  obtain ⟨-, haccepted, -⟩ | ⟨-, -, -, -, haccepted, -⟩ | ⟨i, job, -, hi, -, -, -, hsame | ⟨req, hreq, -⟩⟩ |
    ⟨-, -, -, -, -, haccepted, -⟩ := step_cases hstep
  · exact haccepted
  · exact haccepted
  · exact hsame
  · obtain ⟨j, hrow, rfl, hvalid⟩ := h.publishing job (List.mem_of_getElem? hi)
    exact absurd ⟨⟨j, hrow, hvalid⟩, exists_publishJSON_iff.mp ⟨req, hreq⟩⟩ hnone
  · exact haccepted

end effects

/-! ## When the promise holds -/

/-- Two of the requests for a row, and `k` more that wait. Source: none: infrastructure. Kind: D -/
def clicked (j : DlqJob) (k : ℕ) (first second : DlqRetryPc) (accepted : List PublishRequest) : Requeue :=
  ⟨0, some j, first :: second :: List.replicate k .lookup, accepted, []⟩

/-- Two requests that come as far as the broker are two messages. Source:
`app/api/admin/dlq/[id]/retry/route.ts` `POST`. Kind: L -/
theorem exists_two_messages {env : PublisherEnv} {row : Option DlqJob} {n : ℕ}
    {earlier : List PublishRequest} (hn : 2 ≤ n) (h : Republishes env row) :
    ∃ w, Reach (step env) (Asked row n earlier) Always w ∧ w.accepted.length = earlier.length + 2 := by
  obtain ⟨k, rfl⟩ := Nat.exists_eq_add_of_le hn
  obtain ⟨⟨j, rfl, hvalid⟩, hpublishes⟩ := h
  obtain ⟨req, hreq⟩ : ∃ req, publishAllocateJob env j.payload = .publishJSON req :=
    exists_publishJSON_iff.mpr hpublishes
  have hasked : Asked (some j) (2 + k) earlier (clicked j k .lookup .lookup earlier) := by
    refine ⟨rfl, ?_, rfl⟩
    rw [Nat.add_comm]
    rfl
  have hfound : DlqRetryPc.onReply .lookup (.dlqJob (some j)) = some (.publish j.payload) := by
    simp only [DlqRetryPc.onReply, hvalid, if_true]
  have htaken : ∀ log, Broker.accept log req = log ++ [req] := fun log =>
    accept_of_none (publishAllocateJob_unidentified hreq).2
  have hlookup₀ : step env (clicked j k .lookup .lookup earlier) (.lookup 0 false) =
      some (clicked j k (.publish j.payload) .lookup earlier) := by
    simp [step, clicked, hfound, goto]
  have hlookup₁ : step env (clicked j k (.publish j.payload) .lookup earlier) (.lookup 1 false) =
      some (clicked j k (.publish j.payload) (.publish j.payload) earlier) := by
    simp [step, clicked, hfound, goto]
  have hpublish₀ : step env (clicked j k (.publish j.payload) (.publish j.payload) earlier)
      (.publish 0 true true) = some (clicked j k .mark (.publish j.payload) (earlier ++ [req])) := by
    simp [step, clicked, hreq, htaken, goto]
  have hpublish₁ : step env (clicked j k .mark (.publish j.payload) (earlier ++ [req]))
      (.publish 1 true true) = some (clicked j k .mark .mark (earlier ++ [req] ++ [req])) := by
    simp [step, clicked, hreq, htaken, goto]
  refine ⟨_, ((((Reach.start hasked).snoc trivial hlookup₀).snoc trivial hlookup₁).snoc trivial
    hpublish₀).snoc trivial hpublish₁, ?_⟩
  simp [clicked]

/-- **When a job is published again at most once.** Whatever the order of the effects and whichever of them
fail: when there is at most one request, or none of them comes as far as the broker. Source:
`app/api/admin/dlq/[id]/retry/route.ts` `POST`, `infra/qstash/publisher.ts` `publishAllocateJob`. Kind: P -/
theorem requeued_once_iff (env : PublisherEnv) (row : Option DlqJob) (n : ℕ)
    (earlier : List PublishRequest) :
    RequeuedOnce env row n earlier ↔ n ≤ 1 ∨ ¬ Republishes env row := by
  constructor
  · intro honce
    by_contra hboth
    rw [not_or, not_not, Nat.not_le] at hboth
    obtain ⟨w, hw, htwo⟩ : ∃ w, Reach (step env) (Asked row n earlier) Always w ∧
        w.accepted.length = earlier.length + 2 := exists_two_messages hboth.1 hboth.2
    have hle := honce w hw
    omega
  · rintro (hone | hnone) w hw
    · have hoffered : Offered row n earlier w :=
        hw.invariant (fun _ => Offered.start) fun _ _ _ _ h _ hstep => h.step hstep
      have hcount : w.requests.countP published ≤ w.requests.length := List.countP_le_length
      have hlength := hoffered.length
      have haccepted := hoffered.accepted
      omega
    · have hsame : Offered row n earlier w ∧ w.accepted = earlier := by
        refine hw.invariant (P := fun w => Offered row n earlier w ∧ w.accepted = earlier)
          (fun w hw => ⟨Offered.start hw, hw.2.2⟩) fun w a w' _ h _ hstep => ?_
        exact ⟨h.1.step hstep, (accepted_of_not_republishes hnone h.1 hstep).trans h.2⟩
      rw [hsame.2]
      exact Nat.le_succ _

end Requeue

end TrainsAndTracks
