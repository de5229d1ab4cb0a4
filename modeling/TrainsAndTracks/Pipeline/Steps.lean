import TrainsAndTracks.Pipeline.System
import TrainsAndTracks.Store.Outcomes

/-!
# What one step of the pipeline can do

The inversion of `Sys.step`, said once. `WorkerPc.Replied` and its likes list the branches a handler
takes on a reply; `Sys.Stepped` lists the shapes of the state after a step. `Sys.Stepped.client_cases`,
`store_cases` and `message_cases` read one component of the new state off it.
-/

namespace TrainsAndTracks

open Found

/-! ## The branches of the handlers -/

/-- `Replied retried job now pc r pc'`: at `pc` the worker takes the reply `r` to `pc'`.
Source: `app/api/worker/allocate/route.ts` `handler` (the branches of `WorkerPc.onReply`). Kind: D -/
inductive WorkerPc.Replied (retried : ℕ) (job : AllocateJobPayload) (now : Time) :
    WorkerPc → Reply → WorkerPc → Prop
  | noBooking : Replied retried job now .getBooking (.booking none)
      (.respond (.nonRetryable "job_not_found" "booking row does not exist"))
  | pending {row} (hst : row.status = .pending) :
      Replied retried job now .getBooking (.booking (some row)) (.allocate row.pricePaise)
  | terminal {row} (hst : row.status ≠ .pending) :
      Replied retried job now .getBooking (.booking (some row))
        (.respond (.alreadyTerminal job.bookingId row.status))
  | soldOut {price} : Replied retried job now (.allocate price) (.allocated none) .releaseSoldOut
  | allocated {price seat version} :
      Replied retried job now (.allocate price) (.allocated (some (seat, version)))
        (.charge price seat)
  | soldOutReleased {n} :
      Replied retried job now .releaseSoldOut (.released n) .commitSoldOut
  | soldOutCommitted :
      Replied retried job now .commitSoldOut .unit (.respond (.ok (soldOutBody job)))
  | paid {price seat payment replayed} :
      Replied retried job now (.charge price seat) (.paid payment replayed)
        (.confirm price seat payment)
  | refused {price seat code} :
      Replied retried job now (.charge price seat) (.paymentError code)
        (onPaymentError retried code)
  | failedReleased {f n} :
      Replied retried job now (.releaseFailed f) (.released n) (.commitFailed f)
  | failedCommitted {f} :
      Replied retried job now (.commitFailed f) .unit (.respond f.answer)
  | retryReleased {answer n} :
      Replied retried job now (.releaseForRetry answer) (.released n) (.respond answer)
  | confirmed {price seat payment b} :
      Replied retried job now (.confirm price seat payment) (.confirmed (some b))
        (.commitConfirmed price seat now)
  | holdLost {price seat payment} :
      Replied retried job now (.confirm price seat payment) (.confirmed none) (.refund payment)
  | expiredCommitted :
      Replied retried job now .commitExpired .unit (.respond (.ok (expiredBody job)))
  | confirmedCommitted {price seat confirmedAt} :
      Replied retried job now (.commitConfirmed price seat confirmedAt) .unit
        (.respond (.ok (confirmedBody job price seat confirmedAt)))

/-- Inversion of the worker's replies. Source: `app/api/worker/allocate/route.ts` `handler`.
Kind: L -/
theorem WorkerPc.replied {retried : ℕ} {job : AllocateJobPayload} {now : Time} {pc pc' : WorkerPc}
    {r : Reply} (h : pc.onReply retried job now r = some pc') :
    Replied retried job now pc r pc' := by
  unfold onReply at h
  split at h <;> (try split at h) <;> cases h
  · exact .noBooking
  · exact .pending ‹_›
  · exact .terminal ‹_›
  · exact .soldOut
  · exact .allocated
  · exact .soldOutReleased
  · exact .soldOutCommitted
  · exact .paid
  · exact .refused
  · exact .failedReleased
  · exact .failedCommitted
  · exact .retryReleased
  · exact .confirmed
  · exact .holdLost
  · exact .expiredCommitted
  · exact .confirmedCommitted

/-- The branches of the ingress. Source: `app/api/book/route.ts` `handle` (the branches of
`IngressPc.onReply`). Kind: D -/
inductive IngressPc.Replied (cfg : Config) : IngressPc → Reply → IngressPc → Prop
  | fresh {k body row} :
      Replied cfg (.idempotencyCheck k body) (.idempotency row true) (.createBooking k body)
  | mismatch {k body row} :
      Replied cfg (.idempotencyCheck k body) (.idempotency row false)
        (.respond (.error 400 "idempotency_key_in_use"))
  | replay {k body row st cached} (hst : row.responseStatus = some st)
      (hbody : row.responseBody = some cached) :
      Replied cfg (.idempotencyCheck k body) (.idempotency row false) (.respond (.replay st cached))
  | inflight {k body row} :
      Replied cfg (.idempotencyCheck k body) (.idempotency row false)
        (.respond (.error 409 "idempotency_key_replaying"))
  | created {k body id} :
      Replied cfg (.createBooking k body) (.created id)
        (.publish ⟨id, k, body.trainId, body.passengerName⟩)
  | rolledBack {job} : Replied cfg (.rollback job) .unit (.commitRefused job)
  | refused {job} :
      Replied cfg (.commitRefused job) .unit (.respond (.error 502 "upstream_failure"))
  | accepted {job} :
      Replied cfg (.commitAccepted job) .unit (.respond (.accepted (acceptedBody job)))

/-- Inversion of the ingress's replies. Source: `app/api/book/route.ts` `handle`. Kind: L -/
theorem IngressPc.replied {cfg : Config} {pc pc' : IngressPc} {r : Reply}
    (h : pc.onReply cfg r = some pc') : Replied cfg pc r pc' := by
  unfold onReply at h
  split at h
  · rename_i row inserted
    cases inserted with
    | true =>
      cases h
      exact .fresh
    | false =>
      simp only [Bool.false_eq_true, if_false] at h
      split at h
      · cases h
        exact .mismatch
      · split at h <;> cases h
        · exact .replay ‹_› ‹_›
        · exact .inflight
  all_goals cases h
  · exact .created
  · exact .rolledBack
  · exact .refused
  · exact .accepted

/-- The branches of the failure webhook. Source: `app/api/webhooks/qstash-failure/route.ts`
`handler` (the branches of `WebhookPc.onReply`). Kind: D -/
inductive WebhookPc.Replied : WebhookPc → Reply → WebhookPc → Prop
  | recorded {id} : Replied .insertDlq (.dlqInserted id) .release
  | recordedOnly {id} : Replied .insertDlq (.dlqInserted id) (.respond 200)
  | released {n} : Replied .release (.released n) .commit
  | committed : Replied .commit .unit (.respond 200)

/-- Inversion of the webhook's replies. Source: `app/api/webhooks/qstash-failure/route.ts`
`handler`. Kind: L -/
theorem WebhookPc.replied {cb : FailureCallback} {pc pc' : WebhookPc} {r : Reply}
    (h : pc.onReply cb r = some pc') : Replied pc r pc' := by
  unfold onReply at h
  split at h <;> (try split at h) <;> cases h
  · exact .recorded
  · exact .recordedOnly
  · exact .released
  · exact .committed

/-- The branches of the operator's retry. Source: `app/api/admin/dlq/[id]/retry/route.ts` `POST`
(the branches of `DlqRetryPc.onReply`). Kind: D -/
inductive DlqRetryPc.Replied : DlqRetryPc → Reply → DlqRetryPc → Prop
  | missing : Replied .lookup (.dlqJob none) (.respond 404)
  | found {row} : Replied .lookup (.dlqJob (some row)) (.publish row.payload)
  | invalid {row} : Replied .lookup (.dlqJob (some row)) (.respond 400)
  | marked : Replied .mark .unit (.respond 200)

/-- Inversion of the operator's replies. Source: `app/api/admin/dlq/[id]/retry/route.ts` `POST`.
Kind: L -/
theorem DlqRetryPc.replied {pc pc' : DlqRetryPc} {r : Reply} (h : pc.onReply r = some pc') :
    Replied pc r pc' := by
  unfold onReply at h
  split at h <;> (try split at h) <;> cases h
  · exact .missing
  · exact .found
  · exact .invalid
  · exact .marked

namespace Sys

/-! ## The steps of the pipeline -/

/-- The handlers that start. Source: the routes of `app/api`. Kind: D -/
inductive Starts (s : Sys) : Action → Task → Prop
  | post {req} : Starts s (.post req) (.ingress req .start)
  | deliver {m retried msg} (hmsg : s.messages[m]? = some msg) :
      Starts s (.deliver m retried) (.worker ⟨m, retried, msg.payload⟩ .chaosGate)
  | failureCallback {m msg cb} (hmsg : s.messages[m]? = some msg) (hcb : msg.callback m = some cb) :
      Starts s (.failureCallback m) (.webhook cb .insertDlq)
  | retryDlq {id} : Starts s (.retryDlq id) (.dlqRetry id .lookup)
  | sweep : Starts s .sweep (.sweeper .sweep)

/-- How handler `c` goes on from `t` to `t'` without the store, and whether the broker takes a
message. Source: the routes of `app/api`. Kind: D -/
inductive Goes (cfg : Config) (c : ℕ) : Action → Task → Task → Option AllocateJobPayload → Prop
  | throw {t call} (hcall : t.call cfg = some call) : Goes cfg c (.throw c) t t.onThrow none
  | gate {req rateOk depthOk} :
      Goes cfg c (.gate c rateOk depthOk) (.ingress req .start)
        (.ingress req (.gate req rateOk depthOk)) none
  | published {t job} (hjob : t.publishing = some job) :
      Goes cfg c (.publish c true true) t t.onPublished (some job)
  | publishLost {t job} (hjob : t.publishing = some job) :
      Goes cfg c (.publish c true false) t t.onThrow (some job)
  | publishFailed {t job acknowledged} (hjob : t.publishing = some job) :
      Goes cfg c (.publish c false acknowledged) t t.onThrow none
  | chaosPassed {d} :
      Goes cfg c (.chaos c none) (.worker d .chaosGate) (.worker d (WorkerPc.parse d.job)) none
  | chaosFailed {d mode answer} (hanswer : answer.status = 500) :
      Goes cfg c (.chaos c (some mode)) (.worker d .chaosGate) (.worker d (.respond answer)) none

/-- The broker's messages after it has taken `job`. Source: none: infrastructure. Kind: D -/
def enqueued (s : Sys) : Option AllocateJobPayload → Sys
  | none => s
  | some job => s.enqueue job

/-- `Stepped cfg s a s'`: what the action `a` makes of `s`. Source: none: infrastructure (the
branches of `Sys.step`). Kind: D -/
inductive Stepped (cfg : Config) (s : Sys) : Action → Sys → Prop
  | store {a σ} (ha : ∀ call client, a ≠ .begin call client) (hstore : s.store.step a = some σ) :
      Stepped cfg s (.store a) { s with store := σ }
  | start {a t} (ht : Starts s a t) : Stepped cfg s a (s.spawn t)
  | issue {c cl call left} (hcl : s.running c = some cl) (hcall : cl.task.call cfg = some call)
      (hleft : cl.phase.left = left + 1) :
      Stepped cfg s (.issue c)
        { s.setClient c ⟨cl.task, .waiting s.store.execs.length left⟩ with
          store := s.store.begin call c }
  | again {c t i left e code} (hcl : s.clients[c]? = some ⟨t, .waiting i (left + 1)⟩)
      (he : s.store.execs[i]? = some e) (hpc : e.pc = .done (.paymentError code)) :
      Stepped cfg s (.receive c) (s.setClient c ⟨t, .ready (left + 1)⟩)
  | receive {c t i left e r t'} (hcl : s.clients[c]? = some ⟨t, .waiting i left⟩)
      (he : s.store.execs[i]? = some e) (hpc : e.pc = .done r)
      (ht : t.onReply cfg s.store.now r = some t') (hlast : ∀ code, r = .paymentError code → left = 0) :
      Stepped cfg s (.receive c) (s.setClient c (.arrive t'))
  | go {a c cl t' job} (hcl : s.running c = some cl) (hgoes : Goes cfg c a cl.task t' job) :
      Stepped cfg s a ((s.enqueued job).setClient c (.arrive t'))
  | refund {c d p phase} (hcl : s.running c = some ⟨.worker d (.refund p), phase⟩) :
      Stepped cfg s (.refund c)
        { s.setClient c (.arrive (.worker d .commitExpired)) with refunds := s.refunds ++ [p] }
  | answer {c cl st} (hcl : s.running c = some cl) (hst : cl.task.status = some st) :
      Stepped cfg s (.answer c) ((s.setClient c ⟨cl.task, .answered⟩).settle cl.task (some st))
  | crash {c cl} (hcl : s.running c = some cl) :
      Stepped cfg s (.crash c) ((s.setClient c ⟨cl.task, .crashed⟩).settle cl.task none)

section inversion

variable {cfg : Config} {s s' : Sys} {a : Action} {c : ℕ}

/-- The handler that runs. Source: none: infrastructure. Kind: L -/
theorem running_eq_some {cl : Client} :
    s.running c = some cl ↔ s.clients[c]? = some cl ∧ cl.phase.live = true := by
  simp [running, Option.filter_eq_some_iff]

/-- Inversion of a reply. Source: none: infrastructure. Kind: L -/
theorem stepped_of_receive (h : s.receive cfg c = some s') : Stepped cfg s (.receive c) s' := by
  unfold receive at h
  split at h
  · rename_i t i left hcl
    split at h
    · rename_i call client now r he
      split at h
      · cases h
        exact .again hcl he rfl
      · rename_i hone
        obtain ⟨t', ht, rfl⟩ := Option.map_eq_some_iff.mp h
        refine .receive hcl he rfl ht fun code hr => ?_
        cases left with
        | zero => rfl
        | succ n => exact absurd rfl (hone code n hr)
    · cases h
  · cases h

/-- Inversion of a publication. Source: none: infrastructure. Kind: L -/
theorem stepped_of_publish {accepted acknowledged : Bool}
    (h : s.publish c accepted acknowledged = some s') :
    Stepped cfg s (.publish c accepted acknowledged) s' := by
  unfold publish at h
  split at h
  · rename_i cl hcl
    obtain ⟨job, hjob, rfl⟩ := Option.map_eq_some_iff.mp h
    cases accepted with
    | true =>
      cases acknowledged with
      | true => exact .go hcl (.published hjob)
      | false => exact .go hcl (.publishLost hjob)
    | false => exact .go hcl (.publishFailed hjob)
  · cases h

/-- **Inversion of a step of the pipeline.** Source: none: infrastructure. Kind: L -/
theorem step_cases (h : s.step cfg a = some s') : Stepped cfg s a s' := by
  cases a with
  | store a =>
    cases a with
    | begin call client => cases h
    | tick d =>
      cases h
      exact .store (by simp) rfl
    | start | exec | commit | abort =>
      obtain ⟨σ, hσ, rfl⟩ := Option.map_eq_some_iff.mp h
      exact .store (by simp) hσ
  | post req =>
    cases h
    exact .start .post
  | deliver m retried =>
    obtain ⟨msg, hmsg, rfl⟩ := Option.map_eq_some_iff.mp h
    exact .start (.deliver hmsg)
  | failureCallback m =>
    obtain ⟨cb, hcb, rfl⟩ := Option.map_eq_some_iff.mp h
    obtain ⟨msg, hmsg, hcb⟩ := Option.bind_eq_some_iff.mp hcb
    exact .start (.failureCallback hmsg hcb)
  | retryDlq id =>
    cases h
    exact .start .retryDlq
  | sweep =>
    cases h
    exact .start .sweep
  | issue c =>
    simp only [step, issue] at h
    split at h
    · rename_i cl hcl
      split at h
      · rename_i call left hcall hleft
        cases h
        exact .issue hcl hcall hleft
      · cases h
    · cases h
  | receive c => exact stepped_of_receive h
  | throw c =>
    simp only [step, throw] at h
    split at h
    · rename_i cl hcl
      split at h
      · rename_i hcall
        cases h
        obtain ⟨call, hcall⟩ := Option.isSome_iff_exists.mp hcall
        exact .go hcl (.throw hcall)
      · cases h
    · cases h
  | gate c rateOk depthOk =>
    simp only [step, gate] at h
    split at h
    · rename_i req phase hcl
      cases h
      exact .go hcl .gate
    · cases h
  | publish c accepted acknowledged => exact stepped_of_publish h
  | chaos c mode =>
    simp only [step, chaos] at h
    split at h
    · rename_i d phase hcl
      cases h
      cases mode with
      | none => exact .go hcl .chaosPassed
      | some m => exact .go hcl (.chaosFailed rfl)
    · cases h
  | refund c =>
    simp only [step, refund] at h
    split at h
    · rename_i d p phase hcl
      cases h
      exact .refund hcl
    · cases h
  | answer c =>
    simp only [step, answer] at h
    split at h
    · rename_i cl hcl
      obtain ⟨st, hst, rfl⟩ := Option.map_eq_some_iff.mp h
      exact .answer hcl hst
    · cases h
  | crash c =>
    simp only [step, crash] at h
    split at h
    · rename_i cl hcl
      cases h
      exact .crash hcl
    · cases h

end inversion

/-! ## One handler at a time -/

/-- The handler an action moves. Source: none: infrastructure. Kind: D -/
def Action.client : Action → Option ℕ
  | issue c | receive c | throw c | gate c .. | publish c .. | chaos c _ | refund c | answer c
  | crash c => some c
  | _ => none

/-- `Moves cfg s c a cl cl'`: what the action `a` makes of handler `c`, which is `cl`.
Source: none: infrastructure. Kind: D -/
inductive Moves (cfg : Config) (s : Sys) (c : ℕ) : Action → Client → Client → Prop
  | issue {cl call left} (hlive : cl.phase.live = true) (hcall : cl.task.call cfg = some call)
      (hleft : cl.phase.left = left + 1) :
      Moves cfg s c (.issue c) cl ⟨cl.task, .waiting s.store.execs.length left⟩
  | again {t i left e code} (he : s.store.execs[i]? = some e)
      (hpc : e.pc = .done (.paymentError code)) :
      Moves cfg s c (.receive c) ⟨t, .waiting i (left + 1)⟩ ⟨t, .ready (left + 1)⟩
  | receive {t i left e r t'} (he : s.store.execs[i]? = some e) (hpc : e.pc = .done r)
      (ht : t.onReply cfg s.store.now r = some t') (hlast : ∀ code, r = .paymentError code → left = 0) :
      Moves cfg s c (.receive c) ⟨t, .waiting i left⟩ (.arrive t')
  | go {a cl t' job} (hlive : cl.phase.live = true) (hgoes : Goes cfg c a cl.task t' job) :
      Moves cfg s c a cl (.arrive t')
  | refund {d p phase} (hlive : phase.live = true) :
      Moves cfg s c (.refund c) ⟨.worker d (.refund p), phase⟩ (.arrive (.worker d .commitExpired))
  | answer {cl st} (hlive : cl.phase.live = true) (hst : cl.task.status = some st) :
      Moves cfg s c (.answer c) cl ⟨cl.task, .answered⟩
  | crash {cl} (hlive : cl.phase.live = true) : Moves cfg s c (.crash c) cl ⟨cl.task, .crashed⟩

section clients

variable {cfg : Config} {s s' : Sys} {a : Action} {c : ℕ} {cl cl' : Client}

/-- The handlers after one has changed. Source: none: infrastructure. Kind: L -/
theorem setClient_cases {n : ℕ} {new : Client} (hold : s.clients[n]? = some cl)
    (h : (s.setClient n new).clients[c]? = some cl') :
    (c = n ∧ cl' = new) ∨ (c ≠ n ∧ s.clients[c]? = some cl') := by
  obtain ⟨hlt, -⟩ := List.getElem?_eq_some_iff.mp hold
  simp only [setClient, List.getElem?_set, hlt, if_true] at h
  split at h
  · rename_i heq
    cases h
    exact .inl ⟨heq.symm, rfl⟩
  · rename_i hne
    exact .inr ⟨fun heq => hne heq.symm, h⟩

@[simp] theorem settle_clients (s : Sys) (t : Task) (st : Option ℕ) :
    (s.settle t st).clients = s.clients := by
  unfold settle
  split <;> (try split) <;> rfl

@[simp] theorem settle_store (s : Sys) (t : Task) (st : Option ℕ) :
    (s.settle t st).store = s.store := by
  unfold settle
  split <;> (try split) <;> rfl

@[simp] theorem settle_refunds (s : Sys) (t : Task) (st : Option ℕ) :
    (s.settle t st).refunds = s.refunds := by
  unfold settle
  split <;> (try split) <;> rfl

@[simp] theorem enqueued_clients (s : Sys) (job : Option AllocateJobPayload) :
    (s.enqueued job).clients = s.clients := by cases job <;> rfl

@[simp] theorem enqueued_store (s : Sys) (job : Option AllocateJobPayload) :
    (s.enqueued job).store = s.store := by cases job <;> rfl

@[simp] theorem enqueued_refunds (s : Sys) (job : Option AllocateJobPayload) :
    (s.enqueued job).refunds = s.refunds := by cases job <;> rfl

/-- A step of a handler names it. Source: none: infrastructure. Kind: L -/
theorem Goes.client {t t' : Task} {job : Option AllocateJobPayload} (h : Goes cfg c a t t' job) :
    a.client = some c := by
  cases h <;> rfl

/-- No call is sent. Source: none: infrastructure. Kind: L -/
theorem Goes.ne_issue {t t' : Task} {job : Option AllocateJobPayload} (h : Goes cfg c a t t' job)
    (c' : ℕ) : a ≠ .issue c' := by
  cases h <;> simp

/-- No refund is made. Source: none: infrastructure. Kind: L -/
theorem Goes.ne_refund {t t' : Task} {job : Option AllocateJobPayload} (h : Goes cfg c a t t' job)
    (c' : ℕ) : a ≠ .refund c' := by
  cases h <;> simp

/-- The broker takes what the handler is about to publish. Source: none: infrastructure. Kind: L -/
theorem Goes.publishing {t t' : Task} {job : AllocateJobPayload}
    (h : Goes cfg c a t t' (some job)) : t.publishing = some job := by
  cases h <;> assumption

/-- **A handler after a step** is a new one, the one that moved, or as it was.
Source: none: infrastructure. Kind: L -/
theorem Stepped.client_cases (hs : Stepped cfg s a s') (h : s'.clients[c]? = some cl') :
    (∃ cl, s.clients[c]? = some cl ∧ (cl' = cl ∧ a.client ≠ some c ∨ Moves cfg s c a cl cl')) ∨
    (c = s.clients.length ∧ ∃ t, Starts s a t ∧ cl' = .arrive t) := by
  have hset : ∀ {n cl₀ new}, s.clients[n]? = some cl₀ → (s.clients.set n new)[c]? = some cl' →
      a.client = some n → Moves cfg s n a cl₀ new →
      ∃ cl, s.clients[c]? = some cl ∧ (cl' = cl ∧ a.client ≠ some c ∨ Moves cfg s c a cl cl') := by
    intro n cl₀ new hold h ha hm
    rcases setClient_cases hold h with ⟨rfl, rfl⟩ | ⟨hne, hsame⟩
    · exact ⟨cl₀, hold, .inr hm⟩
    · exact ⟨cl', hsame, .inl ⟨rfl, by rw [ha]; simpa using Ne.symm hne⟩⟩
  cases hs with
  | store => exact .inl ⟨cl', h, .inl ⟨rfl, by simp [Action.client]⟩⟩
  | @start a t ht =>
    simp only [spawn, List.getElem?_append] at h
    split at h
    · exact .inl ⟨cl', h, .inl ⟨rfl, by cases ht <;> simp [Action.client]⟩⟩
    · rename_i hlt
      simp only [List.getElem?_singleton] at h
      split at h
      · cases h
        exact .inr ⟨by omega, t, ht, rfl⟩
      · cases h
  | issue hcl hcall hleft =>
    obtain ⟨hcl, hlive⟩ := running_eq_some.mp hcl
    exact .inl (hset hcl h rfl (.issue hlive hcall hleft))
  | again hcl he hpc => exact .inl (hset hcl h rfl (.again he hpc))
  | receive hcl he hpc ht hlast => exact .inl (hset hcl h rfl (.receive he hpc ht hlast))
  | go hcl hgoes =>
    obtain ⟨hcl, hlive⟩ := running_eq_some.mp hcl
    simp only [setClient, enqueued_clients] at h
    exact .inl (hset hcl h hgoes.client (.go hlive hgoes))
  | refund hcl =>
    obtain ⟨hcl, hlive⟩ := running_eq_some.mp hcl
    exact .inl (hset hcl h rfl (.refund hlive))
  | answer hcl hst =>
    obtain ⟨hcl, hlive⟩ := running_eq_some.mp hcl
    rw [settle_clients] at h
    exact .inl (hset hcl h rfl (.answer hlive hst))
  | crash hcl =>
    obtain ⟨hcl, hlive⟩ := running_eq_some.mp hcl
    rw [settle_clients] at h
    exact .inl (hset hcl h rfl (.crash hlive))

/-- Only handlers that run move. Source: none: infrastructure. Kind: L -/
theorem Moves.live (h : Moves cfg s c a cl cl') : cl.phase.live = true := by
  cases h with
  | again | receive => rfl
  | issue hlive | go hlive | refund hlive | answer hlive | crash hlive => exact hlive

/-- No step removes a handler. Source: none: infrastructure. Kind: L -/
theorem Stepped.clients_length (hs : Stepped cfg s a s') :
    s.clients.length ≤ s'.clients.length := by
  cases hs <;> simp [setClient, spawn]

/-- **A handler before a step** stays as it is or moves. Source: none: infrastructure. Kind: L -/
theorem Stepped.client_next (hs : Stepped cfg s a s') (hcl : s.clients[c]? = some cl) :
    ∃ cl', s'.clients[c]? = some cl' ∧ (cl' = cl ∧ a.client ≠ some c ∨ Moves cfg s c a cl cl') := by
  obtain ⟨hlt, -⟩ := List.getElem?_eq_some_iff.mp hcl
  obtain ⟨cl', hcl'⟩ : ∃ cl', s'.clients[c]? = some cl' :=
    ⟨_, List.getElem?_eq_getElem (hlt.trans_le hs.clients_length)⟩
  rcases hs.client_cases hcl' with ⟨cl₀, hcl₀, hcase⟩ | ⟨hc, -⟩
  · obtain rfl := Option.eq_some_unique hcl hcl₀
    exact ⟨cl', hcl', hcase⟩
  · exact absurd hc hlt.ne

/-- Whoever moves takes the step. Source: none: infrastructure. Kind: L -/
theorem Moves.client (h : Moves cfg s c a cl cl') : a.client = some c := by
  cases h with
  | go _ hgoes => exact hgoes.client
  | _ => rfl

/-- A handler that does not move stays as it is. Source: none: infrastructure. Kind: L -/
theorem Stepped.client_of_ne (hs : Stepped cfg s a s') (hcl : s.clients[c]? = some cl)
    (ha : a.client ≠ some c) : s'.clients[c]? = some cl := by
  obtain ⟨cl', hcl', ⟨rfl, -⟩ | hm⟩ := hs.client_next hcl
  · exact hcl'
  · exact absurd hm.client ha

/-- **What every handler carries** after a step: what it carried before, and what it carries when it
starts, takes a reply or goes on without one. Source: none: infrastructure. Kind: L -/
theorem Stepped.forall_clients {P : Sys → ℕ → Task → Prop} (hs : Stepped cfg s a s')
    (hP : ∀ (c : ℕ) (cl : Client), s.clients[c]? = some cl → P s c cl.task)
    (hkeep : ∀ (c : ℕ) t, P s c t → P s' c t) (hstart : ∀ (c : ℕ) t, Starts s a t → P s' c t)
    (hreply : ∀ (c i left : ℕ) t (e : Exec) r t', s.clients[c]? = some ⟨t, .waiting i left⟩ →
      s.store.execs[i]? = some e → e.pc = .done r → t.onReply cfg s.store.now r = some t' →
      P s c t → P s' c t')
    (hgoes : ∀ (c : ℕ) (cl : Client) t' job, s.running c = some cl →
      Goes cfg c a cl.task t' job → P s c cl.task → P s' c t')
    (hrefund : ∀ (c : ℕ) d p, P s c (.worker d (.refund p)) → P s' c (.worker d .commitExpired)) :
    ∀ (c : ℕ) (cl : Client), s'.clients[c]? = some cl → P s' c cl.task := by
  intro c cl' hcl'
  rcases hs.client_cases hcl' with ⟨cl, hcl, ⟨rfl, -⟩ | hm⟩ | ⟨-, t, ht, rfl⟩
  · exact hkeep _ _ (hP c _ hcl)
  · have hcarried := hP c cl hcl
    cases hm with
    | issue | again | answer | crash => exact hkeep _ _ hcarried
    | receive he hpc ht => exact hreply _ _ _ _ _ _ _ hcl he hpc ht hcarried
    | go hlive hgo => exact hgoes _ _ _ _ (running_eq_some.mpr ⟨hcl, hlive⟩) hgo hcarried
    | refund => exact hrefund _ _ _ hcarried
  · exact hstart c t ht

/-- The same for what does not depend on who the handler is. Source: none: infrastructure. Kind: L -/
theorem Stepped.forall_tasks {P : Sys → Task → Prop} (hs : Stepped cfg s a s')
    (hP : ∀ (c : ℕ) (cl : Client), s.clients[c]? = some cl → P s cl.task)
    (hkeep : ∀ t, P s t → P s' t) (hstart : ∀ t, Starts s a t → P s' t)
    (hreply : ∀ (c i left : ℕ) t (e : Exec) r t', s.clients[c]? = some ⟨t, .waiting i left⟩ →
      s.store.execs[i]? = some e → e.pc = .done r → t.onReply cfg s.store.now r = some t' →
      P s t → P s' t')
    (hgoes : ∀ (c : ℕ) (cl : Client) t' job, s.running c = some cl →
      Goes cfg c a cl.task t' job → P s cl.task → P s' t')
    (hrefund : ∀ d p, P s (.worker d (.refund p)) → P s' (.worker d .commitExpired)) :
    ∀ (c : ℕ) (cl : Client), s'.clients[c]? = some cl → P s' cl.task :=
  hs.forall_clients (P := fun s _ => P s) hP (fun _ => hkeep) (fun _ => hstart) hreply hgoes
    fun _ => hrefund

end clients

/-! ## The store in the pipeline -/

section projection

variable {cfg : Config} {s s' : Sys} {a : Action}

/-- **The store in a step of the pipeline** stays as it is, takes a step of its own, or takes the call
a handler awaits. Source: none: infrastructure. Kind: L -/
theorem Stepped.store_cases (hs : Stepped cfg s a s') :
    s'.store = s.store ∨ ∃ b, s.store.step b = some s'.store ∧
      ((a = .store b ∧ ∀ call client, b ≠ .begin call client) ∨
        ∃ c cl call, a = .issue c ∧ b = .begin call c ∧ s.running c = some cl ∧
          cl.task.call cfg = some call) := by
  cases hs with
  | store ha hstore => exact .inr ⟨_, hstore, .inl ⟨rfl, ha⟩⟩
  | issue hcl hcall => exact .inr ⟨_, rfl, .inr ⟨_, _, _, rfl, rfl, hcl, hcall⟩⟩
  | go => exact .inl (enqueued_store _ _)
  | answer | crash => exact .inl (settle_store _ _ _)
  | _ => exact .inl rfl

/-- A step of the store in the pipeline. Source: none: infrastructure. Kind: L -/
theorem Stepped.store_step {x : Store.Action} (hs : Stepped cfg s (.store x) s') :
    s.store.step x = some s'.store := by
  generalize ha : Action.store x = a at hs
  cases hs with
  | store _ hstore =>
    cases ha
    exact hstore
  | start ht => cases ht <;> cases ha
  | go _ hgoes =>
    have hclient := hgoes.client
    rw [← ha] at hclient
    cases hclient
  | _ => cases ha

/-- A step of a handler other than the sending of a call leaves the store.
Source: none: infrastructure. Kind: L -/
theorem Stepped.store_of_client {c : ℕ} (hs : Stepped cfg s a s') (ha : a.client = some c)
    (hno : a ≠ .issue c) : s'.store = s.store := by
  rcases hs.store_cases with heq | ⟨b, -, ⟨rfl, -⟩ | ⟨c', cl, call, rfl, -⟩⟩
  · exact heq
  · cases ha
  · cases ha
    exact absurd rfl hno

/-- **What every call says** after a step, of itself and of who sent it: what it said before, and what a
handler that sends it knows. Source: none: infrastructure. Kind: L -/
theorem Stepped.forall_sent {P : Sys → ℕ → Call → Prop} (hs : Stepped cfg s a s')
    (hP : ∀ (i : ℕ) (e : Exec), s.store.execs[i]? = some e → P s e.client e.call)
    (hkeep : ∀ (c : ℕ) call, P s c call → P s' c call)
    (hsend : ∀ (c : ℕ) (cl : Client) call, s.clients[c]? = some cl → cl.task.call cfg = some call →
      P s c call) :
    ∀ (i : ℕ) (e : Exec), s'.store.execs[i]? = some e → P s' e.client e.call := by
  intro i e' he'
  rcases hs.store_cases with heq | ⟨b, hb, hcause⟩
  · rw [heq] at he'
    exact hkeep _ _ (hP i e' he')
  · have hstep := Store.step_cases hb
    rcases hstep.exec_new he' with ⟨e, he⟩ | ⟨call, client, rfl, -, rfl⟩
    · obtain ⟨e₁, he₁, hcall, hclient, -⟩ := hstep.exec_old he
      obtain rfl := Option.eq_some_unique he' he₁
      rw [hcall, hclient]
      exact hkeep _ _ (hP i e he)
    · rcases hcause with ⟨-, hno⟩ | ⟨c, cl, call', -, heq, hcl, hcall⟩
      · exact absurd rfl (hno call client)
      · cases heq
        exact hkeep _ _ (hsend client cl call (running_eq_some.mp hcl).1 hcall)

/-- The same for what does not depend on who sent the call. Source: none: infrastructure. Kind: L -/
theorem Stepped.forall_calls {P : Sys → Call → Prop} (hs : Stepped cfg s a s')
    (hP : ∀ (i : ℕ) (e : Exec), s.store.execs[i]? = some e → P s e.call)
    (hkeep : ∀ call, P s call → P s' call)
    (hsend : ∀ (c : ℕ) (cl : Client) call, s.clients[c]? = some cl → cl.task.call cfg = some call →
      P s call) :
    ∀ (i : ℕ) (e : Exec), s'.store.execs[i]? = some e → P s' e.call :=
  hs.forall_sent (P := fun s _ => P s) hP (fun _ => hkeep) hsend

/-- A condition on the steps of the store, for steps of the pipeline. Source: none: infrastructure.
Kind: D -/
def OnStore (C : Store → Store.Action → Prop) (s : Sys) : Action → Prop
  | .store b => C s.store b
  | _ => True

instance (C : Store → Store.Action → Prop) [∀ σ b, Decidable (C σ b)] (s : Sys) (a : Action) :
    Decidable (OnStore C s a) :=
  match a with
  | .store b => inferInstanceAs (Decidable (C s.store b))
  | .post _ | .deliver .. | .failureCallback _ | .retryDlq _ | .sweep | .issue _ | .receive _
  | .throw _ | .gate .. | .publish .. | .chaos .. | .refund _ | .answer _ | .crash _ =>
    .isTrue trivial

/-- **The store of the pipeline is a store**: a run of the pipeline is a run of its store, and meets a
condition on the store's steps that says nothing of calls being sent. Source: none: infrastructure.
Kind: L -/
theorem reach_store {C : Store → Store.Action → Prop} (hbegin : ∀ σ call c, C σ (.begin call c))
    (h : Reach (step cfg) Initial (OnStore C) s) : Reach Store.step Store.Initial C s.store := by
  refine h.simulate store (fun _ h => h.store_initial) fun s a s' _ hC hstep => ?_
  rcases (step_cases hstep).store_cases with heq | ⟨b, hb, ⟨rfl, -⟩ | ⟨c, cl, call, -, rfl, -⟩⟩
  · exact .inl heq
  · exact .inr ⟨b, hC, hb⟩
  · exact .inr ⟨_, hbegin _ _ _, hb⟩

end projection

/-! ## Messages -/

/-- The state of message `m` when handler `t` ends with `status`. Source: `infra/qstash/publisher.ts`
(`retries: 3`, `failureCallback`). Kind: D -/
def settled (t : Task) (status : Option ℕ) (m : MessageId) (st : MessageState) : MessageState :=
  match t with
  | .worker d _ => if d.message = m then st.onAnswer d.retried status else st
  | .webhook cb _ => if cb.sourceMessageId = m ∧ status = some 200 then st.close else st
  | _ => st

/-- Handler `t` ends, with an answer or without. Source: none: infrastructure. Kind: D -/
inductive Ends (s : Sys) : Action → Task → Option ℕ → Prop
  | answer {c cl st} (hcl : s.running c = some cl) (hst : cl.task.status = some st) :
      Ends s (.answer c) cl.task (some st)
  | crash {c cl} (hcl : s.running c = some cl) : Ends s (.crash c) cl.task none

section messages

variable {cfg : Config} {s s' : Sys} {a : Action} {m : MessageId} {msg msg' : Message}

/-- A message after a handler has ended. Source: none: infrastructure. Kind: L -/
theorem settle_messages (s : Sys) (t : Task) (status : Option ℕ) (m : MessageId) :
    (s.settle t status).messages[m]? =
      (s.messages[m]?).map fun msg => { msg with state := settled t status m msg.state } := by
  cases t with
  | worker d pc =>
    simp only [settle, settled, List.getElem?_modify, Option.map_eq_map]
    congr 1
    funext msg
    split <;> rfl
  | webhook cb pc =>
    simp only [settle, settled]
    by_cases hst : status = some 200
    · simp only [hst, if_true, and_true, List.getElem?_modify, Option.map_eq_map]
      congr 1
      funext msg
      split <;> rfl
    · simp [hst]
  | _ => simp [settle, settled]

/-- A handler that ends leaves the number of messages. Source: none: infrastructure. Kind: L -/
theorem settle_length (s : Sys) (t : Task) (status : Option ℕ) :
    (s.settle t status).messages.length = s.messages.length := by
  unfold settle
  split <;> (try split) <;> simp

/-- **A message after a step** was there before, with the state a handler that ends gives it, or is
one a handler has just published. Source: none: infrastructure. Kind: L -/
theorem Stepped.message_cases (hs : Stepped cfg s a s') (h : s'.messages[m]? = some msg') :
    (∃ msg, s.messages[m]? = some msg ∧ msg'.payload = msg.payload ∧
      (msg'.state = msg.state ∨
        ∃ t status, Ends s a t status ∧ msg'.state = settled t status m msg.state)) ∨
    ∃ c cl job, s.running c = some cl ∧ cl.task.publishing = some job ∧ msg' = ⟨job, .active 0⟩ := by
  cases hs with
  | @go _ c cl t' job hcl hgoes =>
    cases job with
    | none => exact .inl ⟨msg', h, rfl, .inl rfl⟩
    | some job =>
      simp only [enqueued, enqueue, setClient, List.getElem?_append] at h
      split at h
      · exact .inl ⟨msg', h, rfl, .inl rfl⟩
      · simp only [List.getElem?_singleton] at h
        split at h
        · cases h
          exact .inr ⟨c, cl, job, hcl, hgoes.publishing, rfl⟩
        · cases h
  | answer hcl hst =>
    rw [settle_messages] at h
    obtain ⟨msg, hmsg, rfl⟩ := Option.map_eq_some_iff.mp h
    exact .inl ⟨msg, hmsg, rfl, .inr ⟨_, _, .answer hcl hst, rfl⟩⟩
  | crash hcl =>
    rw [settle_messages] at h
    obtain ⟨msg, hmsg, rfl⟩ := Option.map_eq_some_iff.mp h
    exact .inl ⟨msg, hmsg, rfl, .inr ⟨_, _, .crash hcl, rfl⟩⟩
  | _ => exact .inl ⟨msg', h, rfl, .inl rfl⟩

/-- No step removes a message or changes its payload. Source: none: infrastructure. Kind: L -/
theorem Stepped.message_stays (hs : Stepped cfg s a s') (h : s.messages[m]? = some msg) :
    ∃ msg', s'.messages[m]? = some msg' ∧ msg'.payload = msg.payload := by
  cases hs with
  | @go _ c cl t' job hcl hgoes =>
    cases job with
    | none => exact ⟨msg, h, rfl⟩
    | some job =>
      obtain ⟨hlt, -⟩ := List.getElem?_eq_some_iff.mp h
      exact ⟨msg, by simp [enqueued, enqueue, setClient, List.getElem?_append_left hlt, h], rfl⟩
  | answer | crash =>
    refine ⟨_, (settle_messages _ _ _ _).trans (congrArg _ h), rfl⟩
  | _ => exact ⟨msg, h, rfl⟩

/-- Refunds are never taken back. Source: none: infrastructure. Kind: L -/
theorem Stepped.refund_cases (hs : Stepped cfg s a s') :
    s'.refunds = s.refunds ∨ ∃ c d p phase, a = .refund c ∧
      s.running c = some ⟨.worker d (.refund p), phase⟩ ∧ s'.refunds = s.refunds ++ [p] := by
  cases hs with
  | refund hcl => exact .inr ⟨_, _, _, _, rfl, hcl, rfl⟩
  | go => exact .inl (enqueued_refunds _ _)
  | answer | crash => exact .inl (settle_refunds _ _ _)
  | _ => exact .inl rfl

end messages

end Sys

end TrainsAndTracks
