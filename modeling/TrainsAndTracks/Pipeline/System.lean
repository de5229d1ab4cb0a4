import TrainsAndTracks.Pipeline.Routes
import TrainsAndTracks.Store.Machine

/-!
# The pipeline

The store, the running handlers (`Client`) and the broker's messages in one system, with every
interleaving of their steps. A handler waits for one execution at a time and may stop waiting
(`pgPolicy` and `paymentPolicy` cut the promise, not the statement); what it left behind goes on in
the store.

* `Sys.step` — one step: of the store, of the broker (a delivery, a failure callback), of an operator
  or the schedule, or of one handler.
* The broker is free here: it delivers any published message at any time, any number of times.
  `Sys.Disciplined` is what its documentation promises, as a condition on single steps.
* `Sys.refunds` — the calls of `refund`, which writes nothing.
* `Sys.Quiescent` — nothing runs and nothing is in flight.
-/

namespace TrainsAndTracks

open Found

/-! ## Handlers -/

/-- A running handler: which route, its request and the `await` it has reached.
Source: the routes of `app/api`. Kind: D -/
inductive Task
  | ingress (req : PostRequest) (pc : IngressPc)
  | worker (d : Delivery) (pc : WorkerPc)
  | webhook (cb : FailureCallback) (pc : WebhookPc)
  | dlqRetry (id : ℕ) (pc : DlqRetryPc)
  | sweeper (pc : SweeperPc)
  deriving DecidableEq, Repr

namespace Task

/-- The call a handler awaits. Source: the routes of `app/api`. Kind: D. Fidelity: exact -/
def call (cfg : Config) : Task → Option Call
  | ingress req pc => pc.call cfg req
  | worker d pc => pc.call cfg.holdDurationSec d.job
  | webhook cb pc => pc.call cb
  | dlqRetry id pc => pc.call id
  | sweeper pc => pc.call

/-- How often a handler may execute the call it awaits. Source: `lib/resilience/pg-policy.ts`,
`lib/resilience/payment-policy.ts`. Kind: D. Fidelity: exact -/
def attempts : Task → ℕ
  | worker _ pc => pc.attempts
  | webhook _ pc => pc.attempts
  | sweeper _ => 3
  | _ => 1

/-- The handler after a reply. Source: the routes of `app/api`. Kind: D. Fidelity: exact -/
def onReply (cfg : Config) (now : Time) : Task → Reply → Option Task
  | ingress req pc, r => (pc.onReply cfg r).map (ingress req)
  | worker d pc, r => (pc.onReply d.retried d.job now r).map (worker d)
  | webhook cb pc, r => (pc.onReply cb r).map (webhook cb)
  | dlqRetry id pc, r => (pc.onReply r).map (dlqRetry id)
  | sweeper pc, r => (pc.onReply r).map sweeper

/-- The handler after an exception. Source: the routes of `app/api`. Kind: D. Fidelity: exact -/
def onThrow : Task → Task
  | ingress req pc => ingress req pc.onThrow
  | worker d pc => worker d (pc.onThrow d.retried)
  | webhook cb pc => webhook cb pc.onThrow
  | dlqRetry id pc => dlqRetry id pc.onThrow
  | sweeper _ => sweeper (.respond 500)

/-- The message a handler is about to publish. Source: `infra/qstash/publisher.ts`
`publishAllocateJob` (call sites). Kind: D. Fidelity: exact -/
def publishing : Task → Option AllocateJobPayload
  | ingress _ (.publish job) => some job
  | dlqRetry _ (.publish job) => some job
  | _ => none

/-- The handler once the message is published. Source: `app/api/book/route.ts`,
`app/api/admin/dlq/[id]/retry/route.ts`. Kind: D. Fidelity: exact -/
def onPublished : Task → Task
  | ingress req (.publish job) => ingress req (.commitAccepted job)
  | dlqRetry id (.publish _) => dlqRetry id .mark
  | t => t

/-- The HTTP status of a handler that has finished. Source: the routes of `app/api`. Kind: D.
Fidelity: exact -/
def status : Task → Option ℕ
  | ingress _ (.respond r) => some r.status
  | worker _ (.respond r) => some r.status
  | webhook _ (.respond st) => some st
  | dlqRetry _ (.respond st) => some st
  | sweeper (.respond st) => some st
  | _ => none

end Task

/-- Where a handler stands with its current call: it may send it `left` more times, it waits for
an execution, or it has ended. Source: `lib/resilience/pg-policy.ts` (one promise at a time).
Kind: D -/
inductive Phase
  | ready (left : ℕ)
  | waiting (exec left : ℕ)
  | answered
  | crashed
  deriving DecidableEq, Repr

namespace Phase

/-- The attempts left, for a handler that runs. Source: none: infrastructure. Kind: D -/
def left : Phase → ℕ
  | ready n => n
  | waiting _ n => n
  | _ => 0

/-- The handler runs. Source: none: infrastructure. Kind: D -/
def live : Phase → Bool
  | ready _ => true
  | waiting .. => true
  | _ => false

end Phase

/-- A handler with its phase. Source: none: infrastructure. Kind: D -/
structure Client where
  task : Task
  phase : Phase
  deriving DecidableEq, Repr

/-- A handler that has just reached an `await`. Source: none: infrastructure. Kind: D -/
def Client.arrive (t : Task) : Client := ⟨t, .ready t.attempts⟩

/-! ## Messages -/

/-- A message at the broker: being delivered after `retried` failures, acknowledged, given up with
the last status (its failure callback is due), or given up with the callback answered.
Source: `infra/qstash/publisher.ts` (`retries: 3`, `failureCallback`). Kind: D -/
inductive MessageState
  | active (retried : ℕ)
  | acked
  | failing (status : Option ℕ) (retried : ℕ)
  | closed (status : Option ℕ) (retried : ℕ)
  deriving DecidableEq, Repr

/-- A published message. Source: `infra/qstash/publisher.ts` `publishAllocateJob`. Kind: D -/
structure Message where
  payload : AllocateJobPayload
  state : MessageState
  deriving DecidableEq, Repr

/-- The broker learns how a delivery ended (`none`: without an answer). A 2xx acknowledges, a 489
gives up at once, anything else is redelivered while retries are left.
Source: `infra/qstash/publisher.ts` (`retries: 3`), `app/api/worker/allocate/route.ts` (answers).
Kind: D. Fidelity: the documented behaviour of the broker -/
def MessageState.onAnswer (retried : ℕ) (status : Option ℕ) : MessageState → MessageState
  | active n =>
    if status = some 200 then acked
    else if status = some 489 then failing status n
    else if retried < n then active n
    else if n < 3 then active (n + 1)
    else failing status n
  | st => st

/-- The broker learns that the failure callback was answered. Source: `infra/qstash/publisher.ts`
(`failureCallback`). Kind: D. Fidelity: the documented behaviour of the broker -/
def MessageState.close : MessageState → MessageState
  | failing status retried => closed status retried
  | st => st

/-- The failure callback of a message that was given up. Source:
`app/api/webhooks/qstash-failure/route.ts` (`QStashFailureBody`, header comment). Kind: D.
Fidelity: exact -/
def Message.callback (id : MessageId) (m : Message) : Option FailureCallback :=
  match m.state with
  | .failing status retried | .closed status retried => some ⟨status, some retried, id, m.payload⟩
  | _ => none

/-! ## The system -/

/-- The state of the pipeline. A handler and a message are named by their positions.
Source: none: infrastructure. Kind: D -/
structure Sys where
  store : Store
  clients : List Client
  messages : List Message
  refunds : List PaymentId

namespace Sys

/-- A step of the pipeline. Source: none: infrastructure. Kind: D -/
inductive Action
  /-- A step of the store other than the sending of a call. -/
  | store (a : Store.Action)
  | post (req : PostRequest)
  | deliver (m : MessageId) (retried : ℕ)
  | failureCallback (m : MessageId)
  | retryDlq (id : ℕ)
  | sweep
  /-- Handler `c` sends the call it awaits, for the first time or again. -/
  | issue (c : ℕ)
  /-- Handler `c` receives the reply it waits for. -/
  | receive (c : ℕ)
  /-- The call handler `c` awaits throws: an error, a timeout, an open breaker. -/
  | throw (c : ℕ)
  | gate (c : ℕ) (rateOk depthOk : Bool)
  | publish (c : ℕ) (accepted acknowledged : Bool)
  | chaos (c : ℕ) (mode : Option String)
  | refund (c : ℕ)
  | answer (c : ℕ)
  | crash (c : ℕ)

/-- Handler `c` becomes `cl`. Source: none: infrastructure. Kind: D -/
def setClient (s : Sys) (c : ℕ) (cl : Client) : Sys := { s with clients := s.clients.set c cl }

/-- A new handler starts. Source: none: infrastructure. Kind: D -/
def spawn (s : Sys) (t : Task) : Sys := { s with clients := s.clients ++ [.arrive t] }

/-- Handler `c`, while it runs. Source: none: infrastructure. Kind: D -/
def running (s : Sys) (c : ℕ) : Option Client := (s.clients[c]?).filter (·.phase.live)

/-- The broker takes a message. Source: none: infrastructure. Kind: D -/
def enqueue (s : Sys) (job : AllocateJobPayload) : Sys :=
  { s with messages := s.messages ++ [⟨job, .active 0⟩] }

/-- The broker learns how handler `t` ended. Source: none: infrastructure. Kind: D -/
def settle (s : Sys) (t : Task) (status : Option ℕ) : Sys :=
  match t with
  | .worker d _ =>
    { s with messages :=
        s.messages.modify d.message fun m => { m with state := m.state.onAnswer d.retried status } }
  | .webhook cb _ =>
    if status = some 200 then
      { s with messages :=
          s.messages.modify cb.sourceMessageId fun m => { m with state := m.state.close } }
    else s
  | _ => s

/-- Handler `c` sends its call. Source: none: infrastructure. Kind: D -/
def issue (cfg : Config) (s : Sys) (c : ℕ) : Option Sys :=
  match s.running c with
  | some cl =>
    match cl.task.call cfg, cl.phase.left with
    | some call, n + 1 =>
      some { s.setClient c ⟨cl.task, .waiting s.store.execs.length n⟩ with
        store := s.store.begin call c }
    | _, _ => none
  | none => none

/-- Handler `c` receives the reply of the execution it waits for. A `PaymentError` is an exception
to the policy around `charge`, which executes it again while attempts are left.
Source: none: infrastructure. Kind: D -/
def receive (cfg : Config) (s : Sys) (c : ℕ) : Option Sys :=
  match s.clients[c]? with
  | some ⟨t, .waiting i left⟩ =>
    match s.store.execs[i]? with
    | some { pc := .done r, .. } =>
      match r, left with
      | .paymentError _, n + 1 => some (s.setClient c ⟨t, .ready (n + 1)⟩)
      | _, _ => (t.onReply cfg s.store.now r).map fun t' => s.setClient c (.arrive t')
    | _ => none
  | _ => none

/-- The call handler `c` awaits throws. Source: none: infrastructure. Kind: D -/
def throw (cfg : Config) (s : Sys) (c : ℕ) : Option Sys :=
  match s.running c with
  | some cl => if (cl.task.call cfg).isSome then some (s.setClient c (.arrive cl.task.onThrow)) else none
  | none => none

/-- Handler `c` goes through the gates of the ingress. Source: none: infrastructure. Kind: D -/
def gate (s : Sys) (c : ℕ) (rateOk depthOk : Bool) : Option Sys :=
  match s.running c with
  | some ⟨.ingress req .start, _⟩ =>
    some (s.setClient c (.arrive (.ingress req (.gate req rateOk depthOk))))
  | _ => none

/-- Handler `c` publishes its message; the broker may take it without the handler learning so.
Source: none: infrastructure. Kind: D -/
def publish (s : Sys) (c : ℕ) (accepted acknowledged : Bool) : Option Sys :=
  match s.running c with
  | some cl =>
    (cl.task.publishing).map fun job =>
      let s' := if accepted then s.enqueue job else s
      s'.setClient c (.arrive (if accepted && acknowledged then cl.task.onPublished else cl.task.onThrow))
  | none => none

/-- Handler `c` passes the chaos gate or is failed by it. Source:
`app/api/worker/allocate/route.ts` (step 0). Kind: D. Fidelity: exact -/
def chaos (s : Sys) (c : ℕ) (mode : Option String) : Option Sys :=
  match s.running c with
  | some ⟨.worker d .chaosGate, _⟩ =>
    some (s.setClient c (.arrive (.worker d (match mode with
      | none => WorkerPc.parse d.job
      | some m => .respond (.transientError "upstream_failure" s!"chaos_{m}")))))
  | _ => none

/-- Handler `c` calls `refund`. Source: `app/api/worker/allocate/route.ts` (step 7). Kind: D.
Fidelity: exact -/
def refund (s : Sys) (c : ℕ) : Option Sys :=
  match s.running c with
  | some ⟨.worker d (.refund p), _⟩ =>
    some { s.setClient c (.arrive (.worker d .commitExpired)) with refunds := s.refunds ++ [p] }
  | _ => none

/-- Handler `c` answers. Source: none: infrastructure. Kind: D -/
def answer (s : Sys) (c : ℕ) : Option Sys :=
  match s.running c with
  | some cl =>
    (cl.task.status).map fun st => (s.setClient c ⟨cl.task, .answered⟩).settle cl.task (some st)
  | none => none

/-- Handler `c` dies. Source: none: infrastructure. Kind: D -/
def crash (s : Sys) (c : ℕ) : Option Sys :=
  match s.running c with
  | some cl => some ((s.setClient c ⟨cl.task, .crashed⟩).settle cl.task none)
  | none => none

/-- One step of the pipeline. Source: none: infrastructure. Kind: D -/
def step (cfg : Config) (s : Sys) : Action → Option Sys
  | .store (.begin ..) => none
  | .store a => (s.store.step a).map fun σ => { s with store := σ }
  | .post req => some (s.spawn (.ingress req .start))
  | .deliver m retried =>
    (s.messages[m]?).map fun msg => s.spawn (.worker ⟨m, retried, msg.payload⟩ .chaosGate)
  | .failureCallback m =>
    ((s.messages[m]?).bind (Message.callback m)).map fun cb => s.spawn (.webhook cb .insertDlq)
  | .retryDlq id => some (s.spawn (.dlqRetry id .lookup))
  | .sweep => some (s.spawn (.sweeper .sweep))
  | .issue c => s.issue cfg c
  | .receive c => s.receive cfg c
  | .throw c => s.throw cfg c
  | .gate c rateOk depthOk => s.gate c rateOk depthOk
  | .publish c accepted acknowledged => s.publish c accepted acknowledged
  | .chaos c mode => s.chaos c mode
  | .refund c => s.refund c
  | .answer c => s.answer c
  | .crash c => s.crash c

/-- The pipeline before the first request. Source: none: infrastructure. Kind: D -/
structure Initial (s : Sys) : Prop where
  store_initial : s.store.Initial
  no_clients : s.clients = []
  no_messages : s.messages = []
  no_refunds : s.refunds = []

/-- The states every interleaving reaches. Source: none: infrastructure. Kind: D -/
abbrev Reachable (cfg : Config) : Sys → Prop := Reach (step cfg) Initial Always

/-! ## The broker, and the system at rest -/

/-- What the broker promises of one step: a message is delivered only while it is active, with a
retry count it has reached. Source: `infra/qstash/publisher.ts` (`retries: 3`). Kind: D.
Fidelity: the documented behaviour of the broker -/
def Disciplined (s : Sys) : Action → Prop
  | .deliver m retried =>
    ∃ msg, s.messages[m]? = some msg ∧ ∃ n, msg.state = .active n ∧ retried ≤ n
  | _ => True

/-- The execution has ended. Source: none: infrastructure. Kind: D -/
def ended : Pc → Bool
  | .done _ => true
  | .failed => true
  | _ => false

/-- Nothing runs and nothing is in flight: no handler, no execution, no message to deliver and no
failure callback to make. Source: `docs/FAILURE_MATRIX.md` (invariants). Kind: D -/
structure Quiescent (s : Sys) : Prop where
  no_handler : ∀ cl ∈ s.clients, cl.phase.live = false
  no_exec : ∀ e ∈ s.store.execs, ended e.pc = true
  no_message : ∀ m ∈ s.messages, m.state = .acked ∨ ∃ st n, m.state = .closed st n

/-- No hold is left: a sweep that runs after the last hold has expired frees every `RESERVED` seat.
Source: migration `130_fn_sweep_expired_holds`. Kind: D -/
def Swept (s : Sys) : Prop := ∀ seat ∈ s.store.seats.committed, seat.status ≠ .reserved

end Sys

end TrainsAndTracks
