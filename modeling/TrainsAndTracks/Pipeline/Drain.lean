import Mathlib.Algebra.BigOperators.Group.Finset.Piecewise
import Mathlib.Algebra.Order.BigOperators.Group.Finset
import TrainsAndTracks.Pipeline.Progress
import TrainsAndTracks.Pipeline.Provenance

/-!
# The pipeline drains

A published message is tried four times at most, and one that was given up is reported to the failure webhook.
So the work a request causes is bounded, however its deliveries fail.

* `Sys.handled` — the next try of a message, or its report, is under way.
* `MessageState.toCome`, `Task.mayPublish` — the tries and reports there may still be for a message, and
  whether a handler may publish one.
* `Sys.wasted` — the steps that may repeat for ever: a try that is not the next one of its message, or is
  under way already; a report of a message that is not given up, or that is under way already; and a
  report that is not answered 200.

`drains` concludes: apart from these a run does no more than a fixed amount of work for each handler, call and
message there is and each request that comes in; and a pipeline that can do no more without an accident is at
rest.
-/

namespace TrainsAndTracks

open Found

/-- The tries and reports there may still be. Source: `infra/qstash/publisher.ts` (`retries: 3`,
`failureCallback`). Kind: D -/
def MessageState.toCome : MessageState → ℕ
  | active n => 5 - n
  | failing .. => 1
  | acked | closed .. => 0

/-- The handler is the try that message `m` in state `st` needs, or its report. Source:
`infra/qstash/publisher.ts` (`retries: 3`, `failureCallback`). Kind: D -/
def Task.handles (t : Task) (m : MessageId) : MessageState → Bool
  | .active n => t.delivery.any fun d => d.message == m && decide (n ≤ d.retried)
  | .failing .. => t.failure.any fun cb => cb.sourceMessageId == m
  | .acked | .closed .. => false

/-- The handler may still publish a message. Source: `app/api/book/route.ts` `handle`,
`app/api/admin/dlq/[id]/retry/route.ts` `POST`. Kind: D -/
def Task.mayPublish : Task → Bool
  | ingress _ (.start) | ingress _ (.idempotencyCheck ..) | ingress _ (.createBooking ..)
  | ingress _ (.publish _) | dlqRetry _ .lookup | dlqRetry _ (.publish _) => true
  | _ => false

/-- What a message that a handler may publish will need. Source: `infra/qstash/publisher.ts` (`retries: 3`,
`failureCallback`). Kind: D -/
def Client.credit (cl : Client) : ℕ := if cl.phase.live && cl.task.mayPublish then 5 else 0

namespace Sys

/-- The try that message `m` in state `st` needs, or its report, is under way. Source:
`infra/qstash/publisher.ts` (`retries: 3`, `failureCallback`). Kind: D -/
def handled (s : Sys) (m : MessageId) (st : MessageState) : Bool :=
  s.clients.any fun cl => cl.phase.live && cl.task.handles m st

/-- The tries and reports of message `m` that have not begun. Source: `infra/qstash/publisher.ts`
(`retries: 3`, `failureCallback`). Kind: D -/
def due (s : Sys) (m : MessageId) : ℕ :=
  match s.messages[m]? with
  | some msg => msg.state.toCome - if s.handled m msg.state then 1 else 0
  | none => 0

/-- The tries and reports that have not begun. Source: none: infrastructure. Kind: D -/
def toCome (s : Sys) : ℕ := ∑ m ∈ Finset.range s.messages.length, s.due m

/-- The work that is left, at most: the steps of what runs, and the handlers that the broker will start.
Source: none: infrastructure. Kind: D -/
def work (s : Sys) : ℕ := s.left + 379 * (s.toCome + (s.clients.map Client.credit).sum)

/-- The broker makes the next try of a message, or its report, while none is under way. Source:
`infra/qstash/publisher.ts` (`retries: 3`, `failureCallback`). Kind: D -/
def inTurn (s : Sys) : Action → Bool
  | .deliver m retried =>
    (s.messages[m]?).any fun msg => msg.state == .active retried && !s.handled m msg.state
  | .failureCallback m =>
    (s.messages[m]?).any fun msg => (match msg.state with
      | .failing .. => true
      | _ => false) && !s.handled m msg.state
  | _ => true

/-- The message whose report ends without a 200. Source: `app/api/webhooks/qstash-failure/route.ts` `handler`.
Kind: D -/
def unreported (s : Sys) : Action → Option MessageId
  | .answer c =>
    match s.running c with
    | some ⟨.webhook cb (.respond st), _⟩ => if st = 200 then none else some cb.sourceMessageId
    | _ => none
  | .crash c =>
    match s.running c with
    | some ⟨.webhook cb _, _⟩ => some cb.sourceMessageId
    | _ => none
  | _ => none

/-- A try or a report out of turn, or a report that fails. Source: `infra/qstash/publisher.ts`,
`app/api/webhooks/qstash-failure/route.ts`. Kind: D -/
def wasted (s : Sys) (a : Action) : Bool := !s.inTurn a || (s.unreported a).isSome

/-- The steps that get on with what there is, those of the broker with them. Source: none: infrastructure.
Kind: D -/
def Action.proceeds : Action → Bool
  | deliver .. | failureCallback _ => true
  | a => a.works

/-- The steps that need no accident, with the tries and reports that the broker is to make. Source: the
routes of `app/api`, `infra/qstash/publisher.ts` (`retries: 3`, `failureCallback`). Kind: D -/
def expected (s : Sys) : Action → Bool
  | .deliver m retried => s.inTurn (.deliver m retried)
  | .failureCallback m => s.inTurn (.failureCallback m)
  | a => s.prompted a

/-- Something new is asked for: a booking, a retry by the operator, a sweep. Source: the routes of `app/api`.
Kind: D -/
def Action.asks : Action → Bool
  | post _ | retryDlq _ | sweep => true
  | _ => false

/-! ## Tries -/

section tries

variable {cfg : Config} {s s' : Sys} {a : Action} {c : ℕ} {cl cl' : Client} {t : Task} {status : Option ℕ}
variable {m : MessageId} {msg : Message} {st : MessageState}

/-- **A message is tried four times at most.** Source: `infra/qstash/publisher.ts` (`retries: 3`). Kind: L -/
theorem tries_of_reach (h : Reachable cfg s) :
    ∀ (m : ℕ) (msg : Message) (n : ℕ), s.messages[m]? = some msg → msg.state = .active n → n ≤ 3 := by
  refine h.invariant (P := fun s => ∀ (m : ℕ) (msg : Message) (n : ℕ), s.messages[m]? = some msg →
    msg.state = .active n → n ≤ 3) (fun s hinit m msg n hmsg => ?_)
    fun s a s' _ hP _ hst m msg' n hmsg' hn => ?_
  · simp [hinit.no_messages] at hmsg
  · rcases (step_cases hst).message_cases hmsg' with
      ⟨msg, hmsg, -, hsame | ⟨t, status, -, hset⟩⟩ | ⟨-, -, job, -, -, rfl⟩
    · exact hP m msg n hmsg (hsame ▸ hn)
    · rw [hset] at hn
      cases hstate : msg.state with
      | active k =>
        have hk := hP m msg k hmsg hstate
        rw [hstate] at hn
        cases t with
        | worker d pc =>
          simp only [settled, MessageState.onAnswer] at hn
          split_ifs at hn <;> cases hn <;> omega
        | webhook cb pc =>
          simp only [settled, MessageState.close] at hn
          split_ifs at hn <;> cases hn <;> exact hk
        | ingress | dlqRetry | sweeper =>
          cases hn
          exact hk
      | acked | failing | closed =>
        rw [hstate] at hn
        cases t <;> simp only [settled, MessageState.onAnswer, MessageState.close] at hn
        all_goals
          try split_ifs at hn
          all_goals cases hn
    · cases hn
      exact Nat.zero_le _

/-- **What the end of a handler makes of a message**: nothing, where the handler was not the try or the report
it needed; else fewer tries and reports are left, or a report has failed. Source:
`infra/qstash/publisher.ts` (`retries: 3`, `failureCallback`). Kind: L -/
theorem settled_toCome (t : Task) (status : Option ℕ) (m : MessageId) (hst : ∀ n, st = .active n → n ≤ 3) :
    (settled t status m st).toCome < st.toCome ∨
      settled t status m st = st ∧ (t.handles m st = false ∨
        ∃ cb, t.failure = some cb ∧ cb.sourceMessageId = m ∧ status ≠ some 200) := by
  have hother : ∀ {t : Task}, t.delivery.all (fun d => d.message != m) = true →
      t.failure.all (fun cb => cb.sourceMessageId != m) = true → t.handles m st = false := by
    intro t hd hcb
    cases st with
    | active n =>
      cases hdelivery : t.delivery <;> simp_all [Task.handles]
    | failing => cases hfailure : t.failure <;> simp_all [Task.handles]
    | acked | closed => rfl
  cases t with
  | worker d pc =>
    by_cases hm : d.message = m
    · cases st with
      | active n =>
        have hn := hst n rfl
        simp only [settled, hm, if_true, MessageState.onAnswer, Task.handles, Task.delivery, Option.any_some,
          beq_self_eq_true, Bool.true_and, decide_eq_false_iff_not]
        split_ifs with hack hgive hstale hmore
        · exact .inl (by simp only [MessageState.toCome]; omega)
        · exact .inl (by simp only [MessageState.toCome]; omega)
        · exact .inr ⟨rfl, .inl (by omega)⟩
        · exact .inl (by simp only [MessageState.toCome]; omega)
        · exact .inl (by simp only [MessageState.toCome]; omega)
      | acked | failing | closed =>
        exact .inr ⟨by simp [settled, MessageState.onAnswer], .inl rfl⟩
    · exact .inr ⟨by simp [settled, hm], .inl (hother (by simp [Task.delivery, hm]) rfl)⟩
  | webhook cb pc =>
    by_cases hm : cb.sourceMessageId = m
    · by_cases hok : status = some 200
      · cases st with
        | failing => exact .inl (by simp [settled, hm, hok, MessageState.close, MessageState.toCome])
        | active | acked | closed => exact .inr ⟨by simp [settled, MessageState.close], .inl rfl⟩
      · exact .inr ⟨by simp [settled, hok], .inr ⟨cb, rfl, hm, hok⟩⟩
    · exact .inr ⟨by simp [settled, hm], .inl (hother rfl (by simp [Task.failure, hm]))⟩
  | ingress | dlqRetry | sweeper => exact .inr ⟨rfl, .inl (hother rfl rfl)⟩

/-- Who starts handles what it is started for. Source: none: infrastructure. Kind: L -/
theorem Moves.handles (h : Moves cfg s c a cl cl') (m : MessageId) (st : MessageState) :
    cl'.task.handles m st = cl.task.handles m st := by
  cases st <;> simp only [Task.handles, h.delivery, h.failure]

/-- A report that ends without a 200 has to be made again. Source: `app/api/webhooks/qstash-failure/route.ts`
`handler`. Kind: L -/
theorem Ends.unreported {cb : FailureCallback} (h : Ends s a t status) (ht : t.failure = some cb)
    (hstatus : status ≠ some 200) : s.unreported a = some cb.sourceMessageId := by
  cases h with
  | @answer c cl st hcl hst =>
    obtain ⟨t, ph⟩ := cl
    cases t with
    | webhook cb pc =>
      cases ht
      cases pc with
      | respond n =>
        cases hst
        have hn : st ≠ 200 := fun hn => hstatus (congrArg some hn)
        simp [Sys.unreported, hcl, hn]
      | insertDlq | release | commit => cases hst
    | ingress | worker | dlqRetry | sweeper => cases ht
  | @crash c cl hcl =>
    obtain ⟨t, ph⟩ := cl
    cases t with
    | webhook cb pc =>
      cases ht
      simp [Sys.unreported, hcl]
    | ingress | worker | dlqRetry | sweeper => cases ht

/-- One handler ends with a step. Source: none: infrastructure. Kind: L -/
theorem Ends.unique {t' : Task} {status' : Option ℕ} (h : Ends s a t status) (h' : Ends s a t' status') :
    t = t' := by
  cases h with
  | answer hcl =>
    cases h' with
    | answer hcl' => rw [Option.eq_some_unique hcl hcl']
  | crash hcl =>
    cases h' with
    | crash hcl' => rw [Option.eq_some_unique hcl hcl']

/-- **A message after a step** has the state the end of a handler gives it, or stays as it is. Source: none:
infrastructure. Kind: L -/
theorem Stepped.message_next (hs : Stepped cfg s a s') (hmsg : s.messages[m]? = some msg) :
    ∃ msg', s'.messages[m]? = some msg' ∧
      ((∀ t status, ¬ Ends s a t status) ∧ msg'.state = msg.state ∨
        ∃ t status, Ends s a t status ∧ msg'.state = settled t status m msg.state) := by
  cases hs with
  | @go _ c cl t' job hcl hgoes =>
    refine ⟨msg, ?_, .inl ⟨fun t status hends => ?_, rfl⟩⟩
    · cases job with
      | none => exact hmsg
      | some job =>
        obtain ⟨hlt, -⟩ := List.getElem?_eq_some_iff.mp hmsg
        simp [enqueued, enqueue, setClient, List.getElem?_append_left hlt, hmsg]
    · generalize cl.task = u at hgoes
      cases hgoes <;> cases hends
  | answer hcl hst =>
    exact ⟨_, (settle_messages _ _ _ _).trans (congrArg _ hmsg), .inr ⟨_, _, .answer hcl hst, rfl⟩⟩
  | crash hcl => exact ⟨_, (settle_messages _ _ _ _).trans (congrArg _ hmsg), .inr ⟨_, _, .crash hcl, rfl⟩⟩
  | start ht => exact ⟨msg, hmsg, .inl ⟨fun t status hends => (by cases ht <;> cases hends), rfl⟩⟩
  | store | issue | again | receive | refund =>
    exact ⟨msg, hmsg, .inl ⟨fun t status hends => (by cases hends), rfl⟩⟩

/-- **Whoever handles a message goes on with it** until it ends. Source: none: infrastructure. Kind: L -/
theorem Stepped.handled_cases (hs : Stepped cfg s a s') (h : s.handled m st = true) :
    s'.handled m st = true ∨ ∃ t status, Ends s a t status ∧ t.handles m st = true := by
  obtain ⟨cl, hmem, hcl⟩ := List.any_eq_true.mp h
  obtain ⟨hlive, hhandles⟩ := Bool.and_eq_true_iff.mp hcl
  obtain ⟨c, hget⟩ := List.getElem?_of_mem hmem
  have hrun : s.running c = some cl := running_eq_some.mpr ⟨hget, hlive⟩
  obtain ⟨cl', hget', ⟨rfl, -⟩ | hm⟩ := hs.client_next hget
  · exact .inl (List.any_eq_true.mpr ⟨cl', List.mem_of_getElem? hget', hcl⟩)
  · have hstays : cl'.phase.live = true → s'.handled m st = true := fun hlive' =>
      List.any_eq_true.mpr ⟨cl', List.mem_of_getElem? hget', by rw [hlive', hm.handles, hhandles]; rfl⟩
    cases hm with
    | answer _ hst => exact .inr ⟨_, _, .answer hrun hst, hhandles⟩
    | crash => exact .inr ⟨_, _, .crash hrun, hhandles⟩
    | issue | again | receive | go | refund => exact .inl (hstays rfl)

/-- What is due for a message there is. Source: none: infrastructure. Kind: L -/
theorem due_eq (hmsg : s.messages[m]? = some msg) :
    s.due m = msg.state.toCome - if s.handled m msg.state then 1 else 0 := by
  simp only [due, hmsg]

/-- **What is due for a message** grows by a report that fails only. Source: `infra/qstash/publisher.ts`
(`retries: 3`, `failureCallback`). Kind: L -/
theorem Stepped.due_le (hs : Stepped cfg s a s') (hmsg : s.messages[m]? = some msg)
    (htries : ∀ n, msg.state = .active n → n ≤ 3) :
    s'.due m ≤ s.due m + if s.unreported a = some m then 1 else 0 := by
  obtain ⟨msg', hmsg', hcase⟩ := hs.message_next hmsg
  rw [due_eq hmsg, due_eq hmsg']
  have hstays : msg'.state = msg.state → (s.handled m msg.state = true → s'.handled m msg.state = true) →
      (msg'.state.toCome - if s'.handled m msg'.state then 1 else 0) ≤
        msg.state.toCome - if s.handled m msg.state then 1 else 0 := by
    intro hstate hkeep
    rw [hstate]
    by_cases hhandled : s.handled m msg.state = true
    · rw [hhandled, hkeep hhandled]
    · rw [if_neg hhandled]
      exact Nat.sub_le ..
  rcases hcase with ⟨hnone, hstate⟩ | ⟨t, status, hends, hstate⟩
  · refine Nat.le_add_right_of_le (hstays hstate fun hhandled => ?_)
    exact (hs.handled_cases hhandled).resolve_right fun ⟨t, status, hends, _⟩ => hnone t status hends
  · rcases settled_toCome t status m htries with hlt | ⟨hsame, hno | ⟨cb, hcb, rfl, hfail⟩⟩
    · rw [← hstate] at hlt
      split <;> split <;> omega
    · refine Nat.le_add_right_of_le (hstays (hstate.trans hsame) fun hhandled => ?_)
      refine (hs.handled_cases hhandled).resolve_right fun ⟨t', status', hends', hyes⟩ => ?_
      rw [hends'.unique hends, hno] at hyes
      cases hyes
    · rw [if_pos (hends.unreported hcb hfail), hstate, hsame]
      split <;> split <;> omega

/-- Nothing more than four tries and a report is due for a message. Source: `infra/qstash/publisher.ts`
(`retries: 3`, `failureCallback`). Kind: L -/
theorem due_le_five (s : Sys) (m : MessageId) : s.due m ≤ 5 := by
  unfold due
  split
  · rename_i msg _
    have hle : msg.state.toCome ≤ 5 := by cases msg.state <;> simp [MessageState.toCome]
    exact (Nat.sub_le ..).trans hle
  · exact Nat.zero_le _

/-- **What is due** grows by a report that fails, and by five for a message that is published. Source:
`infra/qstash/publisher.ts` (`retries: 3`, `failureCallback`). Kind: L -/
theorem Stepped.toCome_le (hreach : Reachable cfg s) (hs : Stepped cfg s a s') {n : ℕ}
    (hlen : s'.messages.length = s.messages.length + n) :
    s'.toCome ≤ s.toCome + (if (s.unreported a).isSome then 1 else 0) + 5 * n := by
  have hold : ∑ m ∈ Finset.range s.messages.length, s'.due m ≤
      ∑ m ∈ Finset.range s.messages.length, (s.due m + if s.unreported a = some m then 1 else 0) := by
    refine Finset.sum_le_sum fun m hm => ?_
    have hmsg := List.getElem?_eq_getElem (Finset.mem_range.mp hm)
    exact hs.due_le hmsg fun n => tries_of_reach hreach m _ n hmsg
  have hfail : ∑ m ∈ Finset.range s.messages.length, (if s.unreported a = some m then 1 else 0) ≤
      if (s.unreported a).isSome then 1 else 0 := by
    cases s.unreported a with
    | none => simp
    | some m =>
      simp only [Option.some.injEq, Finset.sum_ite_eq, Option.isSome_some, if_true]
      split <;> omega
  have hnew : ∀ k, ∑ m ∈ Finset.range (s.messages.length + k), s'.due m ≤
      ∑ m ∈ Finset.range s.messages.length, s'.due m + 5 * k := by
    intro k
    induction k with
    | zero => exact le_rfl
    | succ k ih =>
      have hone := s'.due_le_five (s.messages.length + k)
      rw [← Nat.add_assoc, Finset.sum_range_succ]
      omega
  rw [Finset.sum_add_distrib] at hold
  have hgrown := hnew n
  simp only [toCome, hlen]
  omega

/-- **A try or a report in turn** is no longer due. Source: `infra/qstash/publisher.ts` (`retries: 3`,
`failureCallback`). Kind: L -/
theorem Stepped.toCome_lt (hreach : Reachable cfg s) (hs : Stepped cfg s a (s.spawn t))
    (hun : s.unreported a = none) (hmsg : s.messages[m]? = some msg) (hno : s.handled m msg.state = false)
    (ht : t.handles m msg.state = true) (hpos : 0 < msg.state.toCome) : (s.spawn t).toCome < s.toCome := by
  refine Finset.sum_lt_sum (fun k hk => ?_) ⟨m, ?_, ?_⟩
  · have hget := List.getElem?_eq_getElem (Finset.mem_range.mp hk)
    have hle := hs.due_le hget fun n => tries_of_reach hreach k _ n hget
    rwa [hun, if_neg (by simp)] at hle
  · exact Finset.mem_range.mpr (List.getElem?_eq_some_iff.mp hmsg).1
  · have hlast : .arrive t ∈ (s.spawn t).clients := List.mem_append_right _ (List.mem_singleton_self _)
    have hyes : (s.spawn t).handled m msg.state = true :=
      List.any_eq_true.mpr ⟨_, hlast, by simp [Client.arrive, Phase.live, ht]⟩
    rw [due_eq hmsg, due_eq (s := s.spawn t) hmsg, hno, hyes]
    simp only [if_true, Bool.false_eq_true, if_false]
    omega

end tries

/-! ## Publications -/

section publications

variable {cfg : Config} {s s' : Sys} {a : Action} {c : ℕ} {cl cl' : Client} {t t' : Task} {now : Time}
variable {r : Reply}

/-- A handler that has replied may publish only if it might before. Source: `app/api/book/route.ts` `handle`,
`app/api/admin/dlq/[id]/retry/route.ts` `POST`. Kind: L -/
theorem mayPublish_onReply (h : t.onReply cfg now r = some t') (ht' : t'.mayPublish = true) :
    t.mayPublish = true := by
  cases t with
  | ingress req pc =>
    obtain ⟨pc', hpc, rfl⟩ := Option.map_eq_some_iff.mp h
    cases IngressPc.replied hpc <;> first | rfl | cases ht'
  | dlqRetry id pc =>
    obtain ⟨pc', hpc, rfl⟩ := Option.map_eq_some_iff.mp h
    cases DlqRetryPc.replied hpc <;> first | rfl | cases ht'
  | worker | webhook | sweeper =>
    obtain ⟨pc', hpc, rfl⟩ := Option.map_eq_some_iff.mp h
    cases ht'

/-- A handler publishes once. Source: `app/api/book/route.ts` `handle`,
`app/api/admin/dlq/[id]/retry/route.ts` `POST`. Kind: L -/
theorem Goes.mayPublish {job : Option AllocateJobPayload} (h : Goes cfg c a t t' job) :
    (t'.mayPublish = true → t.mayPublish = true) ∧
      (job.isSome = true → t.mayPublish = true ∧ t'.mayPublish = false) := by
  have hthrow : ∀ t : Task, t.onThrow.mayPublish = false := by
    intro t
    cases t with
    | ingress req pc => cases pc <;> rfl
    | dlqRetry id pc => cases pc <;> rfl
    | worker | webhook | sweeper => rfl
  cases h with
  | throw => exact ⟨fun h => absurd h (by simp [hthrow]), fun h => (by cases h)⟩
  | gate => exact ⟨fun _ => rfl, fun h => (by cases h)⟩
  | published hjob =>
    rcases publishing_cases hjob with ⟨req, rfl⟩ | ⟨id, rfl⟩ <;> exact ⟨fun _ => rfl, fun _ => ⟨rfl, rfl⟩⟩
  | publishLost hjob =>
    rcases publishing_cases hjob with ⟨req, rfl⟩ | ⟨id, rfl⟩ <;> exact ⟨fun _ => rfl, fun _ => ⟨rfl, rfl⟩⟩
  | publishFailed hjob =>
    rcases publishing_cases hjob with ⟨req, rfl⟩ | ⟨id, rfl⟩ <;> exact ⟨fun _ => rfl, fun h => (by cases h)⟩
  | chaosPassed | chaosFailed => exact ⟨fun h => (by cases h), fun h => (by cases h)⟩

/-- A handler that moves keeps what its message will need, or less. Source: `app/api/book/route.ts` `handle`,
`app/api/admin/dlq/[id]/retry/route.ts` `POST`. Kind: L -/
theorem Moves.credit_le (h : Moves cfg s c a cl cl') : cl'.credit ≤ cl.credit := by
  have hmono : (cl'.task.mayPublish = true → cl.task.mayPublish = true) → cl'.credit ≤ cl.credit := by
    intro himp
    simp only [Client.credit, h.live, Bool.true_and]
    split
    · rename_i hcl'
      rw [if_pos (himp (Bool.and_eq_true_iff.mp hcl').2)]
    · exact Nat.zero_le _
  cases h with
  | receive _ _ ht => exact hmono (mayPublish_onReply ht)
  | go _ hgoes => exact hmono hgoes.mayPublish.1
  | refund => exact hmono fun hworker => (by cases hworker)
  | issue | again | answer | crash => exact hmono id

/-- **Publications are paid for**, by the handler that publishes. Source: `infra/qstash/publisher.ts`
`publishAllocateJob` (call sites). Kind: L -/
theorem Stepped.credit_le (hs : Stepped cfg s a s') :
    (s'.clients.map Client.credit).sum + 5 * s'.messages.length ≤
      (s.clients.map Client.credit).sum + 5 * s.messages.length + if a.asks then 5 else 0 := by
  have hmoved : ∀ {c : ℕ} {cl cl' : Client}, s.clients[c]? = some cl → Moves cfg s c a cl cl' →
      ((s.clients.set c cl').map Client.credit).sum ≤ (s.clients.map Client.credit).sum := by
    intro c cl cl' hcl hm
    have hsum := sum_map_set (f := Client.credit) hcl cl'
    have hle := hm.credit_le
    omega
  cases hs with
  | store => exact Nat.le_add_right ..
  | @start a t ht =>
    have hnew : (Client.arrive t).credit ≤ if a.asks then 5 else 0 := by
      cases ht <;> simp [Client.arrive, Client.credit, Task.mayPublish, Phase.live, Action.asks]
    simp only [spawn, List.map_append, List.sum_append, List.map_singleton, List.sum_singleton]
    omega
  | issue hcl hcall hleft =>
    obtain ⟨hcl, hlive⟩ := running_eq_some.mp hcl
    exact Nat.le_add_right_of_le (Nat.add_le_add_right (hmoved hcl (.issue hlive hcall hleft)) _)
  | again hcl he hpc => exact Nat.le_add_right_of_le (Nat.add_le_add_right (hmoved hcl (.again he hpc)) _)
  | receive hcl he hpc ht hlast =>
    exact Nat.le_add_right_of_le (Nat.add_le_add_right (hmoved hcl (.receive he hpc ht hlast)) _)
  | @go a c cl t' job hcl hgoes =>
    obtain ⟨hcl, hlive⟩ := running_eq_some.mp hcl
    cases job with
    | none => exact Nat.le_add_right_of_le (Nat.add_le_add_right (hmoved hcl (.go hlive hgoes)) _)
    | some job =>
      obtain ⟨hmay, hno⟩ := hgoes.mayPublish.2 rfl
      have hsum := sum_map_set (f := Client.credit) hcl (.arrive t')
      have hold : cl.credit = 5 := by simp [Client.credit, hlive, hmay]
      have hnew : (Client.arrive t').credit = 0 := by simp [Client.arrive, Client.credit, hno]
      simp only [enqueued, enqueue, setClient, List.length_append, List.length_singleton]
      omega
  | refund hcl =>
    obtain ⟨hcl, hlive⟩ := running_eq_some.mp hcl
    exact Nat.le_add_right_of_le (Nat.add_le_add_right (hmoved hcl (.refund hlive)) _)
  | answer hcl hst =>
    obtain ⟨hcl, hlive⟩ := running_eq_some.mp hcl
    rw [settle_clients, settle_length]
    exact Nat.le_add_right_of_le (Nat.add_le_add_right (hmoved hcl (.answer hlive hst)) _)
  | crash hcl =>
    obtain ⟨hcl, hlive⟩ := running_eq_some.mp hcl
    rw [settle_clients, settle_length]
    exact Nat.le_add_right_of_le (Nat.add_le_add_right (hmoved hcl (.crash hlive)) _)

/-- No message is taken back. Source: none: infrastructure. Kind: L -/
theorem Stepped.messages_length (hs : Stepped cfg s a s') : s.messages.length ≤ s'.messages.length := by
  cases hs with
  | @go a c cl t' job => cases job <;> simp [enqueued, enqueue, setClient]
  | answer | crash =>
    rw [settle_length]
    exact le_rfl
  | store | start | issue | again | receive | refund => exact le_rfl

/-- **What is still to come** grows by a report that fails and by what a new request will need. Source:
`infra/qstash/publisher.ts` (`retries: 3`, `failureCallback`). Kind: L -/
theorem Stepped.toCome_add_credit_le (hreach : Reachable cfg s) (hs : Stepped cfg s a s') :
    s'.toCome + (s'.clients.map Client.credit).sum ≤ s.toCome + (s.clients.map Client.credit).sum +
      (if (s.unreported a).isSome then 1 else 0) + if a.asks then 5 else 0 := by
  obtain ⟨n, hlen⟩ := Nat.exists_eq_add_of_le hs.messages_length
  have hcome := hs.toCome_le hreach hlen
  have hcredit := hs.credit_le
  omega

/-- **A try or a report in turn** is one of those that are to come. Source: `infra/qstash/publisher.ts`
(`retries: 3`, `failureCallback`). Kind: L -/
theorem Stepped.toCome_lt_of_inTurn (hreach : Reachable cfg s) (hs : Stepped cfg s a s')
    (hturn : s.inTurn a = true) (hstarts : a.starts = true) (hasks : a.asks = false) :
    s'.toCome < s.toCome := by
  cases hs with
  | start ht =>
    cases ht with
    | @deliver m retried msg hmsg =>
      simp only [inTurn, hmsg, Option.any_some, Bool.and_eq_true, beq_iff_eq, Bool.not_eq_true'] at hturn
      obtain ⟨hstate, hno⟩ := hturn
      have htries := tries_of_reach hreach m msg retried hmsg hstate
      refine Stepped.toCome_lt hreach (.start (.deliver hmsg)) rfl hmsg hno ?_ ?_
      · simp [hstate, Task.handles, Task.delivery]
      · rw [hstate, MessageState.toCome]
        omega
    | @failureCallback m msg cb hmsg hcb =>
      simp only [inTurn, hmsg, Option.any_some, Bool.and_eq_true, Bool.not_eq_true'] at hturn
      obtain ⟨hfailing, hno⟩ := hturn
      refine Stepped.toCome_lt hreach (.start (.failureCallback hmsg hcb)) rfl hmsg hno ?_ ?_
      all_goals
        cases hstate : msg.state with
        | failing status retried =>
          simp only [Message.callback, hstate, Option.some.injEq] at hcb
          simp [← hcb, Task.handles, Task.failure, MessageState.toCome]
        | active | acked | closed => simp [hstate] at hfailing
    | post | retryDlq | sweep => cases hasks
  | @go a c cl t' job hcl hgoes =>
    generalize cl.task = u at hgoes
    cases hgoes <;> cases hstarts
  | store | issue | again | receive | refund | answer | crash => cases hstarts

end publications

/-! ## What a request costs -/

section draining

variable {cfg : Config} {s s' t : Sys} {a : Action} {as : List Action}

/-- **A step is paid for**: what proceeds takes some of the work that is left; a request adds what it may
need, and a wasted handler its own steps. Source: the routes of `app/api`, `infra/qstash/publisher.ts`.
Kind: L -/
theorem Stepped.work_le (hreach : Reachable cfg s) (hs : Stepped cfg s a s') :
    s'.work + (if a.proceeds then 1 else 0) ≤
      s.work + ((if a.asks then 2273 else 0) + if s.wasted a then 379 else 0) := by
  have hleft := hs.left_le
  have hopen := hs.toCome_add_credit_le hreach
  have hcredit := hs.credit_le
  have hmessages := hs.messages_length
  simp only [work]
  by_cases hstarts : a.starts = true
  · have hun : s.unreported a = none := by cases a <;> first | rfl | cases hstarts
    have hidle : a.works = false := by cases a <;> first | rfl | cases hstarts
    have hproceeds : a.proceeds = !a.asks := by cases a <;> first | rfl | cases hstarts
    simp only [hstarts, hidle, if_true, Bool.false_eq_true, if_false] at hleft
    simp only [hun, Option.isSome_none, Bool.false_eq_true, if_false] at hopen
    rw [hproceeds]
    cases hasks : a.asks with
    | true =>
      simp only [hasks, if_true, Bool.not_true, Bool.false_eq_true, if_false] at hopen ⊢
      omega
    | false =>
      simp only [hasks, Bool.false_eq_true, if_false] at hopen hcredit
      cases hturn : s.inTurn a with
      | true =>
        have hlt := hs.toCome_lt_of_inTurn hreach hturn hstarts hasks
        simp only [wasted, hun, hturn, Bool.not_true, Bool.not_false, Option.isSome_none, Bool.or_false,
          if_true, Bool.false_eq_true, if_false]
        omega
      | false =>
        simp only [wasted, hturn, Bool.not_false, Bool.true_or, if_true, Bool.false_eq_true, if_false]
        omega
  · have hproceeds : a.proceeds = a.works := by cases a <;> first | rfl | exact absurd rfl hstarts
    have hasks : a.asks = false := by cases a <;> first | rfl | exact absurd rfl hstarts
    have hturn : s.inTurn a = true := by cases a <;> first | rfl | exact absurd rfl hstarts
    simp only [hstarts, hasks, Bool.false_eq_true, if_false] at hleft hopen
    rw [hproceeds, hasks, wasted, hturn, Bool.not_true, Bool.false_or]
    cases hun : (s.unreported a).isSome with
    | true =>
      simp only [hun, if_true, Bool.false_eq_true, if_false] at hopen ⊢
      omega
    | false =>
      simp only [hun, Bool.false_eq_true, if_false] at hopen ⊢
      omega

/-- How much work is left. Source: none: infrastructure. Kind: L -/
theorem work_le (h : Reachable cfg s) : s.work ≤ 2273 * s.clients.countP (·.phase.live) +
    5 * s.store.execs.countP (!ended ·.pc) + 1895 * s.messages.length := by
  have hleft := left_le h
  have hcome : s.toCome ≤ s.messages.length * 5 := by
    have hsum := Finset.sum_le_card_nsmul (Finset.range s.messages.length) s.due 5 fun m _ => s.due_le_five m
    simpa [toCome] using hsum
  have hcredit : (s.clients.map Client.credit).sum ≤ 5 * s.clients.countP (·.phase.live) := by
    refine sum_map_le_countP fun cl _ => ?_
    simp only [Client.credit]
    split <;> simp_all
  simp only [work]
  omega

/-- **Nothing is left to do exactly at rest.** Source: the routes of `app/api`, `infra/qstash/publisher.ts`
(`retries: 3`, `failureCallback`). Kind: L -/
theorem stuck_iff_quiescent (h : Reachable cfg s) :
    (∀ a, s.expected a = true → step cfg s a = none) ↔ s.Quiescent := by
  have hunhandled : (∀ cl ∈ s.clients, cl.phase.live = false) → ∀ m st, s.handled m st = false := by
    intro hidle m st
    refine List.any_eq_false.mpr fun cl hmem => ?_
    simp [hidle cl hmem]
  constructor
  · intro hstuck
    have hprompted : ∀ a, s.prompted a = true → step cfg s a = none := fun a ha =>
      hstuck a (by cases a <;> first | exact ha | cases ha)
    obtain ⟨hended, hidle⟩ := (stuck_iff_idle h).mp hprompted
    refine ⟨hidle, hended, fun msg hmem => ?_⟩
    obtain ⟨m, hmsg⟩ := List.getElem?_of_mem hmem
    cases hstate : msg.state with
    | acked => exact .inl rfl
    | closed status retried => exact .inr ⟨status, retried, rfl⟩
    | active retried =>
      have hnone := hstuck (.deliver m retried) (by simp [expected, inTurn, hmsg, hstate, hunhandled hidle])
      simp [step, hmsg] at hnone
    | failing status retried =>
      have hnone := hstuck (.failureCallback m) (by simp [expected, inTurn, hmsg, hstate, hunhandled hidle])
      simp [step, hmsg, Message.callback, hstate] at hnone
  · intro hquiet a ha
    have hprompted := (stuck_iff_idle h).mpr ⟨hquiet.no_exec, hquiet.no_handler⟩
    -- a message the broker would deliver or report is neither acknowledged nor closed
    have hdone : ∀ {m : ℕ} {msg : Message}, s.messages[m]? = some msg →
        msg.state = .acked ∨ ∃ status retried, msg.state = .closed status retried :=
      fun hmsg => hquiet.no_message _ (List.mem_of_getElem? hmsg)
    cases a with
    | deliver m retried =>
      obtain ⟨msg, hmsg, hturn⟩ := (Option.any_eq_true ..).mp ha
      rcases hdone hmsg with hstate | ⟨status, n, hstate⟩ <;> simp [hstate] at hturn
    | failureCallback m =>
      obtain ⟨msg, hmsg, hturn⟩ := (Option.any_eq_true ..).mp ha
      rcases hdone hmsg with hstate | ⟨status, n, hstate⟩ <;> simp [hstate] at hturn
    | _ => exact hprompted _ ha

/-- **The pipeline drains.** Along every run from a reachable pipeline, whatever fails and in whatever
order, there is no more work than a fixed amount for each handler, call and message there is, for each
request, operator's retry and sweep that comes in, and for each try or report that the broker makes out of
turn and each report that fails; and a step that needs no accident, or a try or a report in turn, is left
until everything is at rest. Source: the routes of `app/api`, `infra/qstash/publisher.ts` (`retries: 3`,
`failureCallback`). Kind: P -/
theorem drains (h : Reachable cfg s) (hrun : run (step cfg) s as = some t) :
    as.countP Action.proceeds ≤ 2273 * s.clients.countP (·.phase.live) +
        5 * s.store.execs.countP (!ended ·.pc) + 1895 * s.messages.length + 2273 * as.countP Action.asks +
        tally (step cfg) (fun s a => if s.wasted a then 379 else 0) s as ∧
      ((∀ a, t.expected a = true → step cfg t a = none) ↔ t.Quiescent) := by
  have hnext : ∀ s a s', Reachable cfg s → step cfg s a = some s' → Reachable cfg s' :=
    fun _ _ _ hs hst => hs.snoc trivial hst
  have hpaid : ∀ s a s', Reachable cfg s → step cfg s a = some s' →
      s'.work + (if a.proceeds then 1 else 0) ≤
        s.work + ((if a.asks then 2273 else 0) + if s.wasted a then 379 else 0) :=
    fun _ _ _ hs hst => (step_cases hst).work_le hs
  have hcount := countP_add_le_tally hnext hpaid h hrun
  rw [tally_add, tally_ite hrun] at hcount
  have hwork := work_le h
  exact ⟨by omega, stuck_iff_quiescent (h.run hrun)⟩

/-- A booking whose first delivery is failed by the chaos gate, and whose second one is served. Source: none:
infrastructure. Kind: D -/
def stumbling : List Action :=
  accepting ++ [.deliver 0 0, .chaos 1 (some "500"), .answer 1, .deliver 0 1, .chaos 2 none] ++
    callReturns 2 3 1 ++ callReturns 2 4 2 ++ callReturns 2 5 2 ++ callReturns 2 6 3 ++ callReturns 2 7 1 ++
    [.answer 2]

/-- It comes to rest, and nothing in it is wasted. Source: none: infrastructure. Kind: L -/
theorem drains_stumbling : ∃ t : Sys, run (step config) opening stumbling = some t ∧ t.atRest = true ∧
    tally (step config) (fun s a => if s.wasted a then 379 else 0) opening stumbling = 0 ∧
    stumbling.countP Action.proceeds ≤ 2273 * opening.clients.countP (·.phase.live) +
        5 * opening.store.execs.countP (!ended ·.pc) + 1895 * opening.messages.length +
        2273 * stumbling.countP Action.asks +
        tally (step config) (fun s a => if s.wasted a then 379 else 0) opening stumbling ∧
      (∀ a, t.expected a = true → step config t a = none) := by
  have hrun : (run (step config) opening stumbling).map atRest = some true := by decide +kernel
  have hwaste : tally (step config) (fun s a => if s.wasted a then 379 else 0) opening stumbling = 0 := by
    decide +kernel
  obtain ⟨t, ht, hrest⟩ := Option.map_eq_some_iff.mp hrun
  obtain ⟨hbound, hstuck⟩ := drains ⟨opening, initial_opening, .refl⟩ ht
  exact ⟨t, ht, hrest, hwaste, hbound, hstuck.mpr (quiescent_of_atRest hrest).1⟩

end draining

end Sys

end TrainsAndTracks
