import TrainsAndTracks.Pipeline.Steps
import TrainsAndTracks.Pipeline.Tickets
import TrainsAndTracks.Store.Progress

/-!
# Every handler ends

Handlers wait for executions, try again and go on after exceptions; executions wait for each other's locks.
None of this goes on for ever.

* `Task.toGo`, `Client.left` — the `await`s a handler has left, and its steps, at most.
* `Stepped.left_le` — a step takes one of them, and a handler that starts adds its own.
* `Sys.prompted` — the steps that need no accident: nothing crashes, and a call that is under way is
  waited for.
* `exists_step` — a handler that runs can take such a step, or waits for a call that can.

`handlers_end` concludes: what there is takes a bounded number of steps in whatever order they are taken and
whatever fails; and it is only when every handler has answered and every call has ended that none of the steps
that need no accident is left.
-/

namespace TrainsAndTracks

open Found

/-! ## What is left to do -/

/-- The `await`s the worker has left, at most. Source: `app/api/worker/allocate/route.ts` `handler`.
Kind: D -/
def WorkerPc.toGo : WorkerPc → ℕ
  | .chaosGate => 7
  | .getBooking => 6
  | .allocate _ => 5
  | .charge .. => 4
  | .confirm .. => 3
  | .releaseSoldOut | .releaseFailed _ | .refund _ => 2
  | .commitSoldOut | .commitFailed _ | .releaseForRetry _ | .commitExpired | .commitConfirmed .. => 1
  | .respond _ => 0

/-- The `await`s the ingress has left, at most. Source: `app/api/book/route.ts` `handle`. Kind: D -/
def IngressPc.toGo : IngressPc → ℕ
  | .start => 6
  | .idempotencyCheck .. => 5
  | .createBooking .. => 4
  | .publish _ => 3
  | .rollback _ => 2
  | .commitRefused _ | .commitAccepted _ => 1
  | .respond _ => 0

/-- The `await`s the failure webhook has left, at most. Source:
`app/api/webhooks/qstash-failure/route.ts` `handler`. Kind: D -/
def WebhookPc.toGo : WebhookPc → ℕ
  | .insertDlq => 3
  | .release => 2
  | .commit => 1
  | .respond _ => 0

/-- The `await`s the operator's retry has left, at most. Source:
`app/api/admin/dlq/[id]/retry/route.ts` `POST`. Kind: D -/
def DlqRetryPc.toGo : DlqRetryPc → ℕ
  | .lookup => 3
  | .publish _ => 2
  | .mark => 1
  | .respond _ => 0

/-- The `await`s the sweeper has left, at most. Source: `app/api/sweeper/expire-holds/route.ts` `handler`.
Kind: D -/
def SweeperPc.toGo : SweeperPc → ℕ
  | .sweep => 1
  | .respond _ => 0

/-- The `await`s a handler has left, at most. Source: the routes of `app/api`. Kind: D -/
def Task.toGo : Task → ℕ
  | ingress _ pc => pc.toGo
  | worker _ pc => pc.toGo
  | webhook _ pc => pc.toGo
  | dlqRetry _ pc => pc.toGo
  | sweeper pc => pc.toGo

/-- The steps left at one `await`, at most. Source: `lib/resilience/pg-policy.ts`,
`lib/resilience/payment-policy.ts` (`maxAttempts: 2`). Kind: D -/
def Phase.steps : Phase → ℕ
  | ready n => 2 * n + 1
  | waiting _ n => 2 * n + 2
  | answered | crashed => 0

/-- The steps a handler has left, at most. Source: the routes of `app/api`. Kind: D -/
def Client.left (cl : Client) : ℕ := if cl.phase.live then 8 * cl.task.toGo + cl.phase.steps else 0

section tasks

variable {cfg : Config} {t t' : Task} {now : Time} {r : Reply}

/-- A call is executed three times at most. Source: `lib/resilience/pg-policy.ts`,
`lib/resilience/payment-policy.ts` (`maxAttempts: 2`). Kind: L -/
theorem Task.attempts_le (t : Task) : t.attempts ≤ 3 := by
  cases t with
  | worker d pc => cases pc <;> simp [attempts, WorkerPc.attempts]
  | webhook cb pc => cases pc <;> simp [attempts, WebhookPc.attempts]
  | ingress | dlqRetry | sweeper => simp [attempts]

/-- A call is executed once at least. Source: `lib/resilience/pg-policy.ts`,
`lib/resilience/payment-policy.ts`. Kind: L -/
theorem Task.attempts_pos (t : Task) : 0 < t.attempts := by
  cases t with
  | worker d pc => cases pc <;> simp [attempts, WorkerPc.attempts]
  | webhook cb pc => cases pc <;> simp [attempts, WebhookPc.attempts]
  | ingress | dlqRetry | sweeper => simp [attempts]

/-- A handler that has just arrived. Source: none: infrastructure. Kind: L -/
theorem Client.left_arrive (t : Task) : (Client.arrive t).left ≤ 8 * t.toGo + 7 := by
  have hle := t.attempts_le
  simp only [left, arrive, Phase.live, Phase.steps, if_true]
  omega

/-- A handler that runs has a step left. Source: none: infrastructure. Kind: L -/
theorem Client.left_of_live {cl : Client} (h : cl.phase.live = true) : 8 * cl.task.toGo < cl.left := by
  obtain ⟨t, ph⟩ := cl
  cases ph with
  | ready n | waiting i n =>
    simp only [left, Phase.live, Phase.steps, if_true]
    omega
  | answered | crashed => cases h

/-- The terminal branches and the retryable ones come to an end. Source:
`app/api/worker/allocate/route.ts` (step 6). Kind: L -/
theorem WorkerPc.toGo_failed (retried : ℕ) (code : PaymentErrorCode) :
    (onPaymentError retried code).toGo ≤ 2 ∧ (onOtherError retried).toGo ≤ 2 := by
  unfold onPaymentError onOtherError
  constructor <;> split <;> simp [toGo]

/-- **A reply leaves fewer `await`s.** Source: the routes of `app/api`. Kind: L -/
theorem Task.toGo_onReply (h : t.onReply cfg now r = some t') : t'.toGo < t.toGo := by
  cases t with
  | ingress req pc =>
    obtain ⟨pc', hpc, rfl⟩ := Option.map_eq_some_iff.mp h
    cases IngressPc.replied hpc <;> simp [toGo, IngressPc.toGo]
  | worker d pc =>
    obtain ⟨pc', hpc, rfl⟩ := Option.map_eq_some_iff.mp h
    cases WorkerPc.replied hpc with
    | @refused price seat code =>
      have hle := (WorkerPc.toGo_failed d.retried code).1
      simp only [toGo, WorkerPc.toGo] at *
      omega
    | _ => simp [toGo, WorkerPc.toGo]
  | webhook cb pc =>
    obtain ⟨pc', hpc, rfl⟩ := Option.map_eq_some_iff.mp h
    cases WebhookPc.replied hpc <;> simp [toGo, WebhookPc.toGo]
  | dlqRetry id pc =>
    obtain ⟨pc', hpc, rfl⟩ := Option.map_eq_some_iff.mp h
    cases DlqRetryPc.replied hpc <;> simp [toGo, DlqRetryPc.toGo]
  | sweeper pc =>
    obtain ⟨pc', hpc, rfl⟩ := Option.map_eq_some_iff.mp h
    cases pc <;> cases r <;> cases hpc
    simp [toGo, SweeperPc.toGo]

/-- **An exception leaves fewer `await`s**, where something is awaited. Source: the routes of `app/api`.
Kind: L -/
theorem Task.toGo_onThrow (h : 0 < t.toGo) : t.onThrow.toGo < t.toGo := by
  cases t with
  | ingress req pc => cases pc <;> simp_all [toGo, onThrow, IngressPc.toGo, IngressPc.onThrow]
  | worker d pc =>
    cases pc with
    | charge =>
      have hle := (WorkerPc.toGo_failed d.retried .paymentDeclined).2
      simp only [toGo, onThrow, WorkerPc.toGo, WorkerPc.onThrow] at *
      omega
    | _ => simp_all [toGo, onThrow, WorkerPc.toGo, WorkerPc.onThrow]
  | webhook cb pc => cases pc <;> simp_all [toGo, onThrow, WebhookPc.toGo, WebhookPc.onThrow]
  | dlqRetry id pc => cases pc <;> simp_all [toGo, onThrow, DlqRetryPc.toGo, DlqRetryPc.onThrow]
  | sweeper pc => cases pc <;> simp_all [toGo, onThrow, SweeperPc.toGo]

/-- A handler that awaits a call has that `await` left. Source: the routes of `app/api`. Kind: L -/
theorem Task.toGo_of_call {call : Call} (h : t.call cfg = some call) : 0 < t.toGo := by
  cases t with
  | ingress req pc => cases pc <;> simp_all [Task.call, toGo, IngressPc.call, IngressPc.toGo]
  | worker d pc => cases pc <;> simp_all [Task.call, toGo, WorkerPc.call, WorkerPc.toGo]
  | webhook cb pc => cases pc <;> simp_all [Task.call, toGo, WebhookPc.call, WebhookPc.toGo]
  | dlqRetry id pc => cases pc <;> simp_all [Task.call, toGo, DlqRetryPc.call, DlqRetryPc.toGo]
  | sweeper pc => cases pc <;> simp_all [Task.call, toGo, SweeperPc.call, SweeperPc.toGo]

/-- **A reply of the call it awaits takes a handler on.** Source: the routes of `app/api`,
`lib/db/repositories` (return types). Kind: L -/
theorem Task.isSome_onReply {call : Call} (hcall : t.call cfg = some call) (hr : call.replies r = true) :
    (t.onReply cfg now r).isSome = true := by
  simp only [onReply]
  cases t with
  | ingress req pc =>
    simp only [Option.isSome_map]
    cases pc <;> cases hcall <;> cases r <;> first | rfl | cases hr
  | worker d pc =>
    simp only [Option.isSome_map]
    cases pc with
    | getBooking =>
      cases hcall
      cases r with
      | booking row => cases row <;> rfl
      | _ => cases hr
    | allocate price =>
      cases hcall
      cases r with
      | allocated seat => cases seat <;> rfl
      | _ => cases hr
    | confirm price seat payment =>
      cases hcall
      cases r with
      | confirmed id => cases id <;> rfl
      | _ => cases hr
    | _ => cases hcall <;> cases r <;> first | rfl | cases hr
  | webhook cb pc =>
    simp only [Option.isSome_map]
    cases pc <;> cases hcall <;> cases r <;> first | rfl | cases hr
  | dlqRetry id pc =>
    simp only [Option.isSome_map]
    cases pc with
    | lookup =>
      cases hcall
      cases r with
      | dlqJob row => cases row <;> rfl
      | _ => cases hr
    | publish | respond => cases hcall
    | mark =>
      cases hcall
      cases r <;> first | rfl | cases hr
  | sweeper pc =>
    simp only [Option.isSome_map]
    cases pc <;> cases hcall
    cases r <;> first | rfl | cases hr

/-- A handler has at most seven `await`s left. Source: the routes of `app/api`. Kind: L -/
theorem Task.toGo_le (t : Task) : t.toGo ≤ 7 := by
  cases t with
  | ingress req pc => cases pc <;> simp [toGo, IngressPc.toGo]
  | worker d pc => cases pc <;> simp [toGo, WorkerPc.toGo]
  | webhook cb pc => cases pc <;> simp [toGo, WebhookPc.toGo]
  | dlqRetry id pc => cases pc <;> simp [toGo, DlqRetryPc.toGo]
  | sweeper pc => cases pc <;> simp [toGo, SweeperPc.toGo]

end tasks

namespace Sys

/-- The steps that start nothing new: those of the handlers and of the executions there are. Source: none:
infrastructure. Kind: D -/
def Action.works : Action → Bool
  | store a => a.works
  | post _ | deliver .. | failureCallback _ | retryDlq _ | sweep => false
  | _ => true

/-- The execution that handler `c` waits for has failed: its call throws, or is sent again. Source:
`lib/resilience/pg-policy.ts`, `lib/resilience/payment-policy.ts`. Kind: D -/
def unanswered (s : Sys) (c : ℕ) : Bool :=
  match s.clients[c]? with
  | some ⟨_, .waiting i _⟩ => (s.store.execs[i]?).any (·.pc == .failed)
  | _ => false

/-- Handler `c` has not sent its call yet. Source: none: infrastructure. Kind: D -/
def unsent (s : Sys) (c : ℕ) : Bool :=
  match s.clients[c]? with
  | some ⟨_, .ready _⟩ => true
  | _ => false

/-- The steps that need no accident. A call throws and is sent again only when its execution has failed, no
handler dies, and nothing new starts. Source: the routes of `app/api`. Kind: D -/
def prompted (s : Sys) : Action → Bool
  | .store a => a.works
  | .issue c => s.unsent c || s.unanswered c
  | .throw c => s.unanswered c
  | .receive _ | .gate .. | .publish .. | .chaos .. | .refund _ | .answer _ => true
  | .post _ | .deliver .. | .failureCallback _ | .retryDlq _ | .sweep | .crash _ => false

/-- A handler starts. Source: none: infrastructure. Kind: D -/
def Action.starts : Action → Bool
  | post _ | deliver .. | failureCallback _ | retryDlq _ | sweep => true
  | _ => false

/-- The steps that are left, at most; the sending of a call adds those of the call. Source: none:
infrastructure. Kind: D -/
def left (s : Sys) : ℕ := 6 * (s.clients.map Client.left).sum + s.store.left

section steps

variable {cfg : Config} {s s' t : Sys} {a : Action} {c : ℕ} {cl cl' : Client}

/-- A handler that goes on without a reply has fewer `await`s left. Source: the routes of `app/api`.
Kind: L -/
theorem Goes.toGo_lt {u u' : Task} {job : Option AllocateJobPayload} (h : Goes cfg c a u u' job) :
    u'.toGo < u.toGo := by
  cases h with
  | throw hcall => exact Task.toGo_onThrow (Task.toGo_of_call hcall)
  | gate =>
    simp only [Task.toGo, IngressPc.gate]
    repeat' split
    all_goals simp [IngressPc.toGo]
  | published hjob | publishLost hjob | publishFailed hjob =>
    rcases publishing_cases hjob with ⟨req, rfl⟩ | ⟨id, rfl⟩ <;>
      simp [Task.toGo, Task.onPublished, Task.onThrow, IngressPc.toGo, IngressPc.onThrow, DlqRetryPc.toGo,
        DlqRetryPc.onThrow]
  | @chaosPassed d =>
    simp only [Task.toGo, WorkerPc.parse]
    split <;> simp [WorkerPc.toGo]
  | chaosFailed => simp [Task.toGo, WorkerPc.toGo]

/-- A handler that comes to an `await` further down has fewer steps left. Source: none: infrastructure.
Kind: L -/
theorem left_arrive_lt {u : Task} (hlive : cl.phase.live = true) (hlt : u.toGo < cl.task.toGo) :
    (Client.arrive u).left < cl.left := by
  have hnew := Client.left_arrive u
  have hold := Client.left_of_live hlive
  omega

/-- **A handler that moves** has fewer steps left. Source: the routes of `app/api`. Kind: L -/
theorem Moves.left_lt (h : Moves cfg s c a cl cl') : cl'.left < cl.left := by
  cases h with
  | @issue cl call left hlive hcall hleft =>
    obtain ⟨u, ph⟩ := cl
    cases ph with
    | ready n | waiting i n =>
      simp only [Phase.left] at hleft
      simp only [Client.left, Phase.live, Phase.steps, if_true]
      omega
    | answered | crashed => cases hlive
  | again =>
    simp only [Client.left, Phase.live, Phase.steps, if_true]
    omega
  | receive _ _ ht => exact left_arrive_lt rfl (Task.toGo_onReply ht)
  | go hlive hgoes => exact left_arrive_lt hlive hgoes.toGo_lt
  | refund hlive => exact left_arrive_lt hlive (by simp [Task.toGo, WorkerPc.toGo])
  | answer hlive | crash hlive => exact Nat.zero_lt_of_lt (Client.left_of_live hlive)

/-- A step of a handler works. Source: none: infrastructure. Kind: L -/
theorem works_of_client (h : a.client = some c) : a.works = true := by
  cases a <;> first | rfl | cases h

/-- **A step that works takes one of the steps that are left**, and a handler that starts adds its own.
Source: the routes of `app/api`, the stored functions. Kind: L -/
theorem Stepped.left_le (hs : Stepped cfg s a s') :
    s'.left + (if a.works then 1 else 0) ≤ s.left + if a.starts then 378 else 0 := by
  have hmoved : ∀ {c : ℕ} {cl cl' : Client} {S : Store}, s.clients[c]? = some cl → Moves cfg s c a cl cl' →
      S.left ≤ s.store.left + 5 → 6 * ((s.clients.set c cl').map Client.left).sum + S.left + 1 ≤ s.left := by
    intro c cl cl' S hcl hm hS
    have hsum := sum_map_set (f := Client.left) hcl cl'
    have hlt := hm.left_lt
    simp only [left]
    omega
  have hwork : a.works = true → s'.left + 1 ≤ s.left →
      s'.left + (if a.works then 1 else 0) ≤ s.left + if a.starts then 378 else 0 := by
    intro ha hle
    rw [ha]
    exact hle.trans (Nat.le_add_right ..)
  cases hs with
  | @store a S hno hstore =>
    have hle := (Store.step_cases hstore).left_le
    have hbegins : a.begins = false := by
      cases a with
      | begin call client => exact absurd rfl (hno call client)
      | _ => rfl
    simp only [hbegins, Bool.false_eq_true, if_false] at hle
    change 6 * (s.clients.map Client.left).sum + S.left + (if a.works then 1 else 0) ≤ s.left
    simp only [left]
    omega
  | @start a t ht =>
    have hnew := Client.left_arrive t
    have hgo := t.toGo_le
    have hstarts : a.starts = true ∧ a.works = false := by cases ht <;> exact ⟨rfl, rfl⟩
    simp only [hstarts, left, spawn, List.map_append, List.sum_append, List.map_singleton, List.sum_singleton,
      Bool.false_eq_true, if_false, if_true]
    omega
  | @issue c cl call left hcl hcall hleft =>
    obtain ⟨hcl, hlive⟩ := running_eq_some.mp hcl
    have hbegin : (s.store.begin call c).left = s.store.left + 5 := by simp [Store.left, Store.begin, Pc.left]
    exact hwork rfl (hmoved hcl (.issue hlive hcall hleft) hbegin.le)
  | again hcl he hpc => exact hwork rfl (hmoved hcl (.again he hpc) (Nat.le_add_right ..))
  | receive hcl he hpc ht hlast =>
    exact hwork rfl (hmoved hcl (.receive he hpc ht hlast) (Nat.le_add_right ..))
  | go hcl hgoes =>
    obtain ⟨hcl, hlive⟩ := running_eq_some.mp hcl
    have hlt := hmoved (S := s.store) hcl (.go hlive hgoes) (Nat.le_add_right ..)
    refine hwork (works_of_client hgoes.client) ?_
    simpa only [left, setClient, enqueued_clients, enqueued_store] using hlt
  | refund hcl =>
    obtain ⟨hcl, hlive⟩ := running_eq_some.mp hcl
    exact hwork rfl (hmoved hcl (.refund hlive) (Nat.le_add_right ..))
  | answer hcl hst =>
    obtain ⟨hcl, hlive⟩ := running_eq_some.mp hcl
    have hlt := hmoved (S := s.store) hcl (.answer hlive hst) (Nat.le_add_right ..)
    refine hwork rfl ?_
    simpa only [left, settle_clients, settle_store, setClient] using hlt
  | crash hcl =>
    obtain ⟨hcl, hlive⟩ := running_eq_some.mp hcl
    have hlt := hmoved (S := s.store) hcl (.crash hlive) (Nat.le_add_right ..)
    refine hwork rfl ?_
    simpa only [left, settle_clients, settle_store, setClient] using hlt

/-- A handler that moves stays at its `await` with fewer attempts, or arrives at another one. Source:
`lib/resilience/pg-policy.ts`, `lib/resilience/payment-policy.ts`. Kind: L -/
theorem Moves.steps_le (h : Moves cfg s c a cl cl') (hcl : cl.phase.steps ≤ 7) : cl'.phase.steps ≤ 7 := by
  have harrive : ∀ u : Task, (Client.arrive u).phase.steps ≤ 7 := by
    intro u
    have hle := u.attempts_le
    simp only [Client.arrive, Phase.steps]
    omega
  cases h with
  | @issue cl call left hlive hcall hleft =>
    obtain ⟨u, ph⟩ := cl
    cases ph with
    | ready n | waiting i n =>
      simp only [Phase.left] at hleft
      simp only [Phase.steps] at hcl ⊢
      omega
    | answered | crashed => cases hlive
  | again =>
    simp only [Phase.steps] at hcl ⊢
    omega
  | receive | go | refund => exact harrive _
  | answer | crash => exact Nat.zero_le _

/-- **A handler has at most seven steps left at its `await`.** Source: `lib/resilience/pg-policy.ts`,
`lib/resilience/payment-policy.ts` (`maxAttempts: 2`). Kind: L -/
theorem steps_of_reach (h : Reachable cfg s) :
    ∀ (c : ℕ) (cl : Client), s.clients[c]? = some cl → cl.phase.steps ≤ 7 := by
  refine h.invariant (P := fun s => ∀ (c : ℕ) (cl : Client), s.clients[c]? = some cl → cl.phase.steps ≤ 7)
    (fun s hinit c cl hcl => ?_) fun s a s' _ hP _ hst c cl' hcl' => ?_
  · simp [hinit.no_clients] at hcl
  · rcases (step_cases hst).client_cases hcl' with ⟨cl, hcl, ⟨rfl, -⟩ | hm⟩ | ⟨-, u, -, rfl⟩
    · exact hP c _ hcl
    · exact hm.steps_le (hP c cl hcl)
    · have hle := u.attempts_le
      simp only [Client.arrive, Phase.steps]
      omega

/-- **How many steps are left** depends on who runs. Source: none: infrastructure. Kind: L -/
theorem left_le (h : Reachable cfg s) : s.left ≤
    378 * s.clients.countP (·.phase.live) + 5 * s.store.execs.countP (!ended ·.pc) := by
  have hclients : (s.clients.map Client.left).sum ≤ 63 * s.clients.countP (·.phase.live) := by
    refine sum_map_le_countP fun cl hmem => ?_
    obtain ⟨c, hcl⟩ := List.getElem?_of_mem hmem
    have hsteps := steps_of_reach h c cl hcl
    have hgo := cl.task.toGo_le
    simp only [Client.left]
    split <;> omega
  have hstore : s.store.left ≤ 5 * s.store.execs.countP (!ended ·.pc) := by
    refine sum_map_le_countP fun e _ => ?_
    cases e.pc <;> simp [Pc.left, ended]
  simp only [left]
  omega

/-- Executions are in order, in every reachable pipeline. Source: none: infrastructure. Kind: L -/
theorem orderly_of_reach (h : Reachable cfg s) : s.store.Orderly := by
  refine Store.orderly_of_reach (h.simulate store (fun _ hinit => hinit.store_initial) ?_)
  intro s a s' _ _ hst
  rcases (step_cases hst).store_cases with heq | ⟨b, hb, -⟩
  · exact .inl heq
  · exact .inr ⟨b, trivial, hb⟩

/-- A call that a handler is to send may still be sent. Source: `lib/resilience/pg-policy.ts`,
`lib/resilience/payment-policy.ts` (`maxAttempts: 2`). Kind: L -/
theorem ready_of_reach (h : Reachable cfg s) :
    ∀ (c : ℕ) (cl : Client) (n : ℕ), s.clients[c]? = some cl → cl.phase = .ready n → 0 < n := by
  have harrive : ∀ (u : Task) (n : ℕ), (Client.arrive u).phase = .ready n → 0 < n := by
    intro u n hph
    cases hph
    exact u.attempts_pos
  refine h.invariant (P := fun s => ∀ (c : ℕ) (cl : Client) (n : ℕ), s.clients[c]? = some cl →
    cl.phase = .ready n → 0 < n) (fun s hinit c cl n hcl => ?_) fun s a s' _ hP _ hst c cl' n hcl' hph => ?_
  · simp [hinit.no_clients] at hcl
  · rcases (step_cases hst).client_cases hcl' with ⟨cl, hcl, ⟨rfl, -⟩ | hm⟩ | ⟨-, u, -, rfl⟩
    · exact hP c _ n hcl hph
    · cases hm with
      | again =>
        cases hph
        exact Nat.succ_pos _
      | receive | go | refund => exact harrive _ n hph
      | issue | answer | crash => cases hph
    · exact harrive u n hph

/-- A handler that is to take a step without the store can. Source: the routes of `app/api`. Kind: L -/
theorem exists_go (hrun : s.running c = some cl) (hcall : cl.task.call cfg = none) :
    ∃ a, s.prompted a = true ∧ (step cfg s a).isSome = true := by
  obtain ⟨u, ph⟩ := cl
  have hanswer : ∀ st, u.status = some st → ∃ a, s.prompted a = true ∧ (step cfg s a).isSome = true :=
    fun st hst => ⟨.answer c, rfl, by simp [step, answer, hrun, hst]⟩
  have hpublish : ∀ job, u.publishing = some job → ∃ a, s.prompted a = true ∧ (step cfg s a).isSome = true :=
    fun job hjob => ⟨.publish c true true, rfl, by simp [step, publish, hrun, hjob]⟩
  cases u with
  | ingress req pc =>
    cases pc with
    | start => exact ⟨.gate c true true, rfl, by simp [step, gate, hrun]⟩
    | publish job => exact hpublish job rfl
    | respond r => exact hanswer _ rfl
    | idempotencyCheck | createBooking | rollback | commitRefused | commitAccepted => cases hcall
  | worker d pc =>
    cases pc with
    | chaosGate => exact ⟨.chaos c none, rfl, by simp [step, chaos, hrun]⟩
    | refund p => exact ⟨.refund c, rfl, by simp [step, refund, hrun]⟩
    | respond r => exact hanswer _ rfl
    | _ => cases hcall
  | webhook cb pc =>
    cases pc with
    | respond st => exact hanswer _ rfl
    | insertDlq | release | commit => cases hcall
  | dlqRetry id pc =>
    cases pc with
    | publish job => exact hpublish job rfl
    | respond st => exact hanswer _ rfl
    | lookup | mark => cases hcall
  | sweeper pc =>
    cases pc with
    | respond st => exact hanswer _ rfl
    | sweep => cases hcall

/-- **A handler that runs can take a step**, or waits for an execution that has not ended. Source: the
routes of `app/api`. Kind: L -/
theorem exists_step (h : Reachable cfg s) (hcl : s.clients[c]? = some cl) (hlive : cl.phase.live = true) :
    (∃ a, s.prompted a = true ∧ (step cfg s a).isSome = true) ∨ ∃ e ∈ s.store.execs, ended e.pc = false := by
  have hrun : s.running c = some cl := running_eq_some.mpr ⟨hcl, hlive⟩
  cases hcall : cl.task.call cfg with
  | none => exact .inl (exists_go hrun hcall)
  | some call =>
    obtain ⟨t, ph⟩ := cl
    dsimp only at hcall
    cases ph with
    | answered | crashed => cases hlive
    | ready n =>
      obtain ⟨n, rfl⟩ := Nat.exists_eq_succ_of_ne_zero (ready_of_reach h c _ n hcl rfl).ne'
      exact .inl ⟨.issue c, by simp [prompted, unsent, hcl], by simp [step, issue, hrun, hcall, Phase.left]⟩
    | waiting i n =>
      obtain ⟨e, he, hsame, -⟩ := (inv_of_reach h).waits c t i n hcl
      obtain rfl := Option.some.inj (hcall.symm.trans hsame)
      cases hpc : e.pc with
      | done r =>
        -- the reply is one of the call the handler awaits
        have hreply : e.call.replies r = true := by
          have hvisits := (orderly_of_reach h).visits i e he
          rwa [hpc] at hvisits
        have htakes : ∀ now, (t.onReply cfg now r).isSome = true := fun now => t.isSome_onReply hcall hreply
        refine .inl ⟨.receive c, rfl, ?_⟩
        obtain ⟨call, client, now, pc⟩ := e
        cases hpc
        simp only [step, receive, hcl, he]
        split
        · rfl
        · simpa using htakes s.store.now
      | failed =>
        have hun : s.unanswered c = true := by simp [unanswered, hcl, he, hpc]
        exact .inl ⟨.throw c, hun, by simp [step, throw, hrun, hcall]⟩
      | _ => exact .inr ⟨e, List.mem_of_getElem? he, by simp [hpc, ended]⟩

/-- Who has answered has a status. Source: none: infrastructure. Kind: L -/
theorem status_of_reach (h : Reachable cfg s) : ∀ (c : ℕ) (cl : Client), s.clients[c]? = some cl →
    cl.phase = .answered → ∃ st, cl.task.status = some st := by
  refine h.invariant (P := fun s => ∀ (c : ℕ) (cl : Client), s.clients[c]? = some cl →
    cl.phase = .answered → ∃ st, cl.task.status = some st) (fun s hinit c cl hcl => ?_)
    fun s a s' _ hP _ hst c cl' hcl' hph => ?_
  · simp [hinit.no_clients] at hcl
  · rcases (step_cases hst).client_cases hcl' with ⟨cl, hcl, ⟨rfl, -⟩ | hm⟩ | ⟨-, u, -, rfl⟩
    · exact hP c _ hcl hph
    · cases hm with
      | answer _ hanswer => exact ⟨_, hanswer⟩
      | issue | again | receive | go | refund | crash => cases hph
    · cases hph

/-- A handler dies of a crash only. Source: none: infrastructure. Kind: L -/
theorem Stepped.not_crashed (hs : Stepped cfg s a s') (ha : a ≠ .crash c) (hcl : s.clients[c]? = some cl)
    (hph : cl.phase ≠ .crashed) : ∃ cl', s'.clients[c]? = some cl' ∧ cl'.phase ≠ .crashed := by
  obtain ⟨cl', hcl', ⟨rfl, -⟩ | hm⟩ := hs.client_next hcl
  · exact ⟨cl', hcl', hph⟩
  · refine ⟨cl', hcl', ?_⟩
    cases hm with
    | crash => exact absurd rfl ha
    | issue | again | receive | go | refund | answer => simp [Client.arrive]

end steps

/-! ## The end -/

section ending

variable {cfg : Config} {s t : Sys} {as : List Action}

/-- The two readings of the end of an execution. Source: none: infrastructure. Kind: L -/
theorem ended_iff {pc : Pc} : ended pc = true ↔ Store.atEnd pc := by
  cases pc <;> simp [ended, Store.atEnd]

/-- **Nothing is left to do exactly when nothing runs.** Source: the routes of `app/api`, the stored
functions. Kind: L -/
theorem stuck_iff_idle (h : Reachable cfg s) : (∀ a, s.prompted a = true → step cfg s a = none) ↔
    (∀ e ∈ s.store.execs, ended e.pc = true) ∧ ∀ cl ∈ s.clients, cl.phase.live = false := by
  refine ⟨fun hstuck => ?_, fun ⟨hended, hidle⟩ a ha => ?_⟩
  · have hended : ∀ e ∈ s.store.execs, ended e.pc = true := by
      intro e he
      obtain ⟨i, he⟩ := List.getElem?_of_mem he
      refine ended_iff.mpr ((orderly_of_reach h).ended (fun a ha => ?_) he)
      have hnone := hstuck (.store a) ha
      cases a with
      | begin | tick | abort => cases ha
      | start | exec | commit => exact Option.map_eq_none_iff.mp hnone
    refine ⟨hended, fun cl hmem => ?_⟩
    obtain ⟨c, hcl⟩ := List.getElem?_of_mem hmem
    by_contra hlive
    rcases exists_step h hcl (Bool.not_eq_false _ ▸ hlive) with ⟨a, ha, hsome⟩ | ⟨e, he, hopen⟩
    · rw [hstuck a ha] at hsome
      cases hsome
    · rw [hended e he] at hopen
      cases hopen
  · have hdead : ∀ {c : ℕ} {cl : Client}, s.clients[c]? = some cl → ¬ cl.phase.live = true := fun hcl hlive =>
      Bool.false_ne_true ((hidle _ (List.mem_of_getElem? hcl)).symm.trans hlive)
    have hrun : ∀ {c : ℕ} {cl : Client}, ¬ s.running c = some cl := fun hcl =>
      hdead (running_eq_some.mp hcl).1 (running_eq_some.mp hcl).2
    refine Option.eq_none_iff_forall_ne_some.mpr fun s' hst => ?_
    cases step_cases hst with
    | store hno hstore =>
      obtain ⟨e, he, hopen⟩ := (Store.step_cases hstore).exists_open ha
      exact hopen (ended_iff.mp (hended e he))
    | start ht => cases ht <;> cases ha
    | issue hcl | refund hcl | answer hcl | crash hcl | go hcl => exact hrun hcl
    | again hcl | receive hcl => exact hdead hcl rfl

/-- **Every handler ends.** Along every run from a reachable pipeline the handlers and the calls take at
most 378 steps for each handler that runs or is started, and five for each call that is under way, in
whatever order and whatever fails. A step that needs no accident is left until every call has ended and no
handler runs; then every handler that was not killed has answered. Source: the routes of `app/api`,
`lib/resilience/pg-policy.ts`, `lib/resilience/payment-policy.ts`, the stored functions. Kind: P -/
theorem handlers_end (h : Reachable cfg s) (hrun : run (step cfg) s as = some t) :
    as.countP Action.works ≤ 378 * (s.clients.countP (·.phase.live) + as.countP Action.starts) +
        5 * s.store.execs.countP (!ended ·.pc) ∧
      ((∀ a, t.prompted a = true → step cfg t a = none) ↔
        (∀ e ∈ t.store.execs, ended e.pc = true) ∧ ∀ cl ∈ t.clients, cl.phase.live = false) ∧
      ((∀ a, t.prompted a = true → step cfg t a = none) →
        ∀ c cl, s.clients[c]? = some cl → cl.phase.live = true → .crash c ∉ as →
          ∃ cl' st, t.clients[c]? = some cl' ∧ cl'.phase = .answered ∧ cl'.task.status = some st) := by
  have hpaid : ∀ s a s', True → step cfg s a = some s' →
      s'.left + (if a.works then 1 else 0) ≤ s.left + if a.starts then 378 else 0 :=
    fun _ _ _ _ hst => (step_cases hst).left_le
  have hcount := countP_add_le_of_run (fun _ _ _ _ _ => trivial) hpaid trivial hrun
  have hleft := left_le h
  have hreach := h.run hrun
  refine ⟨by omega, stuck_iff_idle hreach, fun hstuck c cl hcl hlive hcrash => ?_⟩
  obtain ⟨-, hidle⟩ := (stuck_iff_idle hreach).mp hstuck
  have hkeep : ∀ s a s', (∃ cl : Client, s.clients[c]? = some cl ∧ cl.phase ≠ .crashed) → a ≠ .crash c →
      step cfg s a = some s' → ∃ cl : Client, s'.clients[c]? = some cl ∧ cl.phase ≠ .crashed := by
    rintro s a s' ⟨cl, hcl, hph⟩ ha hst
    exact (step_cases hst).not_crashed ha hcl hph
  have hno : ∀ a ∈ as, a ≠ .crash c := by
    rintro a ha rfl
    exact hcrash ha
  have hstart : cl.phase ≠ .crashed := by
    intro hph
    simp [hph, Phase.live] at hlive
  obtain ⟨cl', hcl', hph⟩ := invariant_of_run hkeep ⟨cl, hcl, hstart⟩ hno hrun
  have hans : cl'.phase = .answered := by
    have hdead := hidle cl' (List.mem_of_getElem? hcl')
    cases hphase : cl'.phase with
    | answered => rfl
    | crashed => exact absurd hphase hph
    | ready | waiting => simp [hphase, Phase.live] at hdead
  obtain ⟨st, hst⟩ := status_of_reach hreach c cl' hcl' hans
  exact ⟨cl', st, hcl', hans, hst⟩

/-- From the published message on, the delivery and the request end. Source: none: infrastructure. Kind: D -/
def winding : List Action :=
  callReturns 0 2 1 ++ [.answer 0, .chaos 1 none] ++ callReturns 1 3 1 ++ callReturns 1 4 2 ++
    callReturns 1 5 2 ++ callReturns 1 6 3 ++ callReturns 1 7 1 ++ [.answer 1]

/-- A request and a delivery that run at once end within the bound, both with an answer. Source: none:
infrastructure. Kind: L -/
theorem handlers_end_winding : ∃ s t : Sys, run (step config) s winding = some t ∧
    winding.countP Action.works ≤ 378 * (s.clients.countP (·.phase.live) + winding.countP Action.starts) +
        5 * s.store.execs.countP (!ended ·.pc) ∧
      (∀ a, t.prompted a = true → step config t a = none) ∧
      ∀ c cl, s.clients[c]? = some cl → cl.phase.live = true → .crash c ∉ winding →
        ∃ cl' st, t.clients[c]? = some cl' ∧ cl'.phase = .answered ∧ cl'.task.status = some st := by
  have hrun : (run (step config) opening (booking ++ [.deliver 0 0])).map
      (fun s => (run (step config) s winding).any atRest) = some true := by decide +kernel
  obtain ⟨s, hreach, hrest⟩ := reach_of_run initial_opening hrun
  obtain ⟨t, ht, hrest⟩ := (Option.any_eq_true ..).mp hrest
  obtain ⟨hquiet, -⟩ := quiescent_of_atRest hrest
  obtain ⟨hbound, hstuck, hanswered⟩ := handlers_end hreach ht
  have hnone := hstuck.mpr ⟨hquiet.no_exec, hquiet.no_handler⟩
  exact ⟨s, t, ht, hbound, hnone, hanswered hnone⟩

end ending

end Sys

end TrainsAndTracks
