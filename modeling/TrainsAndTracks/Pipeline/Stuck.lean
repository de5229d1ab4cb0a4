import TrainsAndTracks.Pipeline.Refusal

/-!
# Keys that are still processing

The row of a key is inserted before the booking, the message and the response, each by a statement of its
own. While the row has no response every retry of the request is answered `409`, so each way out of the
handler has to leave a response, or a message whose delivery will.

* `attended` — the key has a response, or a message for it is in flight.
* `Tended` — the steps of one request that leave its key attended. What leads out: a `createBooking` that
  throws, which stores nothing; a response that is not stored while nothing is in flight; and a message that
  ends without a response.
* `stuck_key` — a request for a train there is not: its key is answered `409` from then on.
* `never_stuck` — in tended runs the key of an answered request is attended.
-/

namespace TrainsAndTracks

open Found

open Store (JobOk)

/-! ## Attended keys -/

namespace Store

/-- The row of the key has a response. Source: `lib/idempotency/postgres-authority.ts` `checkIdempotency`.
Kind: D. Fidelity: exact -/
def answered (σ : Store) (k : IdempotencyKey) : Bool :=
  (σ.idempotencyKeys.find? k).any fun row => row.responseStatus.isSome && row.responseBody.isSome

end Store

/-- The message is to be delivered again, or its failure callback is due.
Source: `infra/qstash/publisher.ts` (`retries: 3`, `failureCallback`). Kind: D -/
def MessageState.inFlight : MessageState → Bool
  | active _ | failing .. => true
  | acked | closed .. => false

/-- A message about the key that is in flight. Source: `infra/qstash/publisher.ts`. Kind: D -/
def Message.flies (k : IdempotencyKey) (msg : Message) : Bool :=
  msg.payload.idempotencyKey == k && msg.state.inFlight

/-- The request holds the key `k` and has not tried to store its response for the last time. Source:
`app/api/book/route.ts` (steps 8 to 10). Kind: D -/
def IngressPc.stores (k : IdempotencyKey) : IngressPc → Bool
  | .createBooking k' _ => k' == k
  | .publish job | .rollback job | .commitRefused job | .commitAccepted job => job.idempotencyKey == k
  | .start | .idempotencyCheck .. | .respond _ => false

namespace Task

/-- The request creates its booking. Source: `app/api/book/route.ts` (step 8). Kind: D -/
def creates : Task → Bool
  | ingress _ (.createBooking ..) => true
  | _ => false

/-- The request stores its response. Source: `app/api/book/route.ts` (publish-failure branch, step 10).
Kind: D -/
def commits : Task → Bool
  | ingress _ (.commitRefused _) | ingress _ (.commitAccepted _) => true
  | _ => false

/-- The message about the key `k` that an answer of the handler ends although nobody may have stored a
response: the delivery found its booking terminal, or the failure callback is done, its clean-up having
succeeded or not. Source: `app/api/worker/allocate/route.ts` (step 3),
`app/api/webhooks/qstash-failure/route.ts`. Kind: D -/
def leaves (k : IdempotencyKey) : Task → Option MessageId
  | worker d (.respond (.alreadyTerminal ..)) => if d.job.idempotencyKey = k then some d.message else none
  | webhook cb (.respond 200) => if cb.payload.idempotencyKey = k then some cb.sourceMessageId else none
  | _ => none

end Task

namespace Sys

/-- A message about the key is in flight. Source: `infra/qstash/publisher.ts`. Kind: D -/
def inFlight (s : Sys) (k : IdempotencyKey) : Bool := s.messages.any (·.flies k)

/-- The key has a response, or a message about it is in flight. Source: `app/api/book/route.ts` (step 7,
`idempotency_key_replaying`). Kind: D -/
def attended (s : Sys) (k : IdempotencyKey) : Bool := s.store.answered k || s.inFlight k

/-- Handler `c` is a request that has come to its answer. Source: `app/api/book/route.ts`. Kind: D -/
def responds (s : Sys) (c : ℕ) : Bool :=
  match s.clients[c]? with
  | some ⟨.ingress _ (.respond _), ph⟩ => ph != .crashed
  | _ => false

/-- A step that leaves the key `k` of request `c` attended. Its `createBooking` does not throw. Its response
is stored, or fails to be while the key is attended. And once it has come to its answer, a message about the
key ends without storing a response only if there is one or another message is in flight. Source:
`app/api/book/route.ts` (steps 8 to 10), `app/api/worker/allocate/route.ts` (step 3),
`app/api/webhooks/qstash-failure/route.ts`. Kind: D -/
def Tended (c : ℕ) (k : IdempotencyKey) (s : Sys) : Action → Prop
  | .throw c' => c' = c → ∀ cl ∈ s.clients[c]?,
    cl.task.creates = false ∧ (cl.task.commits = true → s.attended k = true)
  | .answer c' => s.responds c = true → ∀ cl ∈ s.running c', ∀ m ∈ cl.task.leaves k,
    s.store.answered k = true ∨ (s.messages.eraseIdx m).any (·.flies k) = true
  | _ => True

instance (c : ℕ) (k : IdempotencyKey) (s : Sys) (a : Action) : Decidable (Tended c k s a) :=
  match a with
  | .throw c' => inferInstanceAs (Decidable (c' = c → ∀ cl ∈ s.clients[c]?,
    cl.task.creates = false ∧ (cl.task.commits = true → s.attended k = true)))
  | .answer c' => inferInstanceAs (Decidable (s.responds c = true → ∀ cl ∈ s.running c',
    ∀ m ∈ cl.task.leaves k,
      s.store.answered k = true ∨ (s.messages.eraseIdx m).any (·.flies k) = true))
  | .store _ | .post _ | .deliver .. | .failureCallback _ | .retryDlq _ | .sweep | .issue _
  | .receive _ | .gate .. | .publish .. | .chaos .. | .refund _ | .crash _ => .isTrue trivial

/-! ## What a stored response knows -/

section answered

variable {cfg : Config} {s s' : Sys} {a : Action} {c : ℕ} {k : IdempotencyKey}

/-- A key with a cached response. Source: `lib/idempotency/postgres-authority.ts` `checkIdempotency`.
Kind: L -/
theorem answered_iff : s.store.answered k = true ↔ ∃ row st body,
    s.store.idempotencyKeys.find? k = some row ∧ row.responseStatus = some st ∧
      row.responseBody = some body := by
  simp only [Store.answered, Option.any_eq_true, Bool.and_eq_true, Option.isSome_iff_exists]
  constructor
  · rintro ⟨row, hrow, ⟨st, hst⟩, body, hbody⟩
    exact ⟨row, st, body, hrow, hst, hbody⟩
  · rintro ⟨row, st, body, hrow, hst, hbody⟩
    exact ⟨row, hrow, ⟨st, hst⟩, body, hbody⟩

/-- A key with a message under way. Source: `infra/qstash/publisher.ts`. Kind: L -/
theorem inFlight_iff : s.inFlight k = true ↔ ∃ (m : ℕ) (msg : Message), s.messages[m]? = some msg ∧
    msg.payload.idempotencyKey = k ∧ msg.state.inFlight = true := by
  simp only [inFlight, List.any_eq_true, Message.flies, Bool.and_eq_true, beq_iff_eq]
  constructor
  · rintro ⟨msg, hmsg, hk, hstate⟩
    obtain ⟨m, hm⟩ := List.getElem?_of_mem hmsg
    exact ⟨m, msg, hm, hk, hstate⟩
  · rintro ⟨m, msg, hm, hk, hstate⟩
    exact ⟨msg, List.mem_of_getElem? hm, hk, hstate⟩

/-- A response stays. Source: migration `150_fn_write_idempotency_response`. Kind: L -/
theorem answered_step (hs : Stepped cfg s a s') (h : s.store.answered k = true) :
    s'.store.answered k = true := by
  rcases hs.store_cases with heq | ⟨x, hx, -⟩
  · rw [heq]
    exact h
  · obtain ⟨row, st, body, hrow, hst, hbody⟩ := answered_iff.mp h
    refine answered_iff.mpr ?_
    obtain ⟨row', hrow', rfl | ⟨_, _, _, st₁, body₁, -, -, -, -, rfl⟩⟩ :=
      Store.key_next (Store.step_cases hx) hrow
    · exact ⟨row', st, body, hrow', hst, hbody⟩
    · exact ⟨_, st₁, body₁, hrow', rfl, rfl⟩

/-- A response that was written is stored. Source: migration `150_fn_write_idempotency_response`. Kind: D -/
def WritesOk (s : Sys) : Prop :=
  ∀ (i : ℕ) (e : Exec) k st body, s.store.execs[i]? = some e → e.call = .writeIdempotencyResponse k st body →
    (∃ r, e.pc = .ret r ∨ e.pc = .done r) → s.store.answered k = true

/-- **A response that was written is stored**, in every run. Source: migration
`150_fn_write_idempotency_response`. Kind: L -/
theorem writesOk_of_reach (h : Reachable cfg s) : s.WritesOk := by
  refine h.invariant (P := WritesOk) (fun s hinit i e _ _ _ he => absurd he hinit.store_initial.no_exec)
    fun s a s' hreach hP _ hstep i e' k st body he' hcall hpc => ?_
  have hinv := inv_of_reach hreach
  have hs := step_cases hstep
  rcases hs.store_cases with heq | ⟨x, hx, -⟩
  · rw [heq] at he' ⊢
    exact hP i e' k st body he' hcall hpc
  · have hx := Store.step_cases hx
    rcases hx.exec_new he' with ⟨e, he⟩ | ⟨_, _, -, -, rfl⟩
    · obtain ⟨e₁, he₁, hsame, -⟩ := hx.exec_old he
      obtain rfl := Option.eq_some_unique he' he₁
      obtain ⟨-, b, r, hr, rfl⟩ :=
        Store.answersOk_of_call (answersOk_of_reach hreach i e he) (hsame.symm.trans hcall)
      obtain ⟨row, hrow⟩ := hinv.store.keyed b r hr
      rcases hx.written hrow he' hcall hpc with ⟨e₀, he₀, hsame₀, hpc₀⟩ | hwritten
      · exact answered_step hs (hP i e₀ _ st body he₀ (hsame₀.trans hcall) hpc₀)
      · exact answered_iff.mpr ⟨_, st, body, hwritten, rfl, rfl⟩
    · obtain ⟨r, hpc | hpc⟩ := hpc <;> cases hpc

/-- A delivery that answers with a body has stored it. Source: `app/api/worker/allocate/route.ts` (steps 5
to 8). Kind: D -/
def DeliveredOk (s : Sys) : Task → Prop
  | .worker d (.respond (.ok _)) => s.store.answered d.job.idempotencyKey = true
  | _ => True

/-- A delivery that is answered from the store. Source: `app/api/worker/allocate/route.ts` (steps 5 to 8).
Kind: L -/
theorem deliveredOk_reply (hinv : Inv cfg s) (hwrites : s.WritesOk) {i left : ℕ} {t t' : Task} {e : Exec}
    {r : Reply} (hcl : s.clients[c]? = some ⟨t, .waiting i left⟩) (he : s.store.execs[i]? = some e)
    (hpc : e.pc = .done r) (ht : t.onReply cfg s.store.now r = some t') : s.DeliveredOk t' := by
  obtain ⟨e', he', hcall, -⟩ := hinv.waits c t i left hcl
  obtain rfl := Option.eq_some_unique he he'
  cases t with
  | worker d pc =>
    obtain ⟨pc', hreply, rfl⟩ := Option.map_eq_some_iff.mp ht
    have hok : WorkerOk s.store d.job pc := (hinv.tasks c _ hcl).2.2
    have hstored : ∀ st body, e.call = .writeIdempotencyResponse d.job.idempotencyKey st body →
        s.store.answered d.job.idempotencyKey = true := fun st body hwrite =>
      hwrites i e _ st body he hwrite ⟨r, .inr hpc⟩
    cases WorkerPc.replied hreply with
    | soldOutCommitted | expiredCommitted | confirmedCommitted =>
      exact hstored _ _ (Option.some.inj hcall).symm
    | @failedCommitted f =>
      have hanswer : f.answer.status = 489 := hok.1
      generalize f.answer = answer at hanswer
      cases answer with
      | ok => cases hanswer
      | _ => trivial
    | @retryReleased answer =>
      have hanswer : answer.status = 500 := hok
      cases answer with
      | ok => cases hanswer
      | _ => trivial
    | @refused price seat code =>
      show s.DeliveredOk (.worker d (WorkerPc.onPaymentError d.retried code))
      unfold WorkerPc.onPaymentError
      split <;> trivial
    | _ => trivial
  | ingress | webhook | dlqRetry | sweeper =>
    obtain ⟨pc', -, rfl⟩ := Option.map_eq_some_iff.mp ht
    trivial

/-- A delivery that goes on without the store answers with no body. Source:
`app/api/worker/allocate/route.ts` `handler`. Kind: L -/
theorem deliveredOk_goes {t t' : Task} {job : Option AllocateJobPayload} (hgoes : Goes cfg c a t t' job) :
    s.DeliveredOk t' := by
  have hthrow : ∀ t : Task, s.DeliveredOk t.onThrow := by
    intro t
    cases t with
    | worker d pc =>
      cases pc with
      | charge =>
        show s.DeliveredOk (.worker d (WorkerPc.onOtherError d.retried))
        unfold WorkerPc.onOtherError
        split <;> trivial
      | _ => trivial
    | _ => trivial
  cases hgoes with
  | throw => exact hthrow _
  | publishLost | publishFailed => exact hthrow _
  | published hjob => rcases publishing_cases hjob with ⟨req, rfl⟩ | ⟨id, rfl⟩ <;> trivial
  | gate => trivial
  | @chaosPassed d =>
    show s.DeliveredOk (.worker d (.parse d.job))
    unfold WorkerPc.parse
    split <;> trivial
  | @chaosFailed d mode answer hanswer =>
    cases answer with
    | ok => cases hanswer
    | _ => trivial

/-- **A delivery that answers with a body has stored it**, in every run. Source:
`app/api/worker/allocate/route.ts` (steps 5 to 8). Kind: L -/
theorem delivered_of_reach (h : Reachable cfg s) :
    ∀ (c : ℕ) (cl : Client), s.clients[c]? = some cl → s.DeliveredOk cl.task := by
  refine h.invariant
    (P := fun s => ∀ (c : ℕ) (cl : Client), s.clients[c]? = some cl → s.DeliveredOk cl.task)
    (fun s hinit c cl hcl => ?_) fun s a s' hreach hP _ hstep => ?_
  · rw [hinit.no_clients] at hcl
    cases hcl
  have hs := step_cases hstep
  have hkeep : ∀ t, s.DeliveredOk t → s'.DeliveredOk t := by
    intro t ht
    unfold DeliveredOk at ht ⊢
    split
    · exact answered_step hs ht
    · trivial
  refine hs.forall_tasks (P := DeliveredOk) hP hkeep (fun t ht => ?_)
    (fun c i left t e r t' hcl he hpc ht _ => hkeep t'
      (deliveredOk_reply (inv_of_reach hreach) (writesOk_of_reach hreach) hcl he hpc ht))
    (fun _ _ _ _ _ hgoes _ => deliveredOk_goes hgoes) fun _ _ _ => trivial
  cases ht <;> trivial

end answered

/-! ## Messages in flight -/

section flights

variable {cfg : Config} {s s' : Sys} {a : Action} {c c' : ℕ} {k : IdempotencyKey}

/-- Only an answer 200 ends a message. Source: `infra/qstash/publisher.ts`. Kind: L -/
theorem settled_inFlight {t : Task} {status : Option ℕ} {m : MessageId} {ms : MessageState}
    (hst : status ≠ some 200) (h : ms.inFlight = true) : (settled t status m ms).inFlight = true := by
  unfold settled
  split
  · split
    · cases ms with
      | active n =>
        simp only [MessageState.onAnswer, hst, if_false]
        repeat' split
        all_goals rfl
      | _ => exact h
    · exact h
  · rw [if_neg fun hm => hst hm.2]
    exact h
  · exact h

/-- **A message in flight** stays in flight, unless a handler ends it with an answer 200. Source:
`infra/qstash/publisher.ts`. Kind: L -/
theorem inFlight_step (hs : Stepped cfg s a s') {m : ℕ} {msg : Message} (hmsg : s.messages[m]? = some msg)
    (hk : msg.payload.idempotencyKey = k) (hflies : msg.state.inFlight = true) :
    s'.inFlight k = true ∨ ∃ (c' : ℕ) (cl : Client), a = .answer c' ∧ s.running c' = some cl ∧
      cl.task.status = some 200 ∧ ((∃ d pc, cl.task = .worker d pc ∧ d.message = m) ∨
        ∃ cb pc, cl.task = .webhook cb pc ∧ cb.sourceMessageId = m) := by
  obtain ⟨msg', hmsg', hpayload⟩ := hs.message_stays hmsg
  have hstays : msg'.state.inFlight = true → s'.inFlight k = true := fun h =>
    inFlight_iff.mpr ⟨m, msg', hmsg', by rw [hpayload, hk], h⟩
  rcases hs.message_cases hmsg' with ⟨msg₀, hmsg₀, -, hst | ⟨t, status, hends, hst⟩⟩ | ⟨_, _, _, -, -, rfl⟩
  · obtain rfl := Option.eq_some_unique hmsg hmsg₀
    exact .inl (hstays (by rw [hst]; exact hflies))
  · obtain rfl := Option.eq_some_unique hmsg hmsg₀
    by_cases h200 : status = some 200
    · subst h200
      generalize hstatus : some 200 = status at hends
      cases hends with
      | crash => cases hstatus
      | @answer c' cl st hcl hst' =>
        cases hstatus
        by_cases hself : (∃ d pc, cl.task = .worker d pc ∧ d.message = m) ∨
            ∃ cb pc, cl.task = .webhook cb pc ∧ cb.sourceMessageId = m
        · exact .inr ⟨c', cl, rfl, hcl, hst', hself⟩
        · refine .inl (hstays ?_)
          have hsame : settled cl.task (some 200) m msg.state = msg.state := by
            unfold settled
            split
            · rename_i d pc htask
              exact if_neg fun hm => hself (.inl ⟨d, pc, htask, hm⟩)
            · rename_i cb pc htask
              exact if_neg fun hm => hself (.inr ⟨cb, pc, htask, hm.1⟩)
            · rfl
          rw [hst, hsame]
          exact hflies
    · exact .inl (hstays (by rw [hst]; exact settled_inFlight h200 hflies))
  · exact .inl (hstays rfl)

/-- A message in flight stays so while others end. Source: `infra/qstash/publisher.ts`. Kind: L -/
theorem inFlight_of_other (hs : Stepped cfg s (.answer c') s') {cl : Client} {m : MessageId}
    (hcl : s.running c' = some cl)
    (hends : ∀ m', (∃ d pc, cl.task = .worker d pc ∧ d.message = m') ∨
      (∃ cb pc, cl.task = .webhook cb pc ∧ cb.sourceMessageId = m') → m' = m)
    (h : (s.messages.eraseIdx m).any (·.flies k) = true) : s'.inFlight k = true := by
  obtain ⟨msg, hmem, hflies⟩ := List.any_eq_true.mp h
  obtain ⟨i, hne, hmsg⟩ := List.mem_eraseIdx_iff_getElem?.mp hmem
  obtain ⟨hk, hflies⟩ := (Bool.and_eq_true _ _).mp hflies
  rcases inFlight_step hs hmsg (beq_iff_eq.mp hk) hflies with hstays | ⟨c'', cl', hc, hcl', -, hself⟩
  · exact hstays
  · cases hc
    obtain rfl := Option.eq_some_unique hcl hcl'
    exact absurd (hends i hself) hne

/-- **An attended key stays attended**, unless a message about it ends without a response. Source:
`app/api/worker/allocate/route.ts` (step 3), `app/api/webhooks/qstash-failure/route.ts`. Kind: L -/
theorem attended_step (hreach : Reachable cfg s) (hs : Stepped cfg s a s') (h : s.attended k = true)
    (hends : ∀ c', a = .answer c' → ∀ cl ∈ s.running c', ∀ m ∈ cl.task.leaves k,
      s.store.answered k = true ∨ (s.messages.eraseIdx m).any (·.flies k) = true) :
    s'.attended k = true := by
  have hinv := inv_of_reach hreach
  refine (Bool.or_eq_true _ _).mpr ?_
  rcases (Bool.or_eq_true _ _).mp h with hanswered | hflies
  · exact .inl (answered_step hs hanswered)
  obtain ⟨m, msg, hmsg, hk, hflies⟩ := inFlight_iff.mp hflies
  rcases inFlight_step hs hmsg hk hflies with hstays | ⟨c', cl, rfl, hcl, h200, hself⟩
  · exact .inr hstays
  have hends := hends c' rfl cl hcl
  obtain ⟨hcl', -⟩ := running_eq_some.mp hcl
  obtain ⟨t, ph⟩ := cl
  -- the message that ends is about the key
  have hleaves : t.leaves k = some m → s'.store.answered k = true ∨ s'.inFlight k = true := by
    intro hm
    rcases hends m hm with hanswered | hother
    · exact .inl (answered_step hs hanswered)
    · refine .inr (inFlight_of_other hs hcl (fun m' hm' => ?_) hother)
      rcases hself with ⟨d, pc, rfl, rfl⟩ | ⟨cb, pc, rfl, rfl⟩
      · rcases hm' with ⟨_, _, heq, rfl⟩ | ⟨_, _, heq, -⟩ <;> cases heq
        rfl
      · rcases hm' with ⟨_, _, heq, -⟩ | ⟨_, _, heq, rfl⟩ <;> cases heq
        rfl
  rcases hself with ⟨d, pc, rfl, rfl⟩ | ⟨cb, pc, rfl, rfl⟩
  · obtain ⟨msg', hmsg', hjob⟩ := (hinv.tasks c' _ hcl').2.1
    obtain rfl := Option.eq_some_unique hmsg hmsg'
    rw [hjob] at hk
    cases pc with
    | respond r =>
      cases r with
      | ok body =>
        have hstored : s.store.answered d.job.idempotencyKey = true := delivered_of_reach hreach c' _ hcl'
        rw [hk] at hstored
        exact .inl (answered_step hs hstored)
      | alreadyTerminal => exact hleaves (if_pos hk)
      | nonRetryable | transientError | uncaught => cases h200
    | _ => cases h200
  · obtain ⟨msg', hmsg', hpayload⟩ := (hinv.tasks c' _ hcl').2.1
    obtain rfl := Option.eq_some_unique hmsg hmsg'
    rw [hpayload] at hk
    cases pc with
    | respond st =>
      cases h200
      exact hleaves (if_pos hk)
    | _ => cases h200

end flights

/-! ## One request -/

section request

variable {cfg : Config} {s s' : Sys} {a : Action} {c : ℕ} {k : IdempotencyKey}

/-- Where request `c` stands: it has yet to store its response, or it has died, or it has come to its answer
and its key is attended. Source: `app/api/book/route.ts` (steps 8 to 10). Kind: D -/
inductive Going (c : ℕ) (k : IdempotencyKey) (s : Sys) : Prop
  | storing {req pc ph} (hcl : s.clients[c]? = some ⟨.ingress req pc, ph⟩) (hlive : ph.live = true)
      (hpc : pc.stores k = true)
  | dead {t} (hcl : s.clients[c]? = some ⟨t, .crashed⟩)
  | done {req r ph} (hcl : s.clients[c]? = some ⟨.ingress req (.respond r), ph⟩) (hph : ph ≠ .crashed)
      (hk : s.attended k = true)

/-- A request that has come to its answer. Source: `app/api/book/route.ts`. Kind: L -/
theorem responds_of_respond {req : PostRequest} {r : IngressResponse} {ph : Phase}
    (hcl : s.clients[c]? = some ⟨.ingress req (.respond r), ph⟩) (hph : ph ≠ .crashed) :
    s.responds c = true := by
  unfold responds
  rw [hcl]
  exact bne_iff_ne.mpr hph

/-- A reply takes a request to its next `await`, or its response is stored. Source:
`app/api/book/route.ts` (steps 8 to 10). Kind: L -/
theorem stores_of_reply (hinv : Inv cfg s) (hwrites : s.WritesOk) {i left : ℕ} {req : PostRequest}
    {pc pc' : IngressPc} {e : Exec} {r : Reply}
    (hcl : s.clients[c]? = some ⟨.ingress req pc, .waiting i left⟩) (hpc : pc.stores k = true)
    (he : s.store.execs[i]? = some e) (hdone : e.pc = .done r) (hreply : pc.onReply cfg r = some pc') :
    pc'.stores k = true ∨ (∃ resp, pc' = .respond resp) ∧ s.store.answered k = true := by
  obtain ⟨e', he', hcall, -⟩ := hinv.waits c _ i left hcl
  obtain rfl := Option.eq_some_unique he he'
  cases IngressPc.replied hreply with
  | created => exact .inl hpc
  | rolledBack => exact .inl hpc
  | refused =>
    have hk := beq_iff_eq.mp hpc
    refine .inr ⟨⟨_, rfl⟩, ?_⟩
    rw [← hk]
    exact hwrites i e _ _ _ he (Option.some.inj hcall).symm ⟨_, .inr hdone⟩
  | accepted =>
    have hk := beq_iff_eq.mp hpc
    refine .inr ⟨⟨_, rfl⟩, ?_⟩
    rw [← hk]
    exact hwrites i e _ _ _ he (Option.some.inj hcall).symm ⟨_, .inr hdone⟩
  | fresh | mismatch | replay | inflight => cases hpc

/-- An exception takes a request to its next `await`, or its response is not stored. Source:
`app/api/book/route.ts` (`catch` blocks). Kind: L -/
theorem stores_onThrow {req : PostRequest} {pc : IngressPc} (hpc : pc.stores k = true)
    (hcreates : (Task.ingress req pc).creates = false) :
    pc.onThrow.stores k = true ∨
      (∃ resp, pc.onThrow = .respond resp) ∧ (Task.ingress req pc).commits = true := by
  cases pc with
  | createBooking => cases hcreates
  | publish => exact .inl hpc
  | rollback => exact .inl hpc
  | commitRefused => exact .inr ⟨⟨_, rfl⟩, rfl⟩
  | commitAccepted => exact .inr ⟨⟨_, rfl⟩, rfl⟩
  | start | idempotencyCheck | respond => cases hpc

/-- **A step of the request.** Source: `app/api/book/route.ts` (steps 8 to 10). Kind: L -/
theorem Going.moves (hreach : Reachable cfg s) (hs : Stepped cfg s a s') (hC : Tended c k s a)
    {req : PostRequest} {pc : IngressPc} {ph : Phase} {cl' : Client}
    (hcl : s.clients[c]? = some ⟨.ingress req pc, ph⟩) (hcl' : s'.clients[c]? = some cl')
    (hpc : pc.stores k = true) (hm : Moves cfg s c a ⟨.ingress req pc, ph⟩ cl') : Going c k s' := by
  generalize hold : (⟨.ingress req pc, ph⟩ : Client) = cl at hm
  cases hm with
  | issue =>
    subst hold
    exact .storing hcl' rfl hpc
  | again =>
    cases hold
    exact .storing hcl' rfl hpc
  | @receive t i left e r t' he hdone ht =>
    cases hold
    obtain ⟨pc', hreply, rfl⟩ := Option.map_eq_some_iff.mp ht
    rcases stores_of_reply (inv_of_reach hreach) (writesOk_of_reach hreach) hcl hpc he hdone hreply with
      hstores | ⟨⟨resp, rfl⟩, hanswered⟩
    · exact .storing hcl' rfl hstores
    · exact .done hcl' nofun ((Bool.or_eq_true _ _).mpr (.inl (answered_step hs hanswered)))
  | @go _ _ t' job hlive hgoes =>
    subst hold
    generalize htask : Task.ingress req pc = t at hgoes
    cases hgoes with
    | throw =>
      subst htask
      obtain ⟨hcreates, hcommits⟩ := hC rfl _ hcl
      rcases stores_onThrow hpc hcreates with hstores | ⟨⟨resp, hresp⟩, hcommit⟩
      · exact .storing hcl' rfl hstores
      · have hkept := attended_step hreach hs (hcommits hcommit) fun _ h => by cases h
        rw [Task.onThrow, hresp] at hcl'
        exact .done hcl' nofun hkept
    | gate =>
      cases htask
      cases hpc
    | published hjob | publishLost hjob | publishFailed hjob =>
      subst htask
      cases pc with
      | publish => exact .storing hcl' rfl hpc
      | _ => cases hjob
    | chaosPassed | chaosFailed => cases htask
  | refund => cases hold
  | answer _ hst =>
    subst hold
    cases pc with
    | respond => cases hpc
    | _ => cases hst
  | crash => exact .dead hcl'

/-- **One step.** Source: `app/api/book/route.ts` (steps 8 to 10). Kind: L -/
theorem Going.step (hreach : Reachable cfg s) (hs : Stepped cfg s a s') (hC : Tended c k s a)
    (h : Going c k s) : Going c k s' := by
  cases h with
  | storing hcl hlive hpc =>
    obtain ⟨cl', hcl', ⟨rfl, -⟩ | hm⟩ := hs.client_next hcl
    · exact .storing hcl' hlive hpc
    · exact Going.moves hreach hs hC hcl hcl' hpc hm
  | dead hcl =>
    obtain ⟨cl', hcl', ⟨rfl, -⟩ | hm⟩ := hs.client_next hcl
    · exact .dead hcl'
    · cases hm.live
  | done hcl hph hk =>
    have hkept : s'.attended k = true := attended_step hreach hs hk fun c' ha => by
      subst ha
      exact hC (responds_of_respond hcl hph)
    obtain ⟨⟨t, ph'⟩, hcl', ⟨heq, -⟩ | hm⟩ := hs.client_next hcl
    · cases heq
      exact .done hcl' hph hkept
    · obtain rfl : t = _ := hm.respond rfl
      by_cases hdead : ph' = .crashed
      · subst hdead
        exact .dead hcl'
      · exact .done hcl' hdead hkept

/-- **A whole run.** Source: `app/api/book/route.ts` (steps 8 to 10). Kind: L -/
theorem going_of_steps (hreach : Reachable cfg s) (h : Going c k s)
    (hrun : Steps (step cfg) (Tended c k) s s') : Reachable cfg s' ∧ Going c k s' := by
  refine hrun.invariant (P := fun s => Reachable cfg s ∧ Going c k s) (fun s a s' hP hC hstep => ?_)
    ⟨hreach, h⟩
  exact ⟨hP.1.snoc trivial hstep, hP.2.step hP.1 (step_cases hstep) hC⟩

/-- A retry is answered `409` only if there is no response. Source:
`lib/idempotency/postgres-authority.ts` `checkIdempotency`. Kind: L -/
theorem not_answered_of_replaying {req : PostRequest} {body : BookRequest}
    (h : s.replay cfg k req body = some (.error 409 "idempotency_key_replaying")) :
    s.store.answered k = false := by
  refine Bool.eq_false_iff.mpr fun hanswered => ?_
  obtain ⟨row, st, cached, hrow, hst, hcached⟩ := answered_iff.mp hanswered
  by_cases hhash : cfg.requestHash body = row.requestHash
  · rw [replay_of_row hrow hhash, hst, hcached] at h
    cases h
  · rw [replay_of_mismatch hrow (Ne.symm hhash)] at h
    simp at h

end request

/-! ## The failing schedule -/

/-- A request for a train there is not. Source: `lib/validation/book.ts`. Kind: D -/
def ghost : PostRequest := { asha with body := some ⟨"99999", "Asha", none⟩ }

/-- The request is granted its key. Source: none: infrastructure. Kind: D -/
def granting (req : PostRequest) : List Action := [.post req, .gate 0 true true] ++ callReturns 0 0 1

/-- Its `INSERT` violates the foreign key to `trains`, and it answers `500`. Source:
`app/api/book/route.ts` (step 8). Kind: D -/
def failing : List Action :=
  [.issue 0, .store (.start 1), .store (.exec 1 Store.usualChoice), .throw 0, .answer 0]

/-- Request 0 has just been told that its key is fresh. Source: none: infrastructure. Kind: D -/
def isFresh (req : PostRequest) (k : IdempotencyKey) (body : BookRequest) (s : Sys) : Bool :=
  s.clients[0]? == some (.arrive (.ingress req (.createBooking k body)))

/-- Request 0 has answered, and a retry is answered `409` with no message in flight. Source: none:
infrastructure. Kind: D -/
def isStuck (k : IdempotencyKey) (req : PostRequest) (body : BookRequest) (s : Sys) : Bool :=
  s.clients[0]? == some ⟨.ingress req (.respond (.error 500 "internal_error")), .answered⟩ &&
    s.replay config k req body == some (.error 409 "idempotency_key_replaying") && !s.inFlight k

/-- **A key that is answered `409` for ever.** In some run a request whose verdict was fresh has answered,
its key has no response, no message about it is in flight, and a retry is told that an earlier request is
still processing. Source: `app/api/book/route.ts` (step 8, `booking_create_failed`). Kind: P -/
theorem stuck_key : ¬ ∀ (cfg : Config) (s s' : Sys) (c : ℕ) (req : PostRequest) (k : IdempotencyKey)
    (body : BookRequest) (t : Task), Reachable cfg s →
    s.clients[c]? = some (.arrive (.ingress req (.createBooking k body))) →
    Steps (step cfg) Always s s' → s'.clients[c]? = some ⟨t, .answered⟩ →
    s'.attended k = true ∧ ∀ req' body',
      s'.replay cfg k req' body' = some (.error 409 "idempotency_key_replaying") → s'.inFlight k = true := by
  intro hall
  let k : IdempotencyKey := "0b8e4c1a-5f2d-4e3a-9c7b-1a2b3c4d5e6f"
  let body : BookRequest := ⟨"99999", "Asha", none⟩
  have hgrants : (run (step config) opening (granting ghost)).map (isFresh ghost k body) = some true := by
    decide +kernel
  have hfails : ((run (step config) opening (granting ghost)).bind (run (step config) · failing)).map
      (isStuck k ghost body) = some true := by decide +kernel
  obtain ⟨s, hs, hfresh⟩ := Option.map_eq_some_iff.mp hgrants
  rw [hs] at hfails
  obtain ⟨s', hs', hstuck⟩ := Option.map_eq_some_iff.mp hfails
  simp only [isStuck, Bool.and_eq_true, beq_iff_eq, Bool.not_eq_true'] at hstuck
  obtain ⟨⟨hdone, hreplay⟩, hno⟩ := hstuck
  obtain ⟨-, hflies⟩ := hall config s s' 0 ghost k body _ ⟨opening, initial_opening, steps_of_run hs⟩
    (beq_iff_eq.mp hfresh) (steps_of_run hs') hdone
  rw [hflies ghost body hreplay] at hno
  cases hno

section request

variable {cfg : Config} {s s' : Sys} {c : ℕ} {k : IdempotencyKey} {req : PostRequest} {body : BookRequest}

/-- **No key is stuck.** Let the verdict of a request have been fresh. After every run from then on in which
its `createBooking` does not throw, its response is stored or fails to be while its key is attended, and no
message about its key ends without a response once it has come to its answer (`Tended`): if it has answered,
its key has a response or a message about it is in flight, and a retry is answered `409` only if there is
such a message. Source: `app/api/book/route.ts` (steps 7 to 10), `lib/idempotency/postgres-authority.ts`
`checkIdempotency`. Kind: P -/
theorem never_stuck (hreach : Reachable cfg s)
    (hfresh : s.clients[c]? = some (.arrive (.ingress req (.createBooking k body))))
    (hrun : Steps (step cfg) (Tended c k) s s') {t : Task} (hdone : s'.clients[c]? = some ⟨t, .answered⟩) :
    s'.attended k = true ∧ ∀ req' body',
      s'.replay cfg k req' body' = some (.error 409 "idempotency_key_replaying") → s'.inFlight k = true := by
  obtain ⟨-, hgoing⟩ := going_of_steps hreach (.storing hfresh rfl (beq_self_eq_true k)) hrun
  have hattended : s'.attended k = true := by
    cases hgoing with
    | storing hcl hlive =>
      cases Option.eq_some_unique hdone hcl
      cases hlive
    | dead hcl => cases Option.eq_some_unique hdone hcl
    | done _ _ hk => exact hk
  refine ⟨hattended, fun req' body' hreplay => ?_⟩
  rcases (Bool.or_eq_true _ _).mp hattended with hanswered | hflies
  · rw [not_answered_of_replaying hreplay] at hanswered
    cases hanswered
  · exact hflies

/-- The publication fails, the booking is not rolled back, and the `502` is stored. Source:
`app/api/book/route.ts` (publish-failure branch). Kind: L -/
theorem never_stuck_refused : ∃ s s' : Sys, ∃ t k,
    Steps (step config) (Tended 0 k) s s' ∧ s'.clients[(0 : ℕ)]? = some ⟨t, .answered⟩ ∧
      s'.attended k = true := by
  let k : IdempotencyKey := "0b8e4c1a-5f2d-4e3a-9c7b-1a2b3c4d5e6f"
  let body : BookRequest := ⟨"12951", "Asha", none⟩
  have hgrants : (run (step config) opening (granting asha)).map (isFresh asha k body) = some true := by
    decide +kernel
  have hruns : ((run (step config) opening (granting asha)).bind (run (guarded (step config) (Tended 0 k)) ·
      (callReturns 0 1 1 ++ [.publish 0 false false, .throw 0] ++ callReturns 0 2 1 ++ [.answer 0]))).map
      (·.clients[(0 : ℕ)]?.any (·.phase == .answered)) = some true := by decide +kernel
  obtain ⟨s, hs, hfresh⟩ := Option.map_eq_some_iff.mp hgrants
  rw [hs] at hruns
  obtain ⟨s', hs', hdone⟩ := Option.map_eq_some_iff.mp hruns
  obtain ⟨⟨t, ph⟩, hcl, hph⟩ := (Option.any_eq_true _ _).mp hdone
  obtain rfl : ph = .answered := beq_iff_eq.mp hph
  have hsteps := steps_of_guarded hs'
  exact ⟨s, s', t, k, hsteps, hcl, (never_stuck ⟨opening, initial_opening, steps_of_run hs⟩
    (beq_iff_eq.mp hfresh) hsteps hcl).1⟩

end request

end Sys

end TrainsAndTracks
