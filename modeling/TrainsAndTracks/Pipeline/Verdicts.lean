import TrainsAndTracks.Pipeline.Replay
import TrainsAndTracks.Store.Verdicts

/-!
# One key, one booking

What requests with the same `Idempotency-Key` get. `idempotency_check` grants the key to one of them, and
only the handler that learns so creates a booking, publishes a message or writes a response. Everybody
else is answered from the row of the key.

* `Posted` — a handler of a request with a key and a valid body; `Granted`, `Fresh` — it is granted its
  key, and has been told.
* `VerdictsOk` — what the ingress carries and sends of its key.
* `StripeContract` — the contract: one fresh request, one booking, one publication, the answers of all the
  others, and that they change nothing.
-/

namespace TrainsAndTracks

open Found

/-! ## Requests -/

/-- The body the ingress works with. Source: `app/api/book/route.ts` (step 2). Kind: D.
Fidelity: exact -/
def PostRequest.parsed (req : PostRequest) : Option BookRequest := req.body.bind BookRequest.safeParse

/-- The request of a handler of the ingress. Source: `app/api/book/route.ts`. Kind: D -/
def Task.request : Task → Option PostRequest
  | ingress req _ => some req
  | _ => none

/-- An exception does not change the request. Source: none: infrastructure. Kind: L -/
@[simp] theorem Task.request_onThrow (t : Task) : t.onThrow.request = t.request := by
  cases t <;> rfl

/-- Nor does a publication. Source: none: infrastructure. Kind: L -/
@[simp] theorem Task.request_onPublished (t : Task) : t.onPublished.request = t.request := by
  unfold onPublished
  split <;> rfl

/-- Nor does a reply. Source: none: infrastructure. Kind: L -/
theorem Task.request_onReply {cfg : Config} {now : Time} {t t' : Task} {r : Reply}
    (h : t.onReply cfg now r = some t') : t'.request = t.request := by
  cases t <;> obtain ⟨pc, -, rfl⟩ := Option.map_eq_some_iff.mp h <;> rfl

namespace Sys

/-- Handler `c` is a `POST` with the key `k` and the valid body `body`. Source: `app/api/book/route.ts`
(steps 1 and 2). Kind: D -/
def Posted (s : Sys) (c : ℕ) (k : IdempotencyKey) (body : BookRequest) : Prop :=
  ∃ cl req, s.clients[c]? = some cl ∧ cl.task.request = some req ∧ req.idempotencyKey = some k ∧
    req.parsed = some body

/-- Handler `c` is granted the key `k`. Source: migration `140_fn_idempotency_check`. Kind: D -/
def Granted (s : Sys) (c : ℕ) (k : IdempotencyKey) : Prop :=
  ∃ (i : ℕ) (e : Exec), s.store.execs[i]? = some e ∧ e.client = c ∧ e.Granted k

/-- Handler `c` has been told that it is granted the key `k`. Source:
`lib/idempotency/postgres-authority.ts` (`fresh`). Kind: D -/
def Fresh (s : Sys) (c : ℕ) (k : IdempotencyKey) : Prop :=
  ∃ (i : ℕ) (e : Exec) (r : Reply), s.store.execs[i]? = some e ∧ e.client = c ∧ e.Granted k ∧
    e.pc = .done r

/-- What a request carries of its key at each `await` of the ingress. Source: `app/api/book/route.ts`
`handle`. Kind: D -/
def RequestOk (s : Sys) (c : ℕ) (req : PostRequest) : IngressPc → Prop
  | .start | .respond _ => True
  | .idempotencyCheck k body => req.idempotencyKey = some k ∧ req.parsed = some body
  | .createBooking k _ => req.idempotencyKey = some k ∧ s.Fresh c k
  | .publish job | .rollback job | .commitRefused job | .commitAccepted job =>
    req.idempotencyKey = some job.idempotencyKey ∧ s.Fresh c job.idempotencyKey

/-- What a handler carries of its key. Source: `app/api/book/route.ts` `handle`. Kind: D -/
def KeyedTask (s : Sys) (c : ℕ) : Task → Prop
  | .ingress req pc => s.RequestOk c req pc
  | _ => True

/-- The checks are sent by requests with the key, and whatever else a request sends, it sends once it has
been told that it is granted its key. Source: `app/api/book/route.ts` `handle`. Kind: D -/
def SentOk (cfg : Config) (s : Sys) (c : ℕ) (call : Call) : Prop :=
  ∃ cl, s.clients[c]? = some cl ∧
    ((∃ k user body, s.Posted c k body ∧ call = .idempotencyCheck k user (cfg.requestHash body)) ∨
      (∀ k user hash, call ≠ .idempotencyCheck k user hash) ∧
        (cl.task.request ≠ none → ∃ k, s.Fresh c k))

/-- A handler of the ingress sends each call once. Source: `app/api/book/route.ts` (no `pgPolicy`).
Kind: D -/
def Single (cl : Client) : Prop :=
  cl.task.request ≠ none → match cl.phase with
    | .ready n => n ≤ 1
    | .waiting _ n => n = 0
    | _ => True

/-- **What the ingress knows of keys.** Source: `app/api/book/route.ts` `handle`, migration
`140_fn_idempotency_check`. Kind: D -/
structure VerdictsOk (cfg : Config) (s : Sys) : Prop where
  keys : s.store.KeysOk
  tasks : ∀ (c : ℕ) (cl : Client), s.clients[c]? = some cl → s.KeyedTask c cl.task
  calls : ∀ (i : ℕ) (e : Exec), s.store.execs[i]? = some e → s.SentOk cfg e.client e.call
  phases : ∀ (c : ℕ) (cl : Client), s.clients[c]? = some cl → Single cl

section requests

variable {cfg : Config} {s s' : Sys} {a : Action} {c : ℕ} {cl cl' : Client} {k : IdempotencyKey}

/-- A handler keeps its request. Source: none: infrastructure. Kind: L -/
theorem Moves.request (h : Moves cfg s c a cl cl') : cl'.task.request = cl.task.request := by
  cases h with
  | issue | again | answer | crash | refund => rfl
  | receive he hpc ht => exact Task.request_onReply ht
  | @go a cl t' job hlive hgoes =>
    obtain ⟨t, ph⟩ := cl
    cases hgoes with
    | throw | publishLost | publishFailed => exact Task.request_onThrow t
    | published => exact Task.request_onPublished t
    | gate | chaosPassed | chaosFailed => rfl

/-- A handler after a step has the request it had. Source: none: infrastructure. Kind: L -/
theorem Stepped.request_stays (hs : Stepped cfg s a s') (hcl : s.clients[c]? = some cl) :
    ∃ cl', s'.clients[c]? = some cl' ∧ cl'.task.request = cl.task.request := by
  obtain ⟨cl', hcl', ⟨rfl, -⟩ | hm⟩ := hs.client_next hcl
  · exact ⟨cl', hcl', rfl⟩
  · exact ⟨cl', hcl', hm.request⟩

/-- A request stays posted. Source: none: infrastructure. Kind: L -/
theorem Posted.mono (hs : Stepped cfg s a s') {body : BookRequest} (h : s.Posted c k body) :
    s'.Posted c k body := by
  obtain ⟨cl, req, hcl, hreq, hrest⟩ := h
  obtain ⟨cl', hcl', hsame⟩ := hs.request_stays hcl
  exact ⟨cl', req, hcl', hsame.trans hreq, hrest⟩

/-- A verdict stays known. Source: none: infrastructure. Kind: L -/
theorem Fresh.mono (hs : Stepped cfg s a s') (h : s.Fresh c k) : s'.Fresh c k := by
  obtain ⟨i, e, r, he, hclient, hgranted, hpc⟩ := h
  refine ⟨i, e, r, ?_, hclient, hgranted, hpc⟩
  rcases hs.store_cases with heq | ⟨b, hb, -⟩
  · rw [heq, he]
  · exact (Store.step_cases hb).done_stays he hpc

/-- Who is told is granted. Source: none: infrastructure. Kind: L -/
theorem Fresh.granted (h : s.Fresh c k) : s.Granted c k := by
  obtain ⟨i, e, r, he, hclient, hgranted, -⟩ := h
  exact ⟨i, e, he, hclient, hgranted⟩

/-- One handler is granted a key. Source: migration `140_fn_idempotency_check`. Kind: L -/
theorem Granted.unique (hkeys : s.store.KeysOk) {c' : ℕ} (h : s.Granted c k) (h' : s.Granted c' k) :
    c = c' := by
  obtain ⟨i, e, he, rfl, hg⟩ := h
  obtain ⟨i', e', he', rfl, hg'⟩ := h'
  obtain rfl := hkeys.once k i i' e e' he he' hg hg'
  obtain rfl := Option.eq_some_unique he he'
  rfl

/-- The key of a granted request has a row. Source: migration `140_fn_idempotency_check`. Kind: L -/
theorem Granted.row (hkeys : s.store.KeysOk) (h : s.Granted c k) :
    ∃ row, s.store.idempotencyKeys.find? k = some row := by
  obtain ⟨i, e, he, -, hg⟩ := h
  obtain ⟨user, hash, hcall⟩ := hg.call
  obtain ⟨row, hrow, -⟩ := hkeys.hash i e k user hash he hcall hg
  exact ⟨row, hrow⟩

/-- What a request carries of its key stays true. Source: none: infrastructure. Kind: L -/
theorem KeyedTask.mono (hs : Stepped cfg s a s') {t : Task} (h : s.KeyedTask c t) :
    s'.KeyedTask c t := by
  cases t with
  | ingress req pc =>
    cases pc with
    | start | respond => trivial
    | idempotencyCheck => exact h
    | createBooking | publish | rollback | commitRefused | commitAccepted =>
      exact ⟨h.1, h.2.mono hs⟩
  | _ => trivial

/-- A request carries on with its key after a reply. Source: `app/api/book/route.ts` `handle`. Kind: L -/
theorem KeyedTask.onReply (hinv : Inv cfg s) {i left : ℕ} {t t' : Task} {e : Exec} {r : Reply}
    (hcl : s.clients[c]? = some ⟨t, .waiting i left⟩) (he : s.store.execs[i]? = some e)
    (hpc : e.pc = .done r) (ht : t.onReply cfg s.store.now r = some t') (h : s.KeyedTask c t) :
    s.KeyedTask c t' := by
  cases t with
  | ingress req pc =>
    obtain ⟨pc', hreply, rfl⟩ := Option.map_eq_some_iff.mp ht
    cases IngressPc.replied hreply with
    | @fresh k body row =>
      obtain ⟨e', he', hcall, hclient⟩ := hinv.waits c _ i left hcl
      obtain rfl := Option.eq_some_unique he he'
      refine ⟨h.1, i, e, _, he, hclient, ⟨⟨_, _, (Option.some.inj hcall).symm⟩, row, .inr hpc⟩, hpc⟩
    | created | rolledBack => exact h
    | mismatch | replay | inflight | refused | accepted => trivial
  | worker | webhook | dlqRetry | sweeper =>
    obtain ⟨pc', -, rfl⟩ := Option.map_eq_some_iff.mp ht
    trivial

/-- A request carries on with its key without a reply. Source: `app/api/book/route.ts` `handle`.
Kind: L -/
theorem KeyedTask.goes {t t' : Task} {job : Option AllocateJobPayload} (hgoes : Goes cfg c a t t' job)
    (h : s.KeyedTask c t) : s.KeyedTask c t' := by
  have hthrow : s.KeyedTask c t.onThrow := by
    cases t with
    | ingress req pc => cases pc <;> trivial
    | _ => trivial
  cases hgoes with
  | throw | publishLost | publishFailed => exact hthrow
  | @gate req rateOk depthOk =>
    show s.RequestOk c req (.gate req rateOk depthOk)
    unfold IngressPc.gate
    split
    · trivial
    · rename_i k hk
      split
      · trivial
      · split
        · trivial
        · rename_i body hbody
          repeat' split
          · trivial
          · trivial
          · exact ⟨hk, hbody⟩
  | @published t job hjob =>
    cases t with
    | ingress req pc =>
      cases pc with
      | publish job => exact h
      | _ => cases hjob
    | dlqRetry id pc => cases pc <;> trivial
    | _ => trivial
  | chaosPassed | chaosFailed => trivial

/-- What requests carry of their keys survives a step. Source: `app/api/book/route.ts` `handle`.
Kind: L -/
theorem VerdictsOk.tasks_step (hinv : Inv cfg s) (h : VerdictsOk cfg s) (hs : Stepped cfg s a s') :
    ∀ (c : ℕ) (cl : Client), s'.clients[c]? = some cl → s'.KeyedTask c cl.task := by
  refine hs.forall_clients (P := KeyedTask) h.tasks (fun c t hok => hok.mono hs) (fun c t ht => ?_)
    (fun c i left t e r t' hcl he hpc ht hok => (hok.onReply hinv hcl he hpc ht).mono hs)
    (fun c cl t' job _ hgoes hok => (hok.goes hgoes).mono hs) fun c d p _ => trivial
  cases ht <;> trivial

/-- Only the ingress sends checks. Source: the routes of `app/api`. Kind: L -/
theorem call_ne_check {t : Task} {call : Call} (hreq : t.request = none)
    (hcall : t.call cfg = some call) (k : IdempotencyKey) (user hash : String) :
    call ≠ .idempotencyCheck k user hash := by
  cases t with
  | ingress => cases hreq
  | worker d pc => cases pc <;> cases hcall <;> simp
  | webhook cb pc => cases pc <;> cases hcall <;> simp
  | dlqRetry id pc => cases pc <;> cases hcall <;> simp
  | sweeper pc =>
    cases pc <;> cases hcall
    simp

/-- What a call says of keys stays true. Source: none: infrastructure. Kind: L -/
theorem SentOk.mono (hs : Stepped cfg s a s') {call : Call} (h : SentOk cfg s c call) :
    SentOk cfg s' c call := by
  obtain ⟨cl, hcl, hsays⟩ := h
  obtain ⟨cl', hcl', hreq⟩ := hs.request_stays hcl
  refine ⟨cl', hcl', ?_⟩
  rcases hsays with ⟨k, user, body, hposted, hcall⟩ | ⟨hne, hfresh⟩
  · exact .inl ⟨k, user, body, hposted.mono hs, hcall⟩
  · refine .inr ⟨hne, fun hsome => ?_⟩
    obtain ⟨k, hk⟩ := hfresh (hreq ▸ hsome)
    exact ⟨k, hk.mono hs⟩

/-- What a handler sends says the truth of keys. Source: `app/api/book/route.ts` `handle`. Kind: L -/
theorem KeyedTask.sentOk (hcl : s.clients[c]? = some cl) (h : s.KeyedTask c cl.task) {call : Call}
    (hcall : cl.task.call cfg = some call) : SentOk cfg s c call := by
  refine ⟨cl, hcl, ?_⟩
  obtain ⟨t, ph⟩ := cl
  cases t with
  | ingress req pc =>
    cases pc with
    | start | publish | respond => cases hcall
    | idempotencyCheck k body =>
      cases hcall
      exact .inl ⟨k, req.ip, body, ⟨_, req, hcl, rfl, h⟩, rfl⟩
    | createBooking | rollback | commitRefused | commitAccepted =>
      cases hcall
      exact .inr ⟨by simp, fun _ => ⟨_, h.2⟩⟩
  | _ => exact .inr ⟨fun k user hash => call_ne_check rfl hcall k user hash, fun hne => absurd rfl hne⟩

/-- A handler that has just reached an `await` may send its call as often as the route says.
Source: none: infrastructure. Kind: L -/
theorem single_arrive (t : Task) : Single (.arrive t) := by
  intro hreq
  cases t with
  | ingress => exact le_rfl
  | _ => exact absurd rfl hreq

/-- A handler of the ingress goes on to send each call once. Source: `app/api/book/route.ts`
(no `pgPolicy`). Kind: L -/
theorem Moves.single (hm : Moves cfg s c a cl cl') (h : Single cl) : Single cl' := by
  intro hreq
  have hold := h (hm.request ▸ hreq)
  cases hm with
  | @issue cl call left hlive hcall hleft =>
    obtain ⟨t, ph⟩ := cl
    cases ph with
    | ready n =>
      have hn : n = left + 1 := hleft
      have hle : n ≤ 1 := hold
      show left = 0
      omega
    | waiting i n =>
      have hn : n = left + 1 := hleft
      have hzero : n = 0 := hold
      omega
    | answered | crashed => cases hlive
  | again => exact absurd hold (Nat.succ_ne_zero _)
  | receive | go | refund => exact single_arrive _ hreq
  | answer | crash => trivial

/-- **What the ingress knows of keys survives every step.** Source: `app/api/book/route.ts` `handle`,
migration `140_fn_idempotency_check`. Kind: L -/
theorem VerdictsOk.step (hinv : Inv cfg s) (h : VerdictsOk cfg s) (hs : Stepped cfg s a s') :
    VerdictsOk cfg s' where
  keys := by
    rcases hs.store_cases with heq | ⟨b, hb, -⟩
    · rw [heq]
      exact h.keys
    · exact h.keys.step hinv.store.locks (Store.step_cases hb)
  tasks := h.tasks_step hinv hs
  calls := hs.forall_sent (P := SentOk cfg) h.calls (fun _ _ hok => hok.mono hs)
    fun c cl _ hcl hcall => (h.tasks c cl hcl).sentOk hcl hcall
  phases c cl' hcl' := by
    rcases hs.client_cases hcl' with ⟨cl, hcl, ⟨rfl, -⟩ | hm⟩ | ⟨-, t, -, rfl⟩
    · exact h.phases c _ hcl
    · exact hm.single (h.phases c cl hcl)
    · exact single_arrive t

/-- Nobody has a key at first. Source: none: infrastructure. Kind: L -/
theorem Initial.verdictsOk (h : Initial s) : VerdictsOk cfg s where
  keys := h.store_initial.keysOk
  tasks c cl hcl := by
    rw [h.no_clients] at hcl
    cases hcl
  calls i e he := absurd he h.store_initial.no_exec
  phases c cl hcl := by
    rw [h.no_clients] at hcl
    cases hcl

/-- What the ingress knows of keys, in every run. Source: `app/api/book/route.ts` `handle`. Kind: L -/
theorem verdictsOk_of_reach {C : Sys → Action → Prop} (h : Reach (step cfg) Initial C s) :
    VerdictsOk cfg s :=
  h.invariant (P := VerdictsOk cfg) (fun _ hinit => hinit.verdictsOk)
    fun _ _ _ hreach hP _ hstep => hP.step (inv_of_reach hreach) (step_cases hstep)

end requests

/-! ## At most one publication -/

/-- The step is a publication of a `POST` with the key `k`. Source: `app/api/book/route.ts`
(`publishAllocateJob` call site). Kind: D -/
def publishes (k : IdempotencyKey) (s : Sys) : Action → Bool
  | .publish c _ _ =>
    match s.clients[c]? with
    | some ⟨.ingress _ (.publish job), _⟩ => job.idempotencyKey == k
    | _ => false
  | _ => false

/-- The handler is about to publish for the key `k`, or will be. Source: `app/api/book/route.ts`
`handle`. Kind: D -/
inductive Opens (s : Sys) (k : IdempotencyKey) : Client → Prop
  | check {req k' body i left e} (he : s.store.execs[i]? = some e) (hg : e.Granted k) :
      Opens s k ⟨.ingress req (.idempotencyCheck k' body), .waiting i left⟩
  | create {req body ph} : Opens s k ⟨.ingress req (.createBooking k body), ph⟩
  | publish {req job ph} (hk : job.idempotencyKey = k) :
      Opens s k ⟨.ingress req (.publish job), ph⟩

/-- The key is known and nobody will publish for it again. Source: `app/api/book/route.ts` `handle`.
Kind: D -/
structure Spent (k : IdempotencyKey) (s : Sys) : Prop where
  known : ∃ row, s.store.idempotencyKeys.find? k = some row
  unopened : ∀ (c : ℕ) (cl : Client), s.clients[c]? = some cl → ¬ s.Opens k cl

section publications

variable {cfg : Config} {s s' : Sys} {a : Action} {c : ℕ} {cl cl' : Client} {k : IdempotencyKey}

/-- Who will publish is granted the key. Source: `app/api/book/route.ts` `handle`. Kind: L -/
theorem Opens.granted (hinv : Inv cfg s) (hok : VerdictsOk cfg s) (hcl : s.clients[c]? = some cl)
    (h : s.Opens k cl) : s.Granted c k := by
  have htask := hok.tasks c cl hcl
  cases h with
  | @check req k' body i left e he hg =>
    obtain ⟨e', he', -, hclient⟩ := hinv.waits c _ i left hcl
    obtain rfl := Option.eq_some_unique he he'
    exact ⟨i, e, he, hclient, hg⟩
  | create => exact htask.2.granted
  | publish hk =>
    rw [← hk]
    exact htask.2.granted

/-- No step grants a key that is known. Source: migration `140_fn_idempotency_check`. Kind: L -/
theorem Stepped.granted_old (hs : Stepped cfg s a s') {i : ℕ} {e : Exec} {row : IdempotencyRow}
    (hrow : s.store.idempotencyKeys.find? k = some row) (he : s'.store.execs[i]? = some e)
    (hg : e.Granted k) : ∃ e₀ : Exec, s.store.execs[i]? = some e₀ ∧ e₀.Granted k := by
  rcases hs.store_cases with heq | ⟨b, hb, -⟩
  · rw [heq] at he
    exact ⟨e, he, hg⟩
  · rcases (Store.step_cases hb).granted_new he hg with ⟨e₀, he₀, hg₀, -⟩ | ⟨-, hnone, -⟩
    · exact ⟨e₀, he₀, hg₀⟩
    · rw [hnone] at hrow
      cases hrow

/-- Whoever will publish after a reply would have done so before. Source: `app/api/book/route.ts`
`handle`. Kind: L -/
theorem Opens.of_reply (hinv : Inv cfg s) {i left : ℕ} {t t' : Task} {e : Exec} {r : Reply}
    (hcl : s.clients[c]? = some ⟨t, .waiting i left⟩) (he : s.store.execs[i]? = some e)
    (hpc : e.pc = .done r) (ht : t.onReply cfg s.store.now r = some t')
    (h : s'.Opens k (.arrive t')) : s.Opens k ⟨t, .waiting i left⟩ := by
  cases t with
  | ingress req pc =>
    obtain ⟨pc', hreply, rfl⟩ := Option.map_eq_some_iff.mp ht
    cases IngressPc.replied hreply with
    | @fresh k₀ body row =>
      obtain ⟨e', he', hcall, -⟩ := hinv.waits c _ i left hcl
      obtain rfl := Option.eq_some_unique he he'
      cases h
      exact .check he ⟨⟨_, _, (Option.some.inj hcall).symm⟩, row, .inr hpc⟩
    | created =>
      cases h with
      | publish hk =>
        cases hk
        exact .create
    | rolledBack | mismatch | replay | inflight | refused | accepted => cases h
  | worker | webhook | dlqRetry | sweeper =>
    obtain ⟨pc', -, rfl⟩ := Option.map_eq_some_iff.mp ht
    cases h

/-- Nobody will publish because of an exception, a gate or a publication. Source:
`app/api/book/route.ts` `handle`. Kind: L -/
theorem Goes.not_opens {t t' : Task} {job : Option AllocateJobPayload}
    (hgoes : Goes cfg c a t t' job) : ¬ s'.Opens k (.arrive t') := by
  have hthrow : ¬ s'.Opens k (.arrive t.onThrow) := by
    intro h
    cases t with
    | ingress req pc => cases pc <;> cases h
    | _ => cases h
  cases hgoes with
  | throw | publishLost | publishFailed => exact hthrow
  | @gate req rateOk depthOk =>
    intro h
    have harrive : ∀ pc : IngressPc, s'.Opens k (.arrive (.ingress req pc)) →
        (∃ body, pc = .createBooking k body) ∨ ∃ job, pc = .publish job := by
      intro pc h
      cases h with
      | create => exact .inl ⟨_, rfl⟩
      | publish => exact .inr ⟨_, rfl⟩
    have hpc := harrive _ h
    unfold IngressPc.gate at hpc
    repeat' split at hpc
    all_goals rcases hpc with ⟨_, hpc⟩ | ⟨_, hpc⟩ <;> cases hpc
  | @published t job hjob =>
    intro h
    cases t with
    | ingress req pc => cases pc <;> first | cases hjob; done | cases h
    | dlqRetry id pc => cases pc <;> cases h
    | _ => cases h
  | chaosPassed | chaosFailed =>
    intro h
    cases h

/-- A handler that moves and will publish would have done so before. Source: `app/api/book/route.ts`
`handle`. Kind: L -/
theorem Opens.of_moves (hinv : Inv cfg s) (hs : Stepped cfg s a s') (hcl : s.clients[c]? = some cl)
    (hm : Moves cfg s c a cl cl') (hknown : ∃ row, s.store.idempotencyKeys.find? k = some row)
    (h : s'.Opens k cl') : s.Opens k cl := by
  obtain ⟨row, hrow⟩ := hknown
  cases hm with
  | @issue cl call left hlive hcall =>
    obtain ⟨t, ph⟩ := cl
    cases h with
    | check he hg =>
      obtain ⟨e₀, he₀, -⟩ := hs.granted_old hrow he hg
      rw [List.getElem?_eq_none le_rfl] at he₀
      cases he₀
    | create => exact .create
    | publish hk => exact .publish hk
  | again =>
    cases h with
    | create => exact .create
    | publish hk => exact .publish hk
  | receive he hpc ht => exact .of_reply hinv hcl he hpc ht h
  | go hlive hgoes => exact absurd h hgoes.not_opens
  | refund => cases h
  | @answer cl | @crash cl =>
    obtain ⟨t, ph⟩ := cl
    cases h with
    | create => exact .create
    | publish hk => exact .publish hk

/-- Once it is over it is over. Source: `app/api/book/route.ts` `handle`. Kind: L -/
theorem Spent.step (hinv : Inv cfg s) (h : s.Spent k) (hs : Stepped cfg s a s') : s'.Spent k where
  known := by
    obtain ⟨row, hrow⟩ := h.known
    obtain ⟨row', hrow', -⟩ := (hs.le hinv.store.locks).store.idempotencyKey k row hrow
    exact ⟨row', hrow'⟩
  unopened c cl' hcl' hopens := by
    obtain ⟨row, hrow⟩ := h.known
    rcases hs.client_cases hcl' with ⟨cl, hcl, ⟨rfl, -⟩ | hm⟩ | ⟨-, t, ht, rfl⟩
    · refine h.unopened c _ hcl ?_
      cases hopens with
      | check he hg =>
        obtain ⟨e₀, he₀, hg₀⟩ := hs.granted_old hrow he hg
        exact .check he₀ hg₀
      | create => exact .create
      | publish hk => exact .publish hk
    · exact h.unopened c cl hcl (hopens.of_moves hinv hs hcl hm ⟨row, hrow⟩)
    · cases ht <;> cases hopens

/-- The publication for a key is its last. Source: `app/api/book/route.ts` `handle`. Kind: L -/
theorem spent_of_publishes (hinv : Inv cfg s) (hok : VerdictsOk cfg s) (hs : Stepped cfg s a s')
    (hp : s.publishes k a = true) : s'.Spent k := by
  unfold publishes at hp
  split at hp
  · rename_i c accepted acknowledged
    split at hp
    · rename_i req job ph hcl
      have hk : job.idempotencyKey = k := by simpa using hp
      have hgranted := Opens.granted hinv hok hcl (.publish hk)
      have hstore : s'.store = s.store := hs.store_of_client rfl (by simp)
      refine ⟨by rw [hstore]; exact hgranted.row hok.keys, fun c' cl' hcl' hopens => ?_⟩
      rcases hs.client_cases hcl' with ⟨cl, hcl₀, ⟨rfl, hne⟩ | hm⟩ | ⟨-, t, ht, rfl⟩
      · have hgranted' : s.Granted c' k := by
          refine Opens.granted hinv hok hcl₀ ?_
          cases hopens with
          | check he hg => exact .check (hstore ▸ he) hg
          | create => exact .create
          | publish hk => exact .publish hk
        exact hne (congrArg some (hgranted.unique hok.keys hgranted'))
      · generalize hact : Action.publish c accepted acknowledged = act at hm
        cases hm with
        | go hlive hgoes => exact hgoes.not_opens hopens
        | _ => cases hact
      · cases ht
    · cases hp
  · cases hp

/-- **A key is published for at most once.** Source: `app/api/book/route.ts` `handle`. Kind: L -/
theorem publishes_once (h : Reachable cfg s) (k : IdempotencyKey) (as : List Action) :
    occurs (step cfg) (publishes k) s as ≤ 1 := by
  refine occurs_le_one (I := Reachable cfg)
    (fun s a s' hreach hstep => hreach.snoc trivial hstep)
    (fun s a s' hreach (hspent : Spent k s) hstep =>
      hspent.step (inv_of_reach hreach) (step_cases hstep))
    (fun s a hreach hspent => ?_)
    (fun s a s' hreach hstep hp =>
      spent_of_publishes (inv_of_reach hreach) (verdictsOk_of_reach hreach) (step_cases hstep) hp)
    as s h
  unfold publishes
  split
  · split
    · rename_i hcl
      by_contra hk
      exact hspent.unopened _ _ hcl (.publish (by simpa using hk))
    · rfl
  · rfl

end publications

/-! ## Everybody else changes nothing -/

/-- The handler whose step it is. Source: none: infrastructure. Kind: D -/
def taker (s : Sys) : Action → Option ℕ
  | .store b => b.actor.bind fun i => (s.store.execs[i]?).map Exec.client
  | a => a.client

section frame

variable {cfg : Config} {s s' : Sys} {a : Action} {c : ℕ} {cl : Client}

/-- **A request that is not granted its key changes no row.** Source: `app/api/book/route.ts` `handle`,
migration `140_fn_idempotency_check`. Kind: L -/
theorem Stepped.same_tables (hinv : Inv cfg s) (hok : VerdictsOk cfg s) (hs : Stepped cfg s a s')
    (hcl : s.clients[c]? = some cl) (hreq : cl.task.request ≠ none) (ha : s.taker a = some c)
    (hno : ∀ k, ¬ s'.Granted c k) : s.store.SameTables s'.store := by
  rcases hs.store_cases with heq | ⟨b, hb, ⟨rfl, -⟩ | ⟨c', cl', call, -, rfl, -⟩⟩
  · rw [heq]
    exact ⟨rfl, rfl, rfl, rfl⟩
  · obtain ⟨i, hactor, hclient⟩ := Option.bind_eq_some_iff.mp ha
    obtain ⟨e, he, rfl⟩ := Option.map_eq_some_iff.mp hclient
    obtain ⟨cl', hcl', hsays⟩ := hok.calls i e he
    obtain rfl := Option.eq_some_unique hcl hcl'
    rcases hsays with ⟨k, user, body, -, hcall⟩ | ⟨-, hfresh⟩
    · rcases (Store.step_cases hb).check_frame hinv.store.locks hactor he hcall with
        hsame | ⟨e', he', hclient', hgranted⟩
      · exact hsame
      · exact absurd ⟨i, e', he', hclient', hgranted⟩ (hno k)
    · obtain ⟨k, hk⟩ := hfresh hreq
      exact absurd (hk.mono hs).granted (hno k)
  · have hbegin := (Option.some.inj hb).symm
    rw [hbegin]
    exact ⟨rfl, rfl, rfl, rfl⟩

end frame

/-! ## The answers -/

/-- The check of the request has run, as execution `i`, and `resp` is its answer. Source:
`app/api/book/route.ts` (step 7). Kind: D -/
inductive Decided (cfg : Config) (s : Sys) (req : PostRequest) (k : IdempotencyKey)
    (body : BookRequest) (resp : IngressResponse) (i : ℕ) : Client → Prop
  | waiting {e : Exec} (he : s.store.execs[i]? = some e)
      (hpc : e.pc = .failed ∨ ∃ r, (e.pc = .ret r ∨ e.pc = .done r) ∧
        IngressPc.onReply cfg (.idempotencyCheck k body) r = some (.respond resp)) :
      Decided cfg s req k body resp i ⟨.ingress req (.idempotencyCheck k body), .waiting i 0⟩
  | answered {ph} : Decided cfg s req k body resp i ⟨.ingress req (.respond resp), ph⟩
  | threw {ph} : Decided cfg s req k body resp i ⟨.ingress req (.respond .uncaught), ph⟩
  | ended {ph : Phase} (hph : ph.live = false) :
      Decided cfg s req k body resp i ⟨.ingress req (.idempotencyCheck k body), ph⟩

section answers

variable {cfg : Config} {s s' t : Sys} {a : Action} {c i : ℕ} {cl cl' : Client} {k : IdempotencyKey}
variable {req : PostRequest} {body : BookRequest} {resp : IngressResponse}

/-- A request that is answered from the cache finds the row of its key. Source: migration
`140_fn_idempotency_check`. Kind: L -/
theorem row_of_replay (h : s.replay cfg k req body = some resp) :
    ∃ row, s.store.idempotencyKeys.find? k = some row ∧
      IngressPc.onReply cfg (.idempotencyCheck k body) (.idempotency row false) =
        some (.respond resp) := by
  unfold replay Store.idempotencyCheck at h
  cases hrow : s.store.idempotencyKeys.find? k with
  | none =>
    rw [hrow] at h
    cases h
  | some row =>
    rw [hrow] at h
    refine ⟨row, rfl, ?_⟩
    dsimp only at h
    split at h
    · rename_i hreply
      cases h
      exact hreply
    · cases h

/-- A key that is known with another body is refused. Source: `lib/idempotency/postgres-authority.ts`
(`hash_mismatch`). Kind: L -/
theorem replay_of_mismatch {row : IdempotencyRow} (hrow : s.store.idempotencyKeys.find? k = some row)
    (hhash : row.requestHash ≠ cfg.requestHash body) :
    s.replay cfg k req body = some (.error 400 "idempotency_key_in_use") := by
  simp [replay, Store.idempotencyCheck, hrow, IngressPc.onReply, hhash]

/-- A handler that has its answer keeps it. Source: none: infrastructure. Kind: L -/
theorem Moves.respond (hm : Moves cfg s c a cl cl') {r : IngressResponse}
    (h : cl.task = .ingress req (.respond r)) : cl'.task = .ingress req (.respond r) := by
  cases hm with
  | issue | again | answer | crash => exact h
  | @receive t i left e reply t' he hpc ht =>
    subst h
    cases ht
  | @go a cl t' job hlive hgoes =>
    rw [h] at hgoes
    cases hgoes with
    | throw hcall => cases hcall
    | published hjob | publishLost hjob | publishFailed hjob => cases hjob
  | refund => cases h

/-- An execution that has returned goes on to its end. Source: none: infrastructure. Kind: L -/
theorem Stepped.returned_stays (hs : Stepped cfg s a s') {P : Reply → Prop} {e : Exec}
    (he : s.store.execs[i]? = some e)
    (hpc : e.pc = .failed ∨ ∃ r, (e.pc = .ret r ∨ e.pc = .done r) ∧ P r) :
    ∃ e' : Exec, s'.store.execs[i]? = some e' ∧
      (e'.pc = .failed ∨ ∃ r, (e'.pc = .ret r ∨ e'.pc = .done r) ∧ P r) := by
  rcases hs.store_cases with heq | ⟨b, hb, -⟩
  · exact ⟨e, by rw [heq, he], hpc⟩
  · have hstep := Store.step_cases hb
    obtain ⟨e', he', -⟩ := hstep.exec_old he
    refine ⟨e', he', ?_⟩
    by_cases ha : b.actor = some i
    · rcases hstep.exec_moved ha he he' with ⟨hsent, -⟩ | ⟨_, _, -, hr, -⟩ | ⟨hfailed, -⟩ |
        ⟨r, hret, hdone⟩
      · rw [hsent] at hpc
        rcases hpc with h | ⟨_, h | h, -⟩ <;> cases h
      · rcases hpc with h | ⟨r, h | h, -⟩
        · exact absurd h hr.ne_failed
        · exact absurd h (hr.ne_ret r)
        · exact absurd h (hr.ne_done r)
      · exact .inl hfailed
      · right
        rcases hpc with h | ⟨r', h | h, hP⟩
        · rw [h] at hret
          cases hret
        · rw [h] at hret
          cases hret
          exact ⟨_, .inr hdone, hP⟩
        · rw [h] at hret
          cases hret
    · rw [hstep.exec_of_ne ha he] at he'
      cases he'
      exact hpc

/-- The check of the request runs. Source: `app/api/book/route.ts` (step 7), migration
`140_fn_idempotency_check`. Kind: L -/
theorem decided_of_exec (hinv : Inv cfg s) (hok : VerdictsOk cfg s) {left : ℕ} {ch : Choice}
    (hcl : s.clients[c]? = some ⟨.ingress req (.idempotencyCheck k body), .waiting i left⟩)
    (hreplay : s.replay cfg k req body = some resp)
    (hs : Stepped cfg s (.store (.exec i ch)) s') :
    ∃ cl, s'.clients[c]? = some cl ∧ Decided cfg s' req k body resp i cl := by
  obtain ⟨row, hrow, hreply⟩ := row_of_replay hreplay
  obtain ⟨e, he, hcall, -⟩ := hinv.waits c _ i left hcl
  have hleft : left = 0 := hok.phases c _ hcl (by simp [Task.request])
  subst hleft
  refine ⟨_, hs.client_of_ne hcl (by simp [Action.client]), ?_⟩
  have hstep := Store.step_cases hs.store_step
  have hat : ∀ (σ : Store) {pc : Pc}, σ.execs = s.store.execs → s'.store = σ.goto i pc →
      s'.store.execs[i]? = some { e with pc := pc } := by
    intro σ pc hexecs heq
    rw [heq, Store.goto_exec_self, hexecs, he]
    rfl
  have hcall' : e.call = .idempotencyCheck k req.ip (cfg.requestHash body) := (Option.some.inj hcall).symm
  generalize hσ : s'.store = σ' at hstep
  cases hstep with
  | select hi hr =>
    obtain rfl := Option.eq_some_unique he hi
    rcases hr.of_check hcall' with ⟨row', hrow', hst⟩ | ⟨_, hst⟩
    · cases hst
      obtain rfl := Option.eq_some_unique hrow hrow'
      exact .waiting (hat _ rfl hσ) (.inr ⟨_, .inl rfl, hreply⟩)
    · cases hst
  | raised =>
    refine .waiting (hat { s.store with
      seats := s.store.seats.rollback i, bookings := s.store.bookings.rollback i
      advisory := s.store.advisory.filter (· ≠ i) } rfl hσ) (.inl rfl)
  | insertKey hi hr hnew =>
    obtain rfl := Option.eq_some_unique he hi
    rcases hr.of_check hcall' with ⟨_, -, hst⟩ | ⟨_, hst⟩
    · cases hst
    · cases hst
      rw [show s.store.idempotencyKeys.find? k = none from hnew] at hrow
      cases hrow
  | update hi hr | lockAdvisory hi hr | insertBooking hi hr | insertPayment hi hr | updateKeys hi hr
  | insertDlqJob hi hr | updateDlqJobs hi hr =>
    obtain rfl := Option.eq_some_unique he hi
    rcases hr.of_check hcall' with ⟨_, -, hst⟩ | ⟨_, hst⟩ <;> cases hst

/-- The answer is settled. Source: `app/api/book/route.ts` (step 7). Kind: L -/
theorem Decided.step (hs : Stepped cfg s a s') (hcl : s.clients[c]? = some cl)
    (h : Decided cfg s req k body resp i cl) :
    ∃ cl', s'.clients[c]? = some cl' ∧ Decided cfg s' req k body resp i cl' := by
  obtain ⟨cl', hcl', hcase⟩ := hs.client_next hcl
  refine ⟨cl', hcl', ?_⟩
  have hrespond : ∀ {r : IngressResponse}, cl.task = .ingress req (.respond r) →
      ∃ ph, cl' = ⟨.ingress req (.respond r), ph⟩ := by
    intro r htask
    rcases hcase with ⟨rfl, -⟩ | hm
    · exact ⟨cl'.phase, by rw [← htask]⟩
    · exact ⟨cl'.phase, by rw [← hm.respond htask]⟩
  cases h with
  | answered =>
    obtain ⟨ph, rfl⟩ := hrespond rfl
    exact .answered
  | threw =>
    obtain ⟨ph, rfl⟩ := hrespond rfl
    exact .threw
  | ended hph =>
    rcases hcase with ⟨rfl, -⟩ | hm
    · exact .ended hph
    · rw [hm.live] at hph
      cases hph
  | waiting he hpc =>
    obtain ⟨e', he', hpc'⟩ := hs.returned_stays he hpc
    rcases hcase with ⟨rfl, -⟩ | hm
    · exact .waiting he' hpc'
    · cases hm with
      | issue hlive hcall hleft => cases hleft
      | receive he₁ hpc₁ ht =>
        obtain rfl := Option.eq_some_unique he he₁
        obtain ⟨pc', hreply, rfl⟩ := Option.map_eq_some_iff.mp ht
        rcases hpc with h | ⟨r, h | h, hr⟩
        · rw [h] at hpc₁
          cases hpc₁
        · rw [h] at hpc₁
          cases hpc₁
        · rw [h] at hpc₁
          cases hpc₁
          obtain rfl := Option.some.inj (hr.symm.trans hreply)
          exact .answered
      | go hlive hgoes =>
        cases hgoes with
        | throw => exact .threw
        | published hjob | publishLost hjob | publishFailed hjob => cases hjob
      | answer hlive hst => cases hst
      | crash => exact .ended rfl

/-- **The answer of a request is decided by the row its check finds.** Source: `app/api/book/route.ts`
(step 7), migration `140_fn_idempotency_check`. Kind: L -/
theorem answer_of_exec (h : Reachable cfg s) {left : ℕ} {ch : Choice} {ph : Phase}
    {r : IngressResponse}
    (hcl : s.clients[c]? = some ⟨.ingress req (.idempotencyCheck k body), .waiting i left⟩)
    (hreplay : s.replay cfg k req body = some resp)
    (hstep : s.step cfg (.store (.exec i ch)) = some s') (hrun : Steps (step cfg) Always s' t)
    (ht : t.clients[c]? = some ⟨.ingress req (.respond r), ph⟩) : r = resp ∨ r = .uncaught := by
  have hdecided := decided_of_exec (inv_of_reach h) (verdictsOk_of_reach h) hcl hreplay
    (step_cases hstep)
  obtain ⟨cl, hcl', hcl''⟩ := Steps.invariant
    (P := fun u => ∃ cl, u.clients[c]? = some cl ∧ Decided cfg u req k body resp i cl)
    (fun u a u' ⟨cl, hcl, hdec⟩ _ hstep => hdec.step (step_cases hstep) hcl) hrun hdecided
  obtain rfl := Option.eq_some_unique ht hcl'
  cases hcl'' with
  | answered => exact .inl rfl
  | threw => exact .inr rfl

end answers

/-! ## The contract -/

/-- No two bodies that were posted have the same hash: SHA-256 has no collision among them. Source:
`lib/idempotency/request-hash.ts` `computeRequestHash`. Kind: D -/
def Distinct (cfg : Config) (s : Sys) : Prop :=
  ∀ c c' k body body', s.Posted c k body → s.Posted c' k body' →
    cfg.requestHash body = cfg.requestHash body' → body = body'

/-- What a request whose key is known is answered, when `first` is the body the key came with. Source:
`lib/idempotency/postgres-authority.ts` `checkIdempotency`, `app/api/book/route.ts` (step 7). Kind: D -/
def verdict (first body : BookRequest) (row : IdempotencyRow) : IngressResponse :=
  if body = first then
    match row.responseStatus, row.responseBody with
    | some st, some cached => .replay st cached
    | _, _ => .error 409 "idempotency_key_replaying"
  else .error 400 "idempotency_key_in_use"

/-- **The contract of an `Idempotency-Key`.** Source: `app/api/book/route.ts` (header),
`lib/idempotency/postgres-authority.ts` (header). Kind: D -/
structure StripeContract (cfg : Config) (s : Sys) : Prop where
  /-- At most one request is granted a key. -/
  granted_once : ∀ k c c', s.Granted c k → s.Granted c' k → c = c'
  /-- A key has at most one booking. -/
  booked_once : ∀ b b' r r', s.store.bookings.committed.find? b = some r →
    s.store.bookings.committed.find? b' = some r' → r.idempotencyKey = r'.idempotencyKey → b = b'
  /-- A key is published for at most once. -/
  published_once : ∀ k as, occurs (step cfg) (publishes k) s as ≤ 1
  /-- Once the key is known, each request with it would be answered by comparison with the first one. -/
  answered : ∀ k row, s.store.idempotencyKeys.find? k = some row →
    ∃ first, (∃ c, s.Posted c k first) ∧
      (∀ c body, s.Granted c k → s.Posted c k body → body = first) ∧
      ∀ c req body, s.Posted c k body → s.replay cfg k req body = some (verdict first body row)
  /-- What a request would be answered when its check runs is what it is answered. -/
  settled : ∀ (c i : ℕ) ch req k body left resp s' t ph r,
    s.clients[c]? = some ⟨.ingress req (.idempotencyCheck k body), .waiting i left⟩ →
    s.replay cfg k req body = some resp → s.step cfg (.store (.exec i ch)) = some s' →
    Steps (step cfg) Always s' t → t.clients[c]? = some ⟨.ingress req (.respond r), ph⟩ →
    r = resp ∨ r = .uncaught
  /-- A request that is not granted its key changes no row. -/
  unchanged : ∀ (c : ℕ) cl a s', s.clients[c]? = some cl → cl.task.request ≠ none →
    s.taker a = some c → s.step cfg a = some s' → (∀ k, ¬ s'.Granted c k) →
    s.store.SameTables s'.store

section contract

variable {cfg : Config} {s : Sys}

/-- The answers to a key that is known. Source: `lib/idempotency/postgres-authority.ts`
`checkIdempotency`. Kind: L -/
theorem answers_of_row (hok : VerdictsOk cfg s) (hdistinct : s.Distinct cfg) {k : IdempotencyKey}
    {row : IdempotencyRow} (hrow : s.store.idempotencyKeys.find? k = some row) :
    ∃ first, (∃ c, s.Posted c k first) ∧
      (∀ c body, s.Granted c k → s.Posted c k body → body = first) ∧
      ∀ c req body, s.Posted c k body → s.replay cfg k req body = some (verdict first body row) := by
  have hcheck : ∀ {i : ℕ} {e : Exec} {user hash}, s.store.execs[i]? = some e →
      e.call = .idempotencyCheck k user hash →
      ∃ body, s.Posted e.client k body ∧ hash = cfg.requestHash body := by
    intro i e user hash he hcall
    obtain ⟨cl, -, ⟨k', user', body, hposted, hcall'⟩ | ⟨hne, -⟩⟩ := hok.calls i e he
    · rw [hcall] at hcall'
      cases hcall'
      exact ⟨body, hposted, rfl⟩
    · exact absurd hcall (hne k user hash)
  obtain ⟨i, e, user, he, hcall⟩ := hok.keys.sent k row hrow
  obtain ⟨first, hposted, hhash⟩ := hcheck he hcall
  refine ⟨first, ⟨_, hposted⟩, ?_, fun c req body hbody => ?_⟩
  · rintro c body ⟨j, e', he', rfl, hgranted⟩ hbody
    obtain ⟨user', hash', hcall'⟩ := hgranted.call
    obtain ⟨row', hrow', hhash'⟩ := hok.keys.hash j e' k user' hash' he' hcall' hgranted
    obtain rfl := Option.eq_some_unique hrow hrow'
    obtain ⟨body', hbody', hsent⟩ := hcheck he' hcall'
    obtain rfl : body' = body := by
      obtain ⟨cl, req, hcl, hreq, -, hparsed⟩ := hbody
      obtain ⟨cl', req', hcl', hreq', -, hparsed'⟩ := hbody'
      obtain rfl := Option.eq_some_unique hcl hcl'
      obtain rfl := Option.eq_some_unique hreq hreq'
      exact Option.eq_some_unique hparsed' hparsed
    exact hdistinct _ _ k body' first hbody hposted (by rw [← hsent, ← hhash, hhash'])
  · unfold verdict
    split
    · rename_i hsame
      exact replay_of_row hrow (by rw [hhash, hsame])
    · rename_i hdiffers
      exact replay_of_mismatch hrow fun heq =>
        hdiffers (hdistinct _ _ k body first hbody hposted (heq.symm.trans hhash))

/-- **The contract holds** in every reachable pipeline, as long as SHA-256 has no collision among the
bodies that were posted. Source: `app/api/book/route.ts` (steps 5 to 7),
`lib/idempotency/postgres-authority.ts` `checkIdempotency`, migration `140_fn_idempotency_check`.
Kind: P -/
theorem stripe_contract (h : Reachable cfg s) (hdistinct : s.Distinct cfg) : s.StripeContract cfg where
  granted_once _ _ _ hc hc' := hc.unique (verdictsOk_of_reach h).keys hc'
  booked_once := (inv_of_reach h).store.unique.bookings
  published_once := publishes_once h
  answered _ _ hrow := answers_of_row (verdictsOk_of_reach h) hdistinct hrow
  settled _ _ _ _ _ _ _ _ _ _ _ _ hcl hreplay hstep hrun ht :=
    answer_of_exec h hcl hreplay hstep hrun ht
  unchanged _ _ _ _ hcl hreq ha hstep hno :=
    (step_cases hstep).same_tables (inv_of_reach h) (verdictsOk_of_reach h) hcl hreq ha hno

end contract

/-- A configuration with the hashes of two bodies as `computeRequestHash` gives them. Source:
`lib/idempotency/request-hash.ts` `computeRequestHash`. Kind: D. Fidelity: exact on the two bodies -/
def hashing : Config where
  holdDurationSec := 300
  requestHash body :=
    if body = ⟨"12951", "Asha", none⟩ then
      "9e4b8cf9ec3f382286f822add5f4706a9aa6ebc5c5d176c4b97a523786587940"
    else if body = ⟨"12951", "Ravi", none⟩ then
      "4f96c3b9c2e0acb3179bdb8efc30cc58737d9f50b3ff30fa306effe8379b9e40"
    else body.passengerName

/-- The bodies that were posted. Source: `app/api/book/route.ts` (step 2). Kind: D -/
def bodies (s : Sys) : List BookRequest :=
  s.clients.filterMap fun cl => cl.task.request.bind PostRequest.parsed

/-- `Distinct`, computed. Source: none: infrastructure. Kind: D -/
def hashesDiffer (cfg : Config) (s : Sys) : Bool :=
  s.bodies.all fun b => s.bodies.all fun b' => cfg.requestHash b != cfg.requestHash b' || b == b'

/-- The computation is right. Source: none: infrastructure. Kind: L -/
theorem distinct_of_hashesDiffer {cfg : Config} {s : Sys} (h : s.hashesDiffer cfg = true) :
    s.Distinct cfg := by
  have hmem : ∀ {c k body}, s.Posted c k body → body ∈ s.bodies := by
    rintro c k body ⟨cl, req, hcl, hreq, -, hparsed⟩
    exact List.mem_filterMap.mpr ⟨cl, List.mem_of_getElem? hcl, by rw [hreq]; exact hparsed⟩
  intro c c' k body body' hbody hbody' hhash
  have hpair := List.all_eq_true.mp (List.all_eq_true.mp h body (hmem hbody)) body' (hmem hbody')
  simpa [hhash] using hpair

/-- The key of `asha` with another body. Source: `scripts/local-chaos.ts` (`ct5HashMismatch`). Kind: D -/
def clashing : PostRequest := { asha with body := some ⟨"12951", "Ravi", none⟩ }

/-- The first request is granted its key, and the second one is refused. Source:
`scripts/local-chaos.ts` (`ct5HashMismatch`). Kind: D -/
def clash : List Action :=
  [.post asha, .post clashing, .gate 0 true true, .gate 1 true true] ++ callReturns 0 0 1 ++ callReturns 1 1 1

/-- Some request is refused because of its body, and the hashes are distinct. Source: none:
infrastructure. Kind: D -/
def hasRefusedBody (s : Sys) : Bool :=
  s.hashesDiffer hashing && s.clients.any fun cl =>
    cl.task == .ingress clashing (.respond (.error 400 "idempotency_key_in_use"))

/-- The contract holds where it has been invoked. Source: `scripts/local-chaos.ts` (`ct5HashMismatch`).
Kind: L -/
theorem stripe_contract_clash : ∃ s : Sys, s.hasRefusedBody = true ∧ s.StripeContract hashing := by
  have hrun : (run (step hashing) opening clash).map hasRefusedBody = some true := by decide +kernel
  obtain ⟨s, hreach, hrefused⟩ := reach_of_run initial_opening hrun
  have hdistinct : s.hashesDiffer hashing = true := (Bool.and_eq_true_iff.mp hrefused).1
  exact ⟨s, hrefused, stripe_contract hreach (distinct_of_hashesDiffer hdistinct)⟩

end Sys

end TrainsAndTracks
