import TrainsAndTracks.Pipeline.Tickets
import TrainsAndTracks.Store.Serving

/-!
# Recovery from transient payment failures

A charge that fails leaves a `failed` row behind, and `charge` answers for the key with that row from then
on. So a delivery that gives up with a retryable 500 comes back to the same failure.

* `Retriable` — a `PENDING` booking whose message can be delivered again, with a free seat of its train and
  only transient failures behind it.
* `Recovers` — some continuation, in which every charge that is drawn succeeds, begins with the next
  delivery, and that delivery answers 200 with the booking `CONFIRMED`.
* `unrecovered` — a state that is `Retriable` and does not recover.
* `recovers_iff` — a `Retriable` state recovers exactly when no payment for the key has failed.
-/

namespace TrainsAndTracks

open Found

/-- The codes a retry may change. Source: `app/api/worker/allocate/route.ts` (`isPermanent`). Kind: D.
Fidelity: exact -/
def PaymentErrorCode.transient : PaymentErrorCode → Bool
  | .paymentDeclined => false
  | .gatewayTimeout | .gatewayUnreachable => true

/-- A charge for `k` that was answered has failed with a transient code. Source:
`lib/payment/mock-service.ts` `charge`. Kind: D -/
def Exec.failsTransiently (k : IdempotencyKey) (e : Exec) : Bool :=
  match e.call, e.pc with
  | .charge _ k', .done (.paymentError code) => k' != k || code.transient
  | .charge _ k', .done _ => k' != k
  | _, _ => true

namespace Sys

/-! ## The states a retry starts from -/

/-- Booking `b` is `PENDING`, message `m` is about it and can be delivered after `n` failures, its train
has an `AVAILABLE` seat, and every charge for its key that was answered has failed with a transient code.
Source: `docs/FAILURE_MATRIX.md` (3.5), `app/api/worker/allocate/route.ts` (step 6). Kind: D -/
structure Retriable (s : Sys) (m : MessageId) (n : ℕ) (b : Booking) : Prop where
  booking : s.store.bookings.committed.find? b.id = some b
  pending : b.status = .pending
  message : ∃ msg ∈ s.messages[m]?, msg.state = .active n ∧ msg.payload.bookingId = b.id
  seat : ∃ seat ∈ s.store.seats.committed.rows, seat.trainId = b.trainId ∧ seat.status = .available
  attempts : ∀ e ∈ s.store.execs, e.failsTransiently b.idempotencyKey = true

instance (s : Sys) (m : MessageId) (n : ℕ) (b : Booking) : Decidable (s.Retriable m n b) :=
  decidable_of_iff (s.store.bookings.committed.find? b.id = some b ∧ b.status = .pending ∧
      (∃ msg ∈ s.messages[m]?, msg.state = .active n ∧ msg.payload.bookingId = b.id) ∧
      (∃ seat ∈ s.store.seats.committed.rows, seat.trainId = b.trainId ∧ seat.status = .available) ∧
      ∀ e ∈ s.store.execs, e.failsTransiently b.idempotencyKey = true)
    ⟨fun ⟨hb, hp, hm, hs, ha⟩ => ⟨hb, hp, hm, hs, ha⟩, fun h => ⟨h.1, h.2, h.3, h.4, h.5⟩⟩

/-- A step in which the gateway succeeds: a charge that is drawn is paid. Source:
`lib/payment/mock-service.ts` `charge`. Kind: D -/
def GatewaySucceeds (_ : Sys) : Action → Prop
  | .store (.exec _ ch) => ch.gateway = none
  | _ => True

/-- In some continuation in which the gateway succeeds, the next delivery of `m` answers 200 and `b` is
`CONFIRMED`. The delivery is the next handler to start. Source: `docs/FAILURE_MATRIX.md` (3.5). Kind: D -/
def Recovers (cfg : Config) (s : Sys) (m : MessageId) (n : ℕ) (b : Booking) : Prop :=
  ∃ s₁ t cl r, step cfg s (.deliver m n) = some s₁ ∧ Steps (step cfg) GatewaySucceeds s₁ t ∧
    t.clients[s.clients.length]? = some cl ∧ cl.phase = .answered ∧ cl.task.status = some 200 ∧
    t.store.bookings.committed.find? b.id = some r ∧ r.status = .confirmed

/-- A payment for the booking's key has failed. Source: `lib/payment/mock-service.ts` `charge`. Kind: D -/
def ChargeFailed (s : Sys) (b : Booking) : Prop :=
  ∃ p ∈ s.store.payments.rows, p.idempotencyKey = b.idempotencyKey ∧ p.status = .failed

instance (s : Sys) (b : Booking) : Decidable (s.ChargeFailed b) :=
  inferInstanceAs (Decidable (∃ p ∈ s.store.payments.rows, p.idempotencyKey = b.idempotencyKey ∧
    p.status = .failed))

section recovery

variable {cfg : Config} {s s' t : Sys} {a : Action} {m : MessageId} {n : ℕ} {b : Booking}

/-! ## A failed payment is final -/

/-- **A booking with a failed payment is not confirmed**, in whatever follows. Source:
`lib/payment/mock-service.ts` `charge`, migration `050_payments` (`idempotency_key` is unique). Kind: P -/
theorem not_confirmed_of_chargeFailed {C : Sys → Action → Prop} (h : Reachable cfg s)
    (hfailed : s.ChargeFailed b) (hb : s.store.bookings.committed.find? b.id = some b)
    (hrun : Steps (step cfg) C s t) {r : Booking} (hr : t.store.bookings.committed.find? b.id = some r) :
    r.status ≠ .confirmed := by
  obtain ⟨p, hp, hk, hst⟩ := hfailed
  -- the payment and the key of the booking stay
  let P : Sys → Prop := fun t => Inv cfg t ∧ p ∈ t.store.payments ∧
    ∃ r, t.store.bookings.committed.find? b.id = some r ∧ r.idempotencyKey = b.idempotencyKey
  have hkept : P t := by
    refine hrun.invariant (P := P) (fun s a s' hs _ hst => ?_) ⟨inv_of_reach h, hp, b, hb, rfl⟩
    obtain ⟨hinv, hp, r, hr, hrk⟩ := hs
    have hle := (step_cases hst).le hinv.store.locks
    obtain ⟨r', hr', hg⟩ := hle.store.booking _ r hr
    exact ⟨hinv.step (step_cases hst), hle.store.mem_payments hp, r', hr', hg.idempotencyKey.trans hrk⟩
  obtain ⟨hinv, hp, r₁, hr₁, hrk⟩ := hkept
  obtain rfl := Option.eq_some_unique hr hr₁
  intro hconfirmed
  obtain ⟨payment, pay, -, hpay, hpaid, hpk, -⟩ := hinv.tickets.paid b.id _ hr hconfirmed
  have hsame := hinv.store.unique.payments p hp pay (Table.mem_of_find? hpay) (by rw [hk, hpk, hrk])
  rw [hsame, hpaid] at hst
  cases hst

/-! ## Prices and payments -/

/-- A booking has a price, and so has each one under way. Source: `app/api/book/route.ts`
(`PRICE_PAISE`). Kind: D -/
structure PricesOk (s : Sys) : Prop where
  bookings : ∀ k r, s.store.bookings.committed.find? k = some r → r.pricePaise ≠ 0
  calls : ∀ (i : ℕ) (e : Exec), s.store.execs[i]? = some e → ∀ args,
    e.call = .createBooking args → args.pricePaise ≠ 0

/-- Only the ingress creates bookings, at `PRICE_PAISE`. Source: `app/api/book/route.ts` (step 8).
Kind: L -/
theorem price_of_call {task : Task} {args : CreateBookingArgs}
    (h : task.call cfg = some (.createBooking args)) : args.pricePaise ≠ 0 := by
  cases task with
  | ingress req pc =>
    cases pc <;> simp only [Task.call, IngressPc.call, Option.some.injEq, reduceCtorEq] at h
    cases h
    simp [IngressPc.pricePaise]
  | worker d pc => cases pc <;> simp [Task.call, WorkerPc.call] at h
  | webhook cb pc => cases pc <;> simp [Task.call, WebhookPc.call] at h
  | dlqRetry id pc => cases pc <;> simp [Task.call, DlqRetryPc.call] at h
  | sweeper pc => cases pc <;> simp [Task.call, SweeperPc.call] at h

/-- **Every booking has a price** in every run. Source: `app/api/book/route.ts` (`PRICE_PAISE`). Kind: L -/
theorem pricesOk_of_reach (h : Reachable cfg s) : PricesOk s := by
  refine h.invariant (fun s hs => ?_) fun s a s' hreach hprices _ hst => ?_
  · constructor
    · intro k r hr
      rw [hs.store_initial.bookings_empty] at hr
      cases hr
    · intro i e he
      exact absurd he hs.store_initial.no_exec
  have hs := step_cases hst
  have hcalls := hs.forall_calls (P := fun _ call => ∀ args, call = .createBooking args →
      args.pricePaise ≠ 0) hprices.calls (fun _ h => h)
    (by
      rintro c cl call - hcall args rfl
      exact price_of_call hcall)
  refine ⟨fun k r hr => ?_, hcalls⟩
  rcases hs.store_cases with heq | ⟨b, hb, -⟩
  · rw [heq] at hr
    exact hprices.bookings k r hr
  · have hstep := Store.step_cases hb
    rcases Store.booking_old hstep hr with ⟨r₀, hr₀⟩ | ⟨-, i, ch, e, args, -, he, hcall, -, -, rfl⟩
    · obtain ⟨r₁, hr₁, hg⟩ := (hstep.le (inv_of_reach hreach).store.locks).booking k r₀ hr₀
      obtain rfl := Option.eq_some_unique hr hr₁
      rw [hg.pricePaise]
      exact hprices.bookings k r₀ hr₀
    · exact hprices.calls i e he args hcall

/-- **No payment is `pending`.** Source: `lib/payment/mock-service.ts` `charge`. Kind: L -/
theorem payment_drawn (h : Reachable cfg s) : ∀ p ∈ s.store.payments, p.status ≠ .pending := by
  refine h.invariant (P := fun s => ∀ p ∈ s.store.payments, p.status ≠ .pending)
    (fun s hs p hp => ?_) fun s a s' _ hdrawn _ hst p hp => ?_
  · rw [hs.store_initial.payments_empty] at hp
    exact absurd hp (Table.not_mem_empty p)
  rcases (step_cases hst).store_cases with heq | ⟨b, hb, -⟩
  · rw [heq] at hp
    exact hdrawn p hp
  · exact Store.payment_drawn_step hdrawn (Store.step_cases hb) p hp

/-! ## A delivery that nobody disturbs -/

/-- Steps of the store are steps of the pipeline. Source: none: infrastructure. Kind: L -/
theorem steps_of_store (cfg : Config) {σ σ' : Store} (h : Steps Store.step Store.Succeeds σ σ') (s : Sys) :
    Steps (step cfg) GatewaySucceeds { s with store := σ } { s with store := σ' } := by
  induction h with
  | refl => exact .refl
  | tail _ hst ih =>
    obtain ⟨a, hC, ha⟩ := hst
    refine ih.tail ⟨.store a, ?_, ?_⟩
    · cases a with
      | exec i ch => exact hC
      | _ => trivial
    · cases a with
      | begin call client => exact absurd hC id
      | _ => simp only [step, ha, Option.map_some]

/-- Handler `c`, delivery `d`, has reached `pc`, and the store is `σ`. Source: none: infrastructure.
Kind: D -/
def deliveryAt (s : Sys) (c : ℕ) (d : Delivery) (σ : Store) (pc : WorkerPc) : Sys :=
  { s with store := σ }.setClient c (.arrive (.worker d pc))

/-- A call is executed at least once. Source: `lib/resilience/pg-policy.ts`,
`lib/resilience/payment-policy.ts`. Kind: L -/
theorem attempts_pos (pc : WorkerPc) : ∃ left, pc.attempts = left + 1 := by
  cases pc <;> exact ⟨_, rfl⟩

/-- Handler `c` sends its call. Source: none: infrastructure. Kind: L -/
theorem step_issue {c left : ℕ} {cl : Client} {call : Call} (hcl : s.running c = some cl)
    (hcall : cl.task.call cfg = some call) (hleft : cl.phase.left = left + 1) :
    step cfg s (.issue c) = some { s.setClient c ⟨cl.task, .waiting s.store.execs.length left⟩ with
      store := s.store.begin call c } := by
  show s.issue cfg c = _
  unfold issue
  rw [hcl]
  simp only [hcall, hleft]

/-- Handler `c` receives a reply that is not a `PaymentError`. Source: none: infrastructure. Kind: L -/
theorem step_receive {c i left : ℕ} {task task' : Task} {e : Exec} {r : Reply}
    (hcl : s.clients[c]? = some ⟨task, .waiting i left⟩) (he : s.store.execs[i]? = some e)
    (hpc : e.pc = .done r) (hr : ∀ code, r ≠ .paymentError code)
    (htask : task.onReply cfg s.store.now r = some task') :
    step cfg s (.receive c) = some (s.setClient c (.arrive task')) := by
  obtain ⟨call, client, now, pc⟩ := e
  obtain rfl : pc = .done r := hpc
  show s.receive cfg c = _
  unfold receive
  rw [hcl]
  simp only [he]
  split
  · exact absurd rfl (hr _)
  · rw [htask, Option.map_some]

/-- **A call of a delivery** that is served alone takes it to its next `await`. Source:
`app/api/worker/allocate/route.ts` `handler`. Kind: L -/
theorem serves {c : ℕ} {d : Delivery} {pc pc' : WorkerPc} {σ σ' : Store} {call : Call} {r : Reply}
    (hc : c < s.clients.length) (hcall : pc.call cfg.holdDurationSec d.job = some call)
    (hserved : σ.Served call c r σ') (hexecs : σ'.execs = σ.execs) (hnow : σ'.now = σ.now)
    (hr : ∀ code, r ≠ .paymentError code) (hpc : pc.onReply d.retried d.job σ.now r = some pc') :
    Steps (step cfg) GatewaySucceeds (s.deliveryAt c d σ pc) (s.deliveryAt c d (σ'.after call c r) pc') := by
  obtain ⟨left, hleft⟩ := attempts_pos pc
  let waiting : Sys := s.setClient c ⟨.worker d pc, .waiting σ.execs.length left⟩
  have hissue : step cfg (s.deliveryAt c d σ pc) (.issue c) =
      some { waiting with store := σ.begin call c } := by
    have hrunning : (s.deliveryAt c d σ pc).running c = some (.arrive (.worker d pc)) :=
      running_eq_some.mpr ⟨by simp [deliveryAt, setClient, hc], rfl⟩
    rw [step_issue hrunning hcall hleft]
    simp only [deliveryAt, setClient, List.set_set, Client.arrive, waiting]
  have hreceive : step cfg { waiting with store := σ'.after call c r } (.receive c) =
      some (s.deliveryAt c d (σ'.after call c r) pc') := by
    have hclient : waiting.clients[c]? = some ⟨.worker d pc, .waiting σ.execs.length left⟩ := by
      simp [waiting, setClient, hc]
    have hexec : (σ'.after call c r).execs[σ.execs.length]? = some ⟨call, c, σ'.now, .done r⟩ := by
      rw [← hexecs]
      exact Store.execs_withExec σ' _
    have htask : (Task.worker d pc).onReply cfg σ'.now r = some (.worker d pc') := by
      rw [hnow, Task.onReply, hpc, Option.map_some]
    rw [step_receive (s := { waiting with store := σ'.after call c r }) hclient hexec rfl hr htask]
    simp only [deliveryAt, setClient, List.set_set, waiting]
  exact (Relation.ReflTransGen.single ⟨.issue c, trivial, hissue⟩).trans
    ((steps_of_store cfg hserved waiting).tail ⟨.receive c, trivial, hreceive⟩)

/-- **A delivery that nobody disturbs**, with the gateway succeeding, confirms its booking and answers 200.
Source: `app/api/worker/allocate/route.ts` `handler`. Kind: L -/
theorem delivers (cfg : Config) (s : Sys) (d : Delivery) {c : ℕ} {σ : Store} (hc : c < s.clients.length)
    (hσ : σ.Idle) (hhold : 0 < cfg.holdDurationSec)
    (hb : σ.bookings.committed.find? d.job.bookingId = some b)
    (hkey : b.idempotencyKey = d.job.idempotencyKey) (htrain : b.trainId = d.job.trainId)
    (hopen : b.status = .pending) (hprice : b.pricePaise ≠ 0)
    (hseat : ∃ seat ∈ σ.seats.committed, seat.trainId = b.trainId ∧ seat.status = .available)
    (hpaid : ∀ p ∈ σ.payments, p.idempotencyKey = b.idempotencyKey → p.status = .succeeded) :
    ∃ σ' answer r, Steps (step cfg) GatewaySucceeds (s.deliveryAt c d σ .getBooking)
        (s.deliveryAt c d σ' (.respond (.ok answer))) ∧
      σ'.bookings.committed.find? d.job.bookingId = some r ∧ r.status = .confirmed := by
  obtain ⟨seat, hmem, hseatTrain, hfree⟩ := hseat
  -- step 3
  let σ₁ := σ.after (.getBookingById d.job.bookingId) c (.booking (some b))
  have hserved₁ := hσ.served_getBookingById (b := d.job.bookingId) (c := c)
  rw [hb] at hserved₁
  have hget : Steps (step cfg) GatewaySucceeds (s.deliveryAt c d σ .getBooking)
      (s.deliveryAt c d σ₁ (.allocate b.pricePaise)) :=
    serves hc rfl hserved₁ rfl rfl nofun (by simp [WorkerPc.onReply, hopen])
  have hσ₁ : σ₁.Idle := hσ.after
  -- step 4
  obtain ⟨held, version, S, w, hserved₂, hw, hwb, hlive⟩ := hσ₁.served_allocateSeat (c := c)
    d.job.passengerName hhold hb hmem (hseatTrain.trans htrain) hfree
  let σ₂ := Store.after { σ₁ with seats := .ofTable S }
    (.allocateSeat d.job.trainId d.job.bookingId d.job.passengerName cfg.holdDurationSec) c
    (.allocated (some (held, version)))
  have hallocate : Steps (step cfg) GatewaySucceeds (s.deliveryAt c d σ₁ (.allocate b.pricePaise))
      (s.deliveryAt c d σ₂ (.charge b.pricePaise held)) :=
    serves hc rfl hserved₂ rfl rfl nofun rfl
  have hσ₂ : σ₂.Idle := ⟨rfl, hσ₁.bookings⟩
  -- step 6
  obtain ⟨payment, replayed, P, pay, hserved₃, hpay⟩ := hσ₂.served_charge (c := c)
    (k := d.job.idempotencyKey) hprice fun p hp hk => hpaid p hp (hk.trans hkey.symm)
  let σ₃ := Store.after { σ₂ with payments := P } (.charge b.pricePaise d.job.idempotencyKey) c
    (.paid payment replayed)
  have hcharge : Steps (step cfg) GatewaySucceeds (s.deliveryAt c d σ₂ (.charge b.pricePaise held))
      (s.deliveryAt c d σ₃ (.confirm b.pricePaise held payment)) :=
    serves hc rfl hserved₃ rfl rfl nofun rfl
  have hσ₃ : σ₃.Idle := ⟨rfl, hσ₂.bookings⟩
  -- step 7
  obtain ⟨S', B, r, hserved₄, hr, hconfirmed⟩ := hσ₃.served_confirmBooking (c := c)
    (b := d.job.bookingId) hb hopen hw hwb hlive hpay
  let σ₄ := Store.after { σ₃ with seats := .ofTable S', bookings := .ofTable B }
    (.confirmBooking d.job.bookingId held payment) c (.confirmed (some d.job.bookingId))
  have hconfirm : Steps (step cfg) GatewaySucceeds
      (s.deliveryAt c d σ₃ (.confirm b.pricePaise held payment))
      (s.deliveryAt c d σ₄ (.commitConfirmed b.pricePaise held σ₃.now)) :=
    serves hc rfl hserved₄ rfl rfl nofun rfl
  have hσ₄ : σ₄.Idle := ⟨rfl, rfl⟩
  -- step 8
  obtain ⟨K, hserved₅⟩ := hσ₄.served_writeIdempotencyResponse (c := c) (k := d.job.idempotencyKey)
    200 (WorkerPc.confirmedBody d.job b.pricePaise held σ₃.now)
  have hwrite : Steps (step cfg) GatewaySucceeds
      (s.deliveryAt c d σ₄ (.commitConfirmed b.pricePaise held σ₃.now)) _ :=
    serves hc rfl hserved₅ rfl rfl nofun rfl
  exact ⟨_, _, r, (((hget.trans hallocate).trans hcharge).trans hconfirm).trans hwrite, hr, hconfirmed⟩

/-- A delivery that is done answers. Source: `app/api/worker/allocate/route.ts` (step 9). Kind: L -/
theorem answers (cfg : Config) (s : Sys) (d : Delivery) (σ : Store) (answer : CachedBody) {c : ℕ}
    (hc : c < s.clients.length) :
    ∃ t, step cfg (s.deliveryAt c d σ (.respond (.ok answer))) (.answer c) = some t ∧
      t.clients[c]? = some ⟨.worker d (.respond (.ok answer)), .answered⟩ ∧ t.store = σ := by
  have hrunning : (s.deliveryAt c d σ (.respond (.ok answer))).running c =
      some (.arrive (.worker d (.respond (.ok answer)))) :=
    running_eq_some.mpr ⟨by simp [deliveryAt, setClient, hc], rfl⟩
  let task : Task := .worker d (.respond (.ok answer))
  refine ⟨((s.deliveryAt c d σ (.respond (.ok answer))).setClient c ⟨task, .answered⟩).settle task
    (some 200), ?_, ?_, rfl⟩
  · show Sys.answer _ c = _
    unfold Sys.answer
    rw [hrunning]
    rfl
  · simp [settle, deliveryAt, setClient, hc, task]

/-- With a failed payment it does not. Source: `lib/payment/mock-service.ts` `charge`. Kind: L -/
theorem not_recovers_of_chargeFailed (h : Reachable cfg s) (hs : s.Retriable m n b)
    (hfailed : s.ChargeFailed b) : ¬ s.Recovers cfg m n b := by
  rintro ⟨s₁, t, cl, r, hdeliver, hrun, -, -, -, hr, hconfirmed⟩
  have hall := (Relation.ReflTransGen.single ⟨.deliver m n, trivial, hdeliver⟩).trans hrun
  exact not_confirmed_of_chargeFailed h hfailed hs.booking hall hr hconfirmed

/-- Without a failed payment the state recovers. Source: `lib/payment/mock-service.ts` `charge`,
`app/api/worker/allocate/route.ts` `handler`. Kind: L -/
theorem recovers_of_not_chargeFailed (hhold : 0 < cfg.holdDurationSec) (h : Reachable cfg s)
    (hs : s.Retriable m n b) (hpaid : ¬ s.ChargeFailed b) : s.Recovers cfg m n b := by
  obtain ⟨msg, hmsg, -, hid⟩ := hs.message
  have hmsg : s.messages[m]? = some msg := hmsg
  have hinv := inv_of_reach h
  have hjob := hinv.messages m msg hmsg
  obtain ⟨r, hr, hkey, htrain⟩ := hjob.booked
  rw [hid, hs.booking] at hr
  cases hr
  let d : Delivery := ⟨m, n, msg.payload⟩
  let c := s.clients.length
  let s₁ := s.spawn (.worker d .chaosGate)
  have hc : c < s₁.clients.length := by simp [s₁, c, spawn]
  have hdeliver : step cfg s (.deliver m n) = some s₁ := by simp only [step, hmsg, Option.map_some, s₁, d]
  have hchaos : step cfg s₁ (.chaos c none) = some (s₁.deliveryAt c d s.store .getBooking) := by
    have hrunning : s₁.running c = some (.arrive (.worker d .chaosGate)) :=
      running_eq_some.mpr ⟨by simp [s₁, c, spawn], rfl⟩
    show s₁.chaos c none = _
    unfold chaos
    rw [hrunning]
    simp only [Client.arrive, WorkerPc.parse, d, hjob.valid, if_true]
    rfl
  -- what is under way fails, and the delivery is alone
  obtain ⟨σ, hdrain, hsame, hσ⟩ := Store.idle_of_drain hinv.store.locks
  obtain ⟨σ', answer, r, hrun, hr, hconfirmed⟩ := delivers cfg s₁ d hc hσ hhold
    (by rw [hsame.bookings, hid]; exact hs.booking) hkey htrain hs.pending
    ((pricesOk_of_reach h).bookings _ _ hs.booking) (by rw [hsame.seats]; exact hs.seat)
    (by
      intro p hp hk
      rw [hsame.payments] at hp
      cases hst : p.status with
      | succeeded => rfl
      | failed => exact absurd ⟨p, hp, hk, hst⟩ hpaid
      | pending => exact absurd hst (payment_drawn h p hp))
  obtain ⟨t, hanswer, hclient, hstore⟩ := answers cfg s₁ d σ' answer hc
  have hidle := steps_of_store cfg hdrain (s₁.deliveryAt c d s.store .getBooking)
  refine ⟨s₁, t, _, r, hdeliver, ?_, hclient, rfl, rfl, ?_, hconfirmed⟩
  · exact (((Relation.ReflTransGen.single ⟨.chaos c none, trivial, hchaos⟩).trans hidle).trans hrun).tail
      ⟨.answer c, trivial, hanswer⟩
  · rw [hstore, ← hid]
    exact hr

end recovery

/-! ## A failure that stays -/

/-- Handler 1 allocates, its charge times out, the policy's two retries find the failure, the hold is
released, and the answer is a 500. Source: none: infrastructure. Kind: D -/
def timingOut : List Action :=
  accepting ++ [.deliver 0 0, .chaos 1 none] ++ callReturns 1 3 1 ++ callReturns 1 4 2 ++
    [.issue 1, .store (.start 5), .store (.exec 5 Store.usualChoice),
      .store (.exec 5 ⟨1, some .gatewayTimeout, "12951-A1"⟩), .store (.commit 5), .receive 1] ++
    callReturns 1 6 1 ++ callReturns 1 7 1 ++ callReturns 1 8 2 ++ [.answer 1]

/-- The first booking, its message after `n` failures, is `Retriable`, and a charge for it has failed or
not. Source: none: infrastructure. Kind: D -/
def retriable (n : ℕ) (failed : Bool) (s : Sys) : Bool :=
  (s.store.bookings.committed.find? 1).any fun b =>
    decide (s.Retriable 0 n b) && decide (s.ChargeFailed b) == failed

/-- What the check says. Source: none: infrastructure. Kind: L -/
theorem of_retriable {s : Sys} {n : ℕ} {failed : Bool} (h : s.retriable n failed = true) :
    ∃ b, s.Retriable 0 n b ∧ (s.ChargeFailed b ↔ failed = true) := by
  obtain ⟨b, -, hb⟩ := (Option.any_eq_true _ _).mp h
  simp only [Bool.and_eq_true, decide_eq_true_eq, beq_iff_eq] at hb
  exact ⟨b, hb.1, by rw [← hb.2, decide_eq_true_eq]⟩

/-- **A transient failure that stays.** In some reachable pipeline a booking is `PENDING`, its message is
to be delivered again, a seat is free, the charges have failed with `gateway_timeout` only, and no
continuation confirms it. Source: `lib/payment/mock-service.ts` `charge`, `docs/FAILURE_MATRIX.md` (3.5).
Kind: P -/
theorem unrecovered : ¬ ∀ (cfg : Config) s m n b, 0 < cfg.holdDurationSec → Reachable cfg s →
    s.Retriable m n b → s.Recovers cfg m n b := by
  intro h
  have hrun : (run (step config) opening timingOut).map (retriable 1 true) = some true := by decide +kernel
  obtain ⟨s, hreach, hs⟩ := reach_of_run initial_opening hrun
  obtain ⟨b, hb, hfailed⟩ := of_retriable hs
  exact not_recovers_of_chargeFailed hreach hb (hfailed.mpr rfl) (h config s 0 1 b (by decide) hreach hb)

section recovery

variable {cfg : Config} {s : Sys} {m : MessageId} {n : ℕ} {b : Booking}

/-- **Recovery.** A `PENDING` booking whose message can be delivered again, with a free seat of its train
and only transient failures behind it, can be confirmed by the next delivery exactly when no payment for
its key has failed. Source: `lib/payment/mock-service.ts` `charge`, `docs/FAILURE_MATRIX.md` (3.5).
Kind: P -/
theorem recovers_iff (hhold : 0 < cfg.holdDurationSec) (h : Reachable cfg s)
    (hs : s.Retriable m n b) : s.Recovers cfg m n b ↔ ¬ s.ChargeFailed b :=
  ⟨fun hrec hfailed => not_recovers_of_chargeFailed h hs hfailed hrec,
    recovers_of_not_chargeFailed hhold h hs⟩

/-- Handler 1 allocates, the breaker of its charge is open, the hold is released, and the answer is a 500.
Source: none: infrastructure. Kind: D -/
def breaking : List Action :=
  accepting ++ [.deliver 0 0, .chaos 1 none] ++ callReturns 1 3 1 ++ callReturns 1 4 2 ++ [.throw 1] ++
    callReturns 1 5 2 ++ [.answer 1]

/-- A delivery that was cut short recovers. Source: none: infrastructure. Kind: L -/
theorem recovers_iff_breaking : ∃ s b, Reachable config s ∧ s.Retriable 0 1 b ∧
    s.Recovers config 0 1 b := by
  have hrun : (run (step config) opening breaking).map (retriable 1 false) = some true := by decide +kernel
  obtain ⟨s, hreach, hs⟩ := reach_of_run initial_opening hrun
  obtain ⟨b, hb, hfailed⟩ := of_retriable hs
  exact ⟨s, b, hreach, hb, (recovers_iff (by decide) hreach hb).mpr (by simp [hfailed])⟩

end recovery

end Sys

end TrainsAndTracks
