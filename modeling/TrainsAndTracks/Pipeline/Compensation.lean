import TrainsAndTracks.Pipeline.Refunds

/-!
# Compensation

A payment of a `FAILED` or `EXPIRED` booking must be refunded, and only a delivery that is between its
step 3 and its `refund` will do so (`Client.compensates`). The obligation is lost when a booking ends,
or a charge succeeds, while no such delivery runs, and when the last one leaves: it crashes, a call
throws, or its second allocation finds the train sold out. `Compensated` excludes these steps, and then
somebody owes every refund that is due (`Due`), so that at rest all have been made.

* `unrefunded_payment` — the delivery crashes after its charge, the hold expires, and the sweep ends
  the booking.
* `payments_refunded` — at rest no payment of a lost booking is left, in compensated runs.
-/

namespace TrainsAndTracks

open Found

open Store (JobOk PaidFor)

/-- The points of a delivery from which it goes on to `refund` when the booking is lost.
Source: `app/api/worker/allocate/route.ts` (steps 4 to 7). Kind: D -/
def WorkerPc.compensates : WorkerPc → Bool
  | .allocate _ | .charge .. | .confirm .. | .refund _ => true
  | _ => false

/-- The handler is a delivery of booking `b` that goes on to `refund` when `b` is lost.
Source: `app/api/worker/allocate/route.ts` (steps 4 to 7). Kind: D -/
def Client.compensates (b : BookingId) (cl : Client) : Bool :=
  cl.phase.live && match cl.task with
    | .worker d pc => d.job.bookingId == b && pc.compensates
    | _ => false

namespace Store

/-- The key execution `i` is about to record a charge for. Source: `lib/payment/mock-service.ts`
`charge` (the insert). Kind: D -/
def charging (σ : Store) (i : ℕ) : Option IdempotencyKey :=
  match σ.execs[i]? with
  | some ⟨.charge _ k, _, _, .chargeInsert⟩ => some k
  | _ => none

end Store

namespace Sys

/-- A successful payment for the key was not refunded. Source: `lib/payment/mock-service.ts`
`charge`, `refund`. Kind: D -/
def Unrefunded (s : Sys) (k : IdempotencyKey) : Prop :=
  ∃ pay ∈ s.store.payments.rows, pay.status = .succeeded ∧ pay.idempotencyKey = k ∧
    pay.id ∉ s.refunds

instance (s : Sys) (k : IdempotencyKey) : Decidable (s.Unrefunded k) :=
  inferInstanceAs (Decidable (∃ pay ∈ s.store.payments.rows, pay.status = .succeeded ∧
    pay.idempotencyKey = k ∧ pay.id ∉ s.refunds))

/-- No payment of a `FAILED` or `EXPIRED` booking is left unrefunded. Source:
`app/api/worker/allocate/route.ts` (step 7), `docs/FAILURE_MATRIX.md` (crash after the charge).
Kind: D -/
def PaymentsRefunded (s : Sys) : Prop :=
  ∀ b r, s.store.bookings.committed.find? b = some r → r.status.lost = true →
    ∀ pay ∈ s.store.payments, pay.status = .succeeded → pay.idempotencyKey = r.idempotencyKey →
      pay.id ∈ s.refunds

/-- The handler whose reply says that the train is sold out. Source:
`app/api/worker/allocate/route.ts` (step 5). Kind: D -/
def soldOut (s : Sys) (c : ℕ) : Bool :=
  match s.clients[c]? with
  | some ⟨.worker _ (.allocate _), .waiting i _⟩ =>
    match s.store.execs[i]? with
    | some ⟨_, _, _, .done (.allocated none)⟩ => true
    | _ => false
  | _ => false

/-- The delivery that leaves steps 4 to 7 without a refund. Source:
`app/api/worker/allocate/route.ts` (`catch` blocks, step 5). Kind: D -/
def leaves (s : Sys) : Action → Option ℕ
  | .throw c | .crash c => some c
  | .receive c => if s.soldOut c then some c else none
  | _ => none

/-- A step that leaves no refund to nobody: a booking that ends with a payment, and a charge for a lost
booking, find a delivery that compensates, and a delivery that leaves finds another one. Source:
`app/api/worker/allocate/route.ts` (steps 4 to 7). Kind: D -/
def Compensated (s : Sys) : Action → Prop
  | .store (.commit i) => ∀ r ∈ s.store.bookings.committed.rows,
    ∀ own ∈ s.store.bookings.lock r.id, own.1 = i → own.2.status.lost = true →
      s.Unrefunded r.idempotencyKey → ∃ cl ∈ s.clients, cl.compensates r.id = true
  | .store (.exec i ch) => ∀ k ∈ s.store.charging i, ch.gateway = none →
    ∀ r ∈ s.store.bookings.committed.rows, r.idempotencyKey = k → r.status.lost = true →
      ∃ cl ∈ s.clients, cl.compensates r.id = true
  | a => ∀ c ∈ s.leaves a, ∀ r ∈ s.store.bookings.committed.rows, r.status.lost = true →
    s.Unrefunded r.idempotencyKey → ((s.clients[c]?).any (·.compensates r.id)) = true →
      ∃ cl ∈ s.clients.eraseIdx c, cl.compensates r.id = true

instance (s : Sys) (a : Action) : Decidable (Compensated s a) :=
  let others (a : Action) : Decidable (∀ c ∈ s.leaves a, ∀ r ∈ s.store.bookings.committed.rows,
      r.status.lost = true → s.Unrefunded r.idempotencyKey →
      ((s.clients[c]?).any (·.compensates r.id)) = true →
        ∃ cl ∈ s.clients.eraseIdx c, cl.compensates r.id = true) := inferInstance
  match a with
  | .store (.commit i) => inferInstanceAs (Decidable (∀ r ∈ s.store.bookings.committed.rows,
    ∀ own ∈ s.store.bookings.lock r.id, own.1 = i → own.2.status.lost = true →
      s.Unrefunded r.idempotencyKey → ∃ cl ∈ s.clients, cl.compensates r.id = true))
  | .store (.exec i ch) => inferInstanceAs (Decidable (∀ k ∈ s.store.charging i,
    ch.gateway = none → ∀ r ∈ s.store.bookings.committed.rows, r.idempotencyKey = k →
      r.status.lost = true → ∃ cl ∈ s.clients, cl.compensates r.id = true))
  | .store (.begin ..) | .store (.start _) | .store (.abort _) | .store (.tick _) | .post _
  | .deliver .. | .failureCallback _ | .retryDlq _ | .sweep | .issue _ | .receive _ | .throw _
  | .gate .. | .publish .. | .chaos .. | .refund _ | .answer _ | .crash _ => others _

/-- Somebody owes every refund that is due. Source: `app/api/worker/allocate/route.ts` (steps 4 to 7).
Kind: D -/
def Due (s : Sys) : Prop :=
  ∀ b r, s.store.bookings.committed.find? b = some r → r.status.lost = true →
    s.Unrefunded r.idempotencyKey →
    ∃ (c : ℕ) (cl : Client), s.clients[c]? = some cl ∧ cl.compensates b = true

section due

variable {cfg : Config} {s s' : Sys} {a : Action} {c : ℕ} {d : Delivery} {pc pc' : WorkerPc}
variable {ph ph' : Phase} {b : BookingId}

/-- A compensating handler is a running delivery of the booking. Source: none: infrastructure.
Kind: L -/
theorem compensates_iff {cl : Client} : cl.compensates b = true ↔
    ∃ d pc ph, cl = ⟨.worker d pc, ph⟩ ∧ ph.live = true ∧ d.job.bookingId = b ∧
      pc.compensates = true := by
  obtain ⟨t, ph⟩ := cl
  cases t <;> simp [Client.compensates]

/-- A compensating delivery stays one, leaves, refunds, or learns something that does not happen to
the payment of a lost booking. Source: `app/api/worker/allocate/route.ts` (steps 4 to 7). Kind: L -/
theorem WorkerMoves.compensates (h : WorkerMoves cfg s c d a pc ph pc' ph')
    (hcl : s.clients[c]? = some ⟨.worker d pc, ph⟩) (hpc : pc.compensates = true) :
    (pc'.compensates = true ∧ ph'.live = true) ∨ s.leaves a = some c ∨
    (∃ p, a = .refund c ∧ pc = .refund p) ∨
    ∃ i left e, ph = .waiting i left ∧ s.store.execs[i]? = some e ∧
      ((∃ price seat code, pc = .charge price seat ∧ e.pc = .done (.paymentError code)) ∨
        ∃ price seat p b', pc = .confirm price seat p ∧ e.pc = .done (.confirmed (some b'))) := by
  cases h with
  | issue | again => exact .inl ⟨hpc, rfl⟩
  | @receive _ i left e r _ he hdone hreply =>
    cases hreply with
    | soldOut =>
      obtain ⟨call, client, now, epc⟩ := e
      cases hdone
      exact .inr (.inl (by simp [leaves, soldOut, hcl, he]))
    | allocated | paid | holdLost => exact .inl ⟨rfl, rfl⟩
    | refused => exact .inr (.inr (.inr ⟨i, left, e, rfl, he, .inl ⟨_, _, _, rfl, hdone⟩⟩))
    | confirmed => exact .inr (.inr (.inr ⟨i, left, e, rfl, he, .inr ⟨_, _, _, _, rfl, hdone⟩⟩))
    | _ => cases hpc
  | throw | crash => exact .inr (.inl rfl)
  | refund => exact .inr (.inr (.inl ⟨_, rfl, rfl⟩))
  | parsed | chaos | answer => cases hpc

/-- The handlers but one. Source: none: infrastructure. Kind: L -/
theorem exists_of_mem_eraseIdx {cl : Client} (h : cl ∈ s.clients.eraseIdx c) :
    ∃ c', c' ≠ c ∧ s.clients[c']? = some cl :=
  List.mem_eraseIdx_iff_getElem?.mp h

/-- A charge that is recorded as a success was drawn so. Source: `lib/payment/mock-service.ts`
`charge`. Kind: L -/
theorem gateway_of_charge {σ : Store} {i : ℕ} {now : Time} {ch : Choice} {amount : ℕ}
    {k : IdempotencyKey} {row : Payment} {next : Pc}
    (h : σ.stmt i now ch (.charge amount k) .chargeInsert = some (.insertPayment row next))
    (hst : row.status = .succeeded) : ch.gateway = none := by
  simp only [Store.stmt, Store.charge] at h
  split at h
  · cases h
  · split at h
    · assumption
    · cases h
      cases hst

/-- **A new successful payment** is a charge of its key that was drawn a success.
Source: `lib/payment/mock-service.ts` `charge`. Kind: L -/
theorem new_payment {σ σ' : Store} {b : Store.Action} (hs : σ.Stepped b σ') {pay : Payment}
    (hpay : pay ∈ σ'.payments) (hst : pay.status = .succeeded) : pay ∈ σ.payments ∨
    ∃ i ch, b = .exec i ch ∧ σ.charging i = some pay.idempotencyKey ∧ ch.gateway = none ∧
      σ'.bookings = σ.bookings := by
  cases hs with
  | @insertPayment i ch e row next he hr hnew hkey hstmt =>
    rcases (Table.mem_insert (h := hnew)).mp hpay with hmem | rfl
    · exact .inl hmem
    · obtain ⟨call, client, now, pc⟩ := e
      refine .inr ⟨i, ch, rfl, ?_, ?_, rfl⟩ <;> cases hr
      · simp [Store.charging, he]
      · simp [Store.charging, he]
      · exact gateway_of_charge hstmt hst
      · exact gateway_of_charge hstmt hst
  | _ => exact .inl hpay

/-- What becomes due in a step of the store was due before, or the condition finds who owes it.
Source: `app/api/worker/allocate/route.ts` (steps 4 to 7). Kind: L -/
theorem due_cases (hinv : Inv cfg s) {b' : Store.Action} {σ : Store} (hstep : s.store.step b' = some σ)
    (hC : Compensated s (.store b')) {r' : Booking} (hr' : σ.bookings.committed.find? b = some r')
    (hlost : r'.status.lost = true) {pay : Payment} (hpay : pay ∈ σ.payments)
    (hst : pay.status = .succeeded) (hk : pay.idempotencyKey = r'.idempotencyKey)
    (hno : pay.id ∉ s.refunds) :
    (s.store.bookings.committed.find? b = some r' ∧ pay ∈ s.store.payments) ∨
    ∃ cl ∈ s.clients, cl.compensates b = true := by
  have hl := hinv.store.locks
  have hs := Store.step_cases hstep
  rcases Store.booking_old hs hr' with ⟨r, hr⟩ | ⟨-, i, ch, e, args, -, -, -, -, -, rfl⟩
  · obtain rfl : r.id = b := Table.key_of_find? hr
    rcases Store.booking_change hl hs hr hr' with rfl | ⟨i, e, reply, rfl, he, hpc, hlock, hw⟩
    · rcases new_payment hs hpay hst with hmem | ⟨i, ch, rfl, hcharge, hdraw, -⟩
      · exact .inl ⟨hr, hmem⟩
      · exact .inr (hC _ hcharge hdraw r' (Table.mem_of_find? hr) hk.symm hlost)
    · rcases new_payment hs hpay hst with hmem | ⟨_, _, heq, -⟩
      · rw [hw.grows.idempotencyKey] at hk
        exact .inr (hC r (Table.mem_of_find? hr) (i, r') hlock rfl hlost ⟨pay, hmem, hst, hk, hno⟩)
      · cases heq
  · cases hlost

/-- Whoever leaves takes the step. Source: none: infrastructure. Kind: L -/
theorem client_of_leaves (h : s.leaves a = some c) : a.client = some c := by
  cases a with
  | throw | crash => exact h
  | receive c' =>
    simp only [leaves] at h
    split at h
    · exact h
    · cases h
  | _ => cases h

/-- A delivery that leaves hands a due refund over. Source: `app/api/worker/allocate/route.ts`
(steps 4 to 7). Kind: L -/
theorem handed_over (hs : Stepped cfg s a s') (hC : Compensated s a) {r : Booking} {cl : Client}
    (hr : s.store.bookings.committed.find? b = some r) (hlost : r.status.lost = true)
    (hdue : s.Unrefunded r.idempotencyKey) (hcl : s.clients[c]? = some cl)
    (hcomp : cl.compensates b = true) (hleave : s.leaves a = some c) :
    ∃ (c' : ℕ) (cl' : Client), s'.clients[c']? = some cl' ∧ cl'.compensates b = true := by
  obtain rfl : r.id = b := Table.key_of_find? hr
  have hany : ((s.clients[c]?).any (·.compensates r.id)) = true := by
    rw [hcl]
    exact hcomp
  obtain ⟨cl₂, hmem₂, hcomp₂⟩ : ∃ cl ∈ s.clients.eraseIdx c, cl.compensates r.id = true := by
    cases a <;> first
      | exact hC c hleave r (Table.mem_of_find? hr) hlost hdue hany
      | cases hleave
  obtain ⟨c₂, hne, hcl₂⟩ := exists_of_mem_eraseIdx hmem₂
  refine ⟨c₂, cl₂, hs.client_of_ne hcl₂ ?_, hcomp₂⟩
  rw [client_of_leaves hleave]
  simpa using hne.symm

/-- A key has one payment: what was paid for the job is the payment for its booking's key.
Source: migration `050_payments` (`idempotency_key` is unique). Kind: L -/
theorem eq_of_paidFor (hinv : Inv cfg s) {job : AllocateJobPayload} {r : Booking} {pay : Payment}
    {p : PaymentId} (hjob : JobOk s.store job) (hpaid : PaidFor s.store job p)
    (hr : s.store.bookings.committed.find? job.bookingId = some r) (hpay : pay ∈ s.store.payments)
    (hk : pay.idempotencyKey = r.idempotencyKey) : pay.id = p := by
  obtain ⟨r₁, hr₁, hk₁, -⟩ := hjob.booked
  obtain rfl := Option.eq_some_unique hr hr₁
  obtain ⟨pay₁, hpay₁, -, hk₂⟩ := hpaid
  obtain rfl := hinv.store.unique.payments pay hpay pay₁ (Table.mem_of_find? hpay₁)
    (by rw [hk, hk₁, hk₂])
  exact Table.key_of_find? hpay₁

/-- The charge of a delivery is not refused while its booking has a successful payment.
Source: `lib/payment/mock-service.ts` `charge`. Kind: L -/
theorem not_refused_of_paid (hinv : Inv cfg s) {i left price : ℕ} {e : Exec} {seat : SeatId}
    {code : PaymentErrorCode} {r : Booking} {pay : Payment}
    (hcl : s.clients[c]? = some ⟨.worker d (.charge price seat), .waiting i left⟩)
    (he : s.store.execs[i]? = some e)
    (hr : s.store.bookings.committed.find? d.job.bookingId = some r) (hpay : pay ∈ s.store.payments)
    (hst : pay.status = .succeeded) (hk : pay.idempotencyKey = r.idempotencyKey) :
    e.pc ≠ .done (.paymentError code) := by
  intro hdone
  obtain ⟨e₁, he₁, hcall, -⟩ := hinv.waits c _ _ _ hcl
  obtain rfl := Option.eq_some_unique he he₁
  obtain ⟨hjob, -⟩ := hinv.tasks c _ hcl
  obtain ⟨r₁, hr₁, hk₁, -⟩ := hjob.booked
  obtain rfl := Option.eq_some_unique hr hr₁
  have hreply := hinv.store.replies i e he _ (.inr hdone)
  rw [← Option.some.inj hcall] at hreply
  obtain ⟨pay₁, hpay₁, hfailed, hk₂⟩ := hreply
  obtain rfl := hinv.store.unique.payments pay hpay pay₁ hpay₁ (by rw [hk, hk₁, hk₂])
  rw [hst] at hfailed
  cases hfailed

/-- The booking of a delivery that receives its row is `CONFIRMED`. Source: migration
`110_fn_confirm_booking`. Kind: L -/
theorem confirmed_of_reply (hinv : Inv cfg s) {i left price : ℕ} {e : Exec} {seat : SeatId}
    {p : PaymentId} {b' : BookingId} {r : Booking}
    (hcl : s.clients[c]? = some ⟨.worker d (.confirm price seat p), .waiting i left⟩)
    (he : s.store.execs[i]? = some e) (hdone : e.pc = .done (.confirmed (some b')))
    (hr : s.store.bookings.committed.find? d.job.bookingId = some r) : r.status = .confirmed := by
  obtain ⟨e₁, he₁, hcall, -⟩ := hinv.waits c _ _ _ hcl
  obtain rfl := Option.eq_some_unique he he₁
  obtain ⟨r₁, hr₁, hconfirmed, -⟩ := (hinv.store.confirms i e he _ _ _
    (Option.some.inj hcall).symm).confirmed _ hdone
  obtain rfl := Option.eq_some_unique hr hr₁
  exact hconfirmed

/-- A delivery that owes a due refund goes on owing it, hands it over, or makes it.
Source: `app/api/worker/allocate/route.ts` (steps 4 to 7). Kind: L -/
theorem due_moves (hinv : Inv cfg s) (hs : Stepped cfg s a s') (hC : Compensated s a) {r : Booking}
    {cl : Client} (hr : s.store.bookings.committed.find? b = some r) (hlost : r.status.lost = true)
    {pay : Payment} (hpay : pay ∈ s.store.payments) (hst : pay.status = .succeeded)
    (hk : pay.idempotencyKey = r.idempotencyKey) (hno : pay.id ∉ s'.refunds)
    (hno' : pay.id ∉ s.refunds) (hcl : s.clients[c]? = some cl) (hcomp : cl.compensates b = true) :
    ∃ (c' : ℕ) (cl' : Client), s'.clients[c']? = some cl' ∧ cl'.compensates b = true := by
  obtain ⟨d, pc, ph, rfl, hlive, rfl, hpc⟩ := compensates_iff.mp hcomp
  obtain ⟨hjob, -, hok⟩ := hinv.tasks c _ hcl
  rcases hs.worker_next hcl with ⟨hcl', -⟩ | ⟨pc', ph', hcl', hmove⟩
  · exact ⟨c, _, hcl', hcomp⟩
  rcases hmove.compensates hcl hpc with ⟨hpc', hlive'⟩ | hleave | ⟨p, rfl, rfl⟩ |
    ⟨i, left, e, rfl, he, ⟨price, seat, code, rfl, hdone⟩ | ⟨price, seat, p, b', rfl, hdone⟩⟩
  · exact ⟨c, _, hcl', compensates_iff.mpr ⟨d, pc', ph', rfl, hlive', rfl, hpc'⟩⟩
  · exact handed_over hs hC hr hlost ⟨pay, hpay, hst, hk, hno'⟩ hcl hcomp hleave
  · -- the refund that is made is the one that is due
    exfalso
    obtain rfl := eq_of_paidFor hinv hjob hok hr hpay hk
    cases hs with
    | refund hcl₀ =>
      obtain ⟨hcl₀, -⟩ := running_eq_some.mp hcl₀
      rw [hcl] at hcl₀
      cases hcl₀
      exact hno (by simp)
    | start ht => cases ht
    | go _ hgoes => exact hgoes.ne_refund c rfl
  · exact absurd hdone (not_refused_of_paid hinv hcl he hr hpay hst hk)
  · rw [confirmed_of_reply hinv hcl he hdone hr] at hlost
    cases hlost

/-- **Compensated steps keep every due refund owed.** Source: `app/api/worker/allocate/route.ts`
(steps 4 to 7). Kind: L -/
theorem Due.step (hinv : Inv cfg s) (h : Due s) (hs : Stepped cfg s a s') (hC : Compensated s a) :
    Due s' := by
  rintro b r' hr' hlost ⟨pay, hpay, hst, hk, hno⟩
  have hno' : pay.id ∉ s.refunds := by
    rcases hs.refund_cases with heq | ⟨_, _, _, _, -, -, heq⟩ <;> rw [heq] at hno
    · exact hno
    · exact fun hmem => hno (List.mem_append_left _ hmem)
  have hold : s.store.bookings.committed.find? b = some r' → pay ∈ s.store.payments →
      ∃ (c : ℕ) (cl : Client), s'.clients[c]? = some cl ∧ cl.compensates b = true := by
    intro hr hmem
    obtain ⟨c, cl, hcl, hcomp⟩ := h b r' hr hlost ⟨pay, hmem, hst, hk, hno'⟩
    exact due_moves hinv hs hC hr hlost hmem hst hk hno hno' hcl hcomp
  rcases hs.store_cases with heq | ⟨b', hb', ⟨rfl, -⟩ | ⟨_, _, _, -, rfl, -⟩⟩
  · rw [heq] at hr' hpay
    exact hold hr' hpay
  · rcases due_cases hinv hb' hC hr' hlost hpay hst hk hno' with ⟨hr, hmem⟩ | ⟨cl, hmem, hcomp⟩
    · exact hold hr hmem
    · obtain ⟨c, hcl⟩ := List.mem_iff_getElem?.mp hmem
      exact ⟨c, cl, hs.client_of_ne hcl (by simp [Action.client]), hcomp⟩
  · rw [← Option.some.inj hb'] at hr' hpay
    exact hold hr' hpay

/-- **No payment without ticket.** At rest, after a run in which every step that would leave a due
refund to nobody is avoided, each successful payment of a `FAILED` or `EXPIRED` booking was refunded.
Source: `app/api/worker/allocate/route.ts` (step 7), `docs/FAILURE_MATRIX.md` (crash after the
charge). Kind: P -/
theorem payments_refunded (h : Reach (step cfg) Initial Compensated s) (hrest : s.Quiescent) :
    s.PaymentsRefunded := by
  have hdue : s.Due := by
    refine h.invariant (P := Due) (fun s hinit b r hr => ?_)
      fun s a s' hreach hdue hC hstep => hdue.step (inv_of_reach hreach) (step_cases hstep) hC
    rw [hinit.store_initial.bookings_empty] at hr
    cases hr
  intro b r hr hlost pay hpay hst hk
  by_contra hno
  obtain ⟨c, cl, hcl, hcomp⟩ := hdue b r hr hlost ⟨pay, hpay, hst, hk, hno⟩
  obtain ⟨d, pc, ph, rfl, hlive, -⟩ := compensates_iff.mp hcomp
  rw [hrest.no_handler _ (List.mem_of_getElem? hcl)] at hlive
  cases hlive

end due

/-- A delivery that has waited out its hold refunds, and everything comes to rest.
Source: none: infrastructure. Kind: D -/
def refunding : List Action := expiring ++ callReturns 1 8 1 ++ [.answer 1, .answer 2]

/-- A compensated run with a refund that comes to rest. Source: none: infrastructure. Kind: L -/
theorem payments_refunded_refunding : ∃ s : Sys, s.refunds = [1] ∧ s.PaymentsRefunded := by
  have hrun : (run (guarded (step config) Compensated) opening refunding).map
      (fun s => s.atRest && s.refunds == [1]) = some true := by decide +kernel
  obtain ⟨s, hreach, hp⟩ := reach_of_guarded initial_opening hrun
  obtain ⟨hrest, hrefund⟩ := (Bool.and_eq_true _ _).mp hp
  exact ⟨s, beq_iff_eq.mp hrefund, payments_refunded hreach (quiescent_of_atRest hrest).1⟩

/-! ## The failing schedule -/

/-- The delivery crashes after its charge, the hold expires and is swept, and the next delivery finds
the booking `EXPIRED`. Source: none: infrastructure. Kind: D -/
def crashing : List Action :=
  accepting ++ [.deliver 0 0, .chaos 1 none] ++ callReturns 1 3 1 ++ callReturns 1 4 2 ++ callReturns 1 5 2 ++
    [.crash 1, .store (.tick 400), .sweep] ++ callReturns 2 6 3 ++ [.answer 2, .deliver 0 1, .chaos 3 none] ++
    callReturns 3 7 1 ++ [.answer 3]

/-- A successful payment of a lost booking was not refunded. Source: none: infrastructure. Kind: D -/
def hasLostPayment (s : Sys) : Bool :=
  s.store.bookings.committed.rows.any fun r => r.status.lost && s.store.payments.rows.any fun pay =>
    pay.status == .succeeded && pay.idempotencyKey == r.idempotencyKey && !s.refunds.contains pay.id

/-- **A crash after the charge keeps the money.** Some reachable pipeline is at rest with a successful
payment of an `EXPIRED` booking and no refund. Source: `app/api/worker/allocate/route.ts` (steps 6, 7).
Kind: P -/
theorem unrefunded_payment :
    ¬ ∀ s, Reachable config s → s.Quiescent → s.Swept → s.PaymentsRefunded := by
  intro h
  have hrun : (run (step config) opening crashing).map (fun s => s.atRest && s.hasLostPayment) =
      some true := by decide +kernel
  obtain ⟨s, hreach, hp⟩ := reach_of_run initial_opening hrun
  simp only [hasLostPayment, Bool.and_eq_true, List.any_eq_true, beq_iff_eq, Bool.not_eq_true',
    List.contains_eq_mem, decide_eq_false_iff_not] at hp
  obtain ⟨hrest, r, hr, hlost, pay, hpay, ⟨hst, hk⟩, hno⟩ := hp
  obtain ⟨hquiet, hswept⟩ := quiescent_of_atRest hrest
  exact hno (h s hreach hquiet hswept r.id r (Table.find?_of_mem hr) hlost pay hpay hst hk)

end Sys

end TrainsAndTracks
