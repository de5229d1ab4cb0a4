import TrainsAndTracks.Store.Outcomes

/-!
# Concurrent charges

`charge` looks its key up and inserts a row in a second transaction, so that of several concurrent charges
with one key each may find nothing; the unique constraint lets one insertion through. `paymentPolicy`
re-executes a charge that has failed, whatever it has failed with.

* `Charges` — the store and any number of callers of `paymentPolicy.execute(charge)`. Anything else may go
  on in the store meanwhile.
* `ChargeReply` — what a reply of one execution says of the row, kept from the statement that gives it on.
* `charges_agree` — every caller is told what the one row of its key says, and that row never changes.
-/

namespace TrainsAndTracks

open Found

/-! ## Callers -/

/-- How `paymentPolicy.execute(charge)` ends: the charge returns, throws a `PaymentError`, or something
else is thrown (a database error, `TaskCancelledError`, `BrokenCircuitError`). Source:
`lib/payment/mock-service.ts` `charge`, `lib/resilience/payment-policy.ts`. Kind: D -/
inductive ChargeOutcome
  | returned (paymentId : PaymentId)
  | threw (code : PaymentErrorCode)
  | rejected
  deriving DecidableEq, Repr

/-- A caller of `paymentPolicy.execute(charge)`: the execution it waits for (none when the breaker has
refused the attempt), the re-executions left, and how it ended. Source:
`lib/resilience/payment-policy.ts` `paymentPolicy`. Kind: D -/
structure ChargeCaller where
  amountPaise : ℕ
  idempotencyKey : IdempotencyKey
  execution : Option ℕ
  retries : ℕ
  outcome : Option ChargeOutcome
  deriving DecidableEq, Repr

/-- The store and the callers of `charge`. Source: none: infrastructure. Kind: D -/
structure Charges where
  store : Store
  callers : List ChargeCaller

namespace Charges

/-- What can happen. Source: none: infrastructure. Kind: D -/
inductive Action
  /-- A step of the store: of an execution under way, or of any other client. -/
  | store (a : Store.Action)
  /-- A caller makes its first attempt, which an open breaker refuses. -/
  | call (amountPaise : ℕ) (idempotencyKey : IdempotencyKey) (refused : Bool)
  /-- `paymentRetry` makes another attempt. -/
  | retry (n : ℕ) (refused : Bool)
  /-- The caller gets what its last attempt has come to. -/
  | settle (n : ℕ)
  /-- `paymentTimeout` ends the call; an execution under way goes on. -/
  | cancel (n : ℕ)

/-- What an execution of `charge` has come to; `none` while it is under way. Source:
`lib/payment/mock-service.ts` `charge`. Kind: D -/
def outcomeOf : Pc → Option ChargeOutcome
  | .done (.paid p _) => some (.returned p)
  | .done (.paymentError code) => some (.threw code)
  | .failed => some .rejected
  | _ => none

/-- What the last attempt of a caller has come to; an attempt that the breaker refused is rejected.
Source: `lib/resilience/payment-policy.ts` `paymentBreaker`. Kind: D -/
def lastOutcome (w : Charges) (c : ChargeCaller) : Option ChargeOutcome :=
  match c.execution with
  | none => some .rejected
  | some i => w.store.execs[i]?.bind fun e => outcomeOf e.pc

/-- The caller makes an attempt. Source: `lib/resilience/payment-policy.ts` `paymentPolicy`. Kind: D -/
def attempt (w : Charges) (c : ChargeCaller) (refused : Bool) : Store × ChargeCaller :=
  if refused then (w.store, { c with execution := none })
  else (w.store.begin (.charge c.amountPaise c.idempotencyKey) 0,
    { c with execution := some w.store.execs.length })

/-- One step. Source: `lib/payment/mock-service.ts` `charge`, `lib/resilience/payment-policy.ts`
`paymentPolicy`. Kind: D -/
def step (w : Charges) : Action → Option Charges
  | .store a => (w.store.step a).map fun store => { w with store := store }
  | .call amount k refused =>
    let (store, c) := w.attempt ⟨amount, k, none, 2, none⟩ refused
    some ⟨store, w.callers ++ [c]⟩
  | .retry n refused =>
    match w.callers[n]? with
    | some c =>
      match c.outcome, c.retries, w.lastOutcome c with
      | none, retries + 1, some (.threw _) | none, retries + 1, some .rejected =>
        let (store, c) := w.attempt { c with retries := retries } refused
        some ⟨store, w.callers.set n c⟩
      | _, _, _ => none
    | none => none
  | .settle n =>
    match w.callers[n]? with
    | some c =>
      match c.outcome, w.lastOutcome c with
      | none, some (.returned p) =>
        some { w with callers := w.callers.set n { c with outcome := some (.returned p) } }
      | none, some outcome =>
        if c.retries = 0 then
          some { w with callers := w.callers.set n { c with outcome := some outcome } }
        else none
      | _, _ => none
    | none => none
  | .cancel n =>
    match w.callers[n]? with
    | some c =>
      if c.outcome = none then
        some { w with callers := w.callers.set n { c with outcome := some .rejected } }
      else none
    | none => none

/-- No caller yet. Source: none: infrastructure. Kind: D -/
def Initial (w : Charges) : Prop := Store.Initial w.store ∧ w.callers = []

/-- There is one row a key; a caller that got a payment got that row, which succeeded; a caller that got a
`PaymentError` got the code of that row, which failed. Source: `lib/payment/mock-service.ts` `charge`,
migration `050_payments`. Kind: D -/
structure Agree (w : Charges) : Prop where
  one_row : ∀ p ∈ w.store.payments, ∀ p' ∈ w.store.payments,
    p.idempotencyKey = p'.idempotencyKey → p = p'
  returned : ∀ c ∈ w.callers, ∀ id, c.outcome = some (.returned id) →
    ∃ p ∈ w.store.payments, p.idempotencyKey = c.idempotencyKey ∧ p.id = id ∧ p.status = .succeeded
  threw : ∀ c ∈ w.callers, ∀ code, c.outcome = some (.threw code) →
    ∃ p ∈ w.store.payments, p.idempotencyKey = c.idempotencyKey ∧ p.status = .failed ∧
      p.errorCode = some code

end Charges

/-! ## Replies of one execution -/

namespace Store

/-- What an outcome says of the payments. Source: `lib/payment/mock-service.ts` `charge`. Kind: D -/
def ChargeTold (σ : Store) (k : IdempotencyKey) : ChargeOutcome → Prop
  | .returned id => ∃ p ∈ σ.payments, p.idempotencyKey = k ∧ p.id = id ∧ p.status = .succeeded
  | .threw code =>
    ∃ p ∈ σ.payments, p.idempotencyKey = k ∧ p.status = .failed ∧ p.errorCode = some code
  | .rejected => True

/-- What a reply of `charge` says of the payments. Source: `lib/payment/mock-service.ts` `charge`.
Kind: D -/
def ChargeReply (σ : Store) (k : IdempotencyKey) : Reply → Prop
  | .paid id _ => ChargeTold σ k (.returned id)
  | .paymentError code => ChargeTold σ k (.threw code)
  | _ => True

/-- Every failed payment has a code, and every reply of a `charge` says what its row says. Source:
`lib/payment/mock-service.ts` `charge`. Kind: D -/
structure ChargesOk (σ : Store) : Prop where
  coded : ∀ p ∈ σ.payments, p.status = .failed → ∃ code, p.errorCode = some code
  replies : ∀ (i : ℕ) (e : Exec), σ.execs[i]? = some e → ∀ amount k, e.call = .charge amount k →
    ∀ r, e.pc = .ret r ∨ e.pc = .done r → ChargeReply σ k r

section charges

variable {σ σ' : Store} {a : Action} {k : IdempotencyKey}

/-- What was told stays true. Source: `lib/payment/mock-service.ts` `charge`. Kind: L -/
theorem ChargeTold.mono (hle : Le σ σ') {o : ChargeOutcome} (h : ChargeTold σ k o) : ChargeTold σ' k o := by
  cases o with
  | returned id =>
    obtain ⟨p, hp, hrest⟩ := h
    exact ⟨p, hle.mem_payments hp, hrest⟩
  | threw code =>
    obtain ⟨p, hp, hrest⟩ := h
    exact ⟨p, hle.mem_payments hp, hrest⟩
  | rejected => trivial

/-- What a reply says stays true. Source: `lib/payment/mock-service.ts` `charge`. Kind: L -/
theorem ChargeReply.mono (hle : Le σ σ') {r : Reply} (h : ChargeReply σ k r) : ChargeReply σ' k r := by
  cases r with
  | paid id replayed => exact ChargeTold.mono (o := .returned id) hle h
  | paymentError code => exact ChargeTold.mono (o := .threw code) hle h
  | _ => trivial

/-- The lookup answers with the row it has found. Source: `lib/payment/mock-service.ts` `charge`.
Kind: L -/
theorem Runs.chargeReply_of_select (hcoded : ∀ p ∈ σ.payments, p.status = .failed →
    ∃ code, p.errorCode = some code) {i : ℕ} {now : Time} {amount : ℕ} {pc : Pc} {r : Reply}
    (h : Runs σ i now (.charge amount k) pc (.select (.ret r))) : ChargeReply σ k r := by
  cases h with
  | chargeReplayed hp hk hst => exact ⟨_, hp, hk, rfl, hst⟩
  | chargeRefused hp hk hst =>
    obtain ⟨code, hcode⟩ := hcoded _ hp hst
    rw [hcode]
    exact ⟨_, hp, hk, hst, hcode⟩

/-- The insertion answers with the row it has made. Source: `lib/payment/mock-service.ts` `charge`.
Kind: L -/
theorem Runs.chargeReply_of_insert {i : ℕ} {now : Time} {amount : ℕ} {pc : Pc} {st : Stmt} {r : Reply}
    (h : Runs σ i now (.charge amount k) pc st) (hst : transactional st = false)
    (hstored : Stored σ' st) (hr : nextOf st = .ret r) : ChargeReply σ' k r := by
  cases h with
  | chargePaid =>
    cases hr
    exact ⟨_, Table.mem_of_find? hstored, rfl, rfl, rfl⟩
  | chargeDeclined =>
    cases hr
    exact ⟨_, Table.mem_of_find? hstored, rfl, rfl, rfl⟩
  | _ => cases hst

/-- `charge` writes no seats and no bookings. Source: `lib/payment/mock-service.ts` `charge`. Kind: L -/
theorem Runs.charge_ne_update {i : ℕ} {now : Time} {amount : ℕ} {pc next : Pc} {us : Update Seat}
    {ub : Update Booking} : ¬ Runs σ i now (.charge amount k) pc (.update us ub next) := by
  intro h
  cases h with
  | releaseSeatsOnly hcall | releaseSeatsThenRow hcall | releaseRow hcall => cases hcall

/-- A new payment that failed has a code. Source: `lib/payment/mock-service.ts` `charge`. Kind: L -/
theorem Runs.insertPayment_coded {i : ℕ} {now : Time} {call : Call} {pc next : Pc} {row : Payment}
    (h : Runs σ i now call pc (.insertPayment row next)) (hst : row.status = .failed) :
    ∃ code, row.errorCode = some code := by
  cases h with
  | chargePaid => cases hst
  | chargeDeclined => exact ⟨_, rfl⟩

/-- **A step keeps it.** Source: `lib/payment/mock-service.ts` `charge`. Kind: L -/
theorem ChargesOk.step (hl : LocksOk σ) (h : ChargesOk σ) (hs : Stepped σ a σ') : ChargesOk σ' := by
  have hcoded : ∀ p ∈ σ'.payments, p.status = .failed → ∃ code, p.errorCode = some code := by
    intro p hp hst
    cases hs with
    | insertPayment he hr hnew hkey =>
      rcases (Table.mem_insert (h := hnew)).mp hp with hmem | rfl
      · exact h.coded p hmem hst
      · exact hr.insertPayment_coded hst
    | _ => exact h.coded p hp hst
  refine ⟨hcoded, ?_⟩
  refine hs.forall_execs (P := fun σ _ e => ∀ amount k, e.call = .charge amount k →
    ∀ r, e.pc = .ret r ∨ e.pc = .done r → ChargeReply σ k r) h.replies ?_ ?_ ?_ ?_ ?_ ?_
  · intro i e _ _ hP amount k hcall r hr
    exact (hP amount k hcall r hr).mono (hs.le hl)
  · intro i e _ hpc amount k _ r hr
    exact absurd hr (not_returned hpc r)
  · intro i e next _ _ he hP hr amount k hcall r hret
    rw [hcall] at hr
    rcases hret with hret | hret
    · cases hret
      exact hr.chargeReply_of_select h.coded
    · exact absurd hret (hr.next_ne_done r)
  · intro i e us ub next seats bookings _ _ he hP hr _ _ amount k hcall r hret
    rw [hcall] at hr
    exact absurd hr Runs.charge_ne_update
  · intro i e r he hP hpc _ _ hs amount k hcall r' hret
    rcases hret with hret | hret <;> cases hret
    exact (hP amount k hcall r (.inl hpc)).mono (hs.le hl)
  · intro i e st he hP hr hst hstored _ _ _ amount k hcall r hret
    rw [hcall] at hr
    rcases hret with hret | hret
    · exact hr.chargeReply_of_insert hst hstored hret
    · exact absurd hret (hr.next_ne_done r)

/-- A new store. Source: none: infrastructure. Kind: L -/
theorem Initial.chargesOk (h : Initial σ) : ChargesOk σ where
  coded p hp := by
    rw [h.payments_empty] at hp
    exact absurd hp (Table.not_mem_empty p)
  replies _ _ he := absurd he h.no_exec

end charges

end Store

/-! ## Callers agree -/

namespace Charges

/-- What holds in every run. Source: none: infrastructure. Kind: D -/
structure Ok (w : Charges) : Prop where
  inv : Store.Inv w.store
  charges : Store.ChargesOk w.store
  /-- A caller waits for an execution of its own charge. -/
  awaits : ∀ c ∈ w.callers, ∀ i, c.execution = some i →
    ∃ e, w.store.execs[i]? = some e ∧ e.call = .charge c.amountPaise c.idempotencyKey
  told : ∀ c ∈ w.callers, ∀ o, c.outcome = some o → w.store.ChargeTold c.idempotencyKey o

section agree

variable {w w' : Charges} {a : Action} {c : ChargeCaller}

/-- What the last attempt has come to says what its row says. Source: `lib/payment/mock-service.ts`
`charge`. Kind: L -/
theorem Ok.lastOutcome (h : Ok w) (hc : c ∈ w.callers) {o : ChargeOutcome}
    (ho : w.lastOutcome c = some o) : w.store.ChargeTold c.idempotencyKey o := by
  unfold Charges.lastOutcome at ho
  split at ho
  · cases ho
    trivial
  · rename_i i hi
    obtain ⟨e, he, hcall⟩ := h.awaits c hc i hi
    rw [he] at ho
    have hpc : outcomeOf e.pc = some o := ho
    unfold outcomeOf at hpc
    split at hpc
    · rename_i heq
      cases hpc
      exact h.charges.replies i e he _ _ hcall _ (.inr heq)
    · rename_i heq
      cases hpc
      exact h.charges.replies i e he _ _ hcall _ (.inr heq)
    · cases hpc
      trivial
    · cases hpc

/-- A step of the store keeps what was told and what is awaited. Source: none: infrastructure. Kind: L -/
theorem Ok.store (h : Ok w) {b : Store.Action} {σ : Store} (hs : Store.Stepped w.store b σ) :
    Ok { w with store := σ } where
  inv := h.inv.step hs
  charges := h.charges.step h.inv.locks hs
  awaits c hc i hi := by
    obtain ⟨e, he, hcall⟩ := h.awaits c hc i hi
    obtain ⟨e', he', hcall', -⟩ := hs.exec_old he
    exact ⟨e', he', hcall'.trans hcall⟩
  told c hc o ho := (h.told c hc o ho).mono (hs.le h.inv.locks)

/-- A caller, new or known, in a list. Source: none: bookkeeping. Kind: L -/
theorem Ok.callers (h : Ok w) {cs : List ChargeCaller} (hcs : ∀ d ∈ cs, d ∈ w.callers ∨ d = c)
    (hawaits : ∀ i, c.execution = some i →
      ∃ e, w.store.execs[i]? = some e ∧ e.call = .charge c.amountPaise c.idempotencyKey)
    (htold : ∀ o, c.outcome = some o → w.store.ChargeTold c.idempotencyKey o) :
    Ok { w with callers := cs } where
  inv := h.inv
  charges := h.charges
  awaits d hd i hi := by
    rcases hcs d hd with hold | rfl
    · exact h.awaits d hold i hi
    · exact hawaits i hi
  told d hd o ho := by
    rcases hcs d hd with hold | rfl
    · exact h.told d hold o ho
    · exact htold o ho

/-- An attempt is an execution of the caller's charge, or none. Source:
`lib/resilience/payment-policy.ts` `paymentPolicy`. Kind: L -/
theorem Ok.attempt (h : Ok w) {refused : Bool} (ho : c.outcome = none) {cs : List ChargeCaller}
    (hcs : ∀ d ∈ cs, d ∈ w.callers ∨ d = (w.attempt c refused).2) :
    Ok ⟨(w.attempt c refused).1, cs⟩ := by
  unfold Charges.attempt at hcs ⊢
  cases refused with
  | true =>
    exact h.callers hcs nofun fun o ho' => absurd (ho.symm.trans ho') nofun
  | false =>
    refine (h.store .begin).callers hcs ?_ fun o ho' => absurd (ho.symm.trans ho') nofun
    intro i hi
    cases hi
    refine ⟨_, List.getElem?_concat_length, rfl⟩

/-- **Inversion of a step**: the store moves, a caller makes an attempt, or a caller ends.
Source: none: infrastructure. Kind: L -/
theorem step_cases (hs : w.step a = some w') :
    (∃ b σ, Store.Stepped w.store b σ ∧ w' = { w with store := σ }) ∨
    (∃ c refused cs, c.outcome = none ∧ (∀ d ∈ cs, d ∈ w.callers ∨ d = (w.attempt c refused).2) ∧
      w' = ⟨(w.attempt c refused).1, cs⟩) ∨
    ∃ c o cs, c ∈ w.callers ∧ (o = .rejected ∨ w.lastOutcome c = some o) ∧
      (∀ d ∈ cs, d ∈ w.callers ∨ d = { c with outcome := some o }) ∧ w' = { w with callers := cs } := by
  have hset : ∀ {n : ℕ} {c d : ChargeCaller}, d ∈ w.callers.set n c → d ∈ w.callers ∨ d = c :=
    List.mem_or_eq_of_mem_set
  unfold step at hs
  cases a with
  | store b =>
    obtain ⟨σ, hσ, rfl⟩ := Option.map_eq_some_iff.mp hs
    exact .inl ⟨b, σ, Store.step_cases hσ, rfl⟩
  | call amount k refused =>
    cases hs
    exact .inr (.inl ⟨⟨amount, k, none, 2, none⟩, refused, _, rfl,
      fun d hd => (List.mem_append.mp hd).imp_right List.mem_singleton.mp, rfl⟩)
  | retry n refused =>
    dsimp only at hs
    split at hs
    · rename_i c hc
      split at hs
      · rename_i hout _ _
        cases hs
        refine .inr (.inl ⟨_, refused, _, ?_, fun d hd => hset hd, rfl⟩)
        exact hout
      · rename_i hout _ _
        cases hs
        refine .inr (.inl ⟨_, refused, _, ?_, fun d hd => hset hd, rfl⟩)
        exact hout
      · cases hs
    · cases hs
  | settle n =>
    dsimp only at hs
    split at hs
    · rename_i c hc
      have hmem := List.mem_of_getElem? hc
      split at hs
      · rename_i hlast
        cases hs
        exact .inr (.inr ⟨c, _, _, hmem, .inr hlast, fun d hd => hset hd, rfl⟩)
      · rename_i hlast
        obtain ⟨-, hnext⟩ := Option.ite_none_right_eq_some.mp hs
        cases hnext
        exact .inr (.inr ⟨c, _, _, hmem, .inr hlast, fun d hd => hset hd, rfl⟩)
      · cases hs
    · cases hs
  | cancel n =>
    dsimp only at hs
    split at hs
    · rename_i c hc
      obtain ⟨-, hnext⟩ := Option.ite_none_right_eq_some.mp hs
      cases hnext
      exact .inr (.inr ⟨c, _, _, List.mem_of_getElem? hc, .inl rfl, fun d hd => hset hd, rfl⟩)
    · cases hs

/-- **A step keeps it.** Source: `lib/payment/mock-service.ts` `charge`,
`lib/resilience/payment-policy.ts` `paymentPolicy`. Kind: L -/
theorem Ok.step (h : Ok w) (hs : w.step a = some w') : Ok w' := by
  rcases step_cases hs with ⟨b, σ, hσ, rfl⟩ | ⟨c, refused, cs, hout, hcs, rfl⟩ |
    ⟨c, o, cs, hc, ho, hcs, rfl⟩
  · exact h.store hσ
  · exact h.attempt hout hcs
  · refine h.callers hcs (fun i hi => h.awaits c hc i hi) fun o' ho' => ?_
    obtain rfl : o = o' := Option.some.inj ho'
    rcases ho with rfl | hlast
    · trivial
    · exact h.lastOutcome hc hlast

/-- The store only goes forward. Source: none: infrastructure. Kind: L -/
theorem Ok.le (h : Ok w) (hs : w.step a = some w') : Store.Le w.store w'.store := by
  rcases step_cases hs with ⟨b, σ, hσ, rfl⟩ | ⟨c, refused, cs, -, -, rfl⟩ | ⟨c, o, cs, -, -, -, rfl⟩
  · exact hσ.le h.inv.locks
  · show Store.Le w.store (w.attempt c refused).1
    unfold Charges.attempt
    cases refused with
    | true => exact .refl w.store
    | false => exact Store.Stepped.begin.le h.inv.locks
  · exact .refl w.store

/-- A store without callers. Source: none: infrastructure. Kind: L -/
theorem Initial.ok (h : Initial w) : Ok w := by
  obtain ⟨hσ, hcallers⟩ := h
  refine ⟨hσ.inv, hσ.chargesOk, ?_, ?_⟩
  all_goals
    rw [hcallers]
    exact fun c hc => absurd hc List.not_mem_nil

/-- What holds of a reached state. Source: none: infrastructure. Kind: L -/
theorem ok_of_reach {C : Charges → Action → Prop} (h : Reach step Initial C w) : Ok w :=
  h.invariant (fun _ hw => hw.ok) fun _ _ _ _ hw _ hs => hw.step hs

end agree

/-- **Concurrent charges agree.** However lookups, insertions, re-executions and other calls interleave and
whatever each attempt draws: there is at most one payment a key, every caller that gets a payment gets that
one and it succeeded, every caller that gets a `PaymentError` gets the code of that one and it failed, and
no payment ever changes. Source: `lib/payment/mock-service.ts` `charge`,
`lib/resilience/payment-policy.ts` `paymentPolicy`. Kind: P -/
theorem charges_agree {w : Charges} (h : Reach step Initial Always w) :
    w.Agree ∧ ∀ w', Steps step Always w w' → ∀ id p, w.store.payments.find? id = some p →
      w'.store.payments.find? id = some p := by
  have hok := ok_of_reach h
  refine ⟨⟨hok.inv.unique.payments, fun c hc id ho => hok.told c hc _ ho,
    fun c hc code ho => hok.told c hc _ ho⟩, fun w' hsteps id p hp => ?_⟩
  have hkeep : Ok w' ∧ w'.store.payments.find? id = some p :=
    Steps.invariant (P := fun v => Ok v ∧ v.store.payments.find? id = some p)
      (fun _ _ _ hv _ hs => ⟨hv.1.step hs, (hv.1.le hs).payment id p hv.2⟩) hsteps ⟨hok, hp⟩
  exact hkeep.2

/-! ### Two charges that draw differently -/

/-- Both look the key up before either has inserted. Source: none: infrastructure. Kind: D -/
def racing : List Action :=
  [.call 126000 "k" false, .call 126000 "k" false,
    .store (.start 0), .store (.exec 0 Store.usualChoice), .store (.start 1),
    .store (.exec 1 Store.usualChoice),
    .store (.exec 0 ⟨1, some .gatewayTimeout, ""⟩), .store (.commit 0), .store (.exec 1 ⟨2, none, ""⟩),
    .retry 1 false, .store (.start 2), .store (.exec 2 Store.usualChoice), .store (.commit 2),
    .retry 1 true, .retry 0 false, .store (.start 3), .store (.exec 3 Store.usualChoice), .store (.commit 3),
    .retry 0 false, .store (.start 4), .store (.exec 4 Store.usualChoice), .store (.commit 4),
    .settle 0, .settle 1]

/-- A store without callers. Source: none: infrastructure. Kind: D -/
def noCallers : Charges := ⟨Store.twoSeats, []⟩

/-- It is initial. Source: none: infrastructure. Kind: L -/
theorem initial_noCallers : Initial noCallers := ⟨Store.initial_twoSeats, rfl⟩

/-- The first caller got a timeout of the gateway; the second one, which had drawn a success, did not get a
payment. Source: none: infrastructure. Kind: D -/
def hasLoser (w : Charges) : Bool :=
  w.callers.map ChargeCaller.outcome == [some (.threw .gatewayTimeout), some .rejected]

/-- A run of two charges that race. Source: none: infrastructure. Kind: L -/
theorem charges_agree_racing :
    ∃ w, Reach step Initial Always w ∧ w.hasLoser = true ∧ w.Agree := by
  have hrun : (run step noCallers racing).map hasLoser = some true := by decide +kernel
  obtain ⟨w, hreach, hloser⟩ := reach_of_run initial_noCallers hrun
  exact ⟨w, hreach, hloser, (charges_agree hreach).1⟩

end Charges

end TrainsAndTracks
