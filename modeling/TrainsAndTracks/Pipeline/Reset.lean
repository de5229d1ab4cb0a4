import TrainsAndTracks.Admission.SlidingLog
import TrainsAndTracks.Store.References
import TrainsAndTracks.Pipeline.Inventory

/-!
# The reset in the pipeline

`POST /api/admin/reset` is documented as one transaction and is five. `ResetSys` is the pipeline with this
route: any step of the pipeline may come between two statements, and the route may fail at any time.

* `admission`, `ResetPc`, `statement` — the handler, with the counts it returns.
* `AllOrNothing` — after a 200 no booking there was before is left or named by a seat, after anything else
  no statement has affected a row, and no `CONFIRMED` booking is without its seat.
* `torn_reset` — a seat allocated between the first two statements makes the second one raise, and the
  first one stands.
* `reset_all_or_nothing` — the runs in which no statement raises and the route does not fail once a row
  has been affected (`Orderly`).
-/

namespace TrainsAndTracks

open Found

open Admission (AdminErrorCode)

/-! ## The handler -/

/-- A JSON body (`none`: the field is missing or not a string). Source: `lib/validation/reset.ts`. Kind: D.
Fidelity: exact -/
structure ResetRequest where
  confirm : Option String
  trainId : Option String
  deriving DecidableEq, Repr

/-- `ResetSchema.safeParse`. Source: `lib/validation/reset.ts` `ResetSchema`. Kind: D. Fidelity: exact -/
def ResetRequest.safeParse (raw : ResetRequest) : Option TrainId :=
  if raw.confirm = some "reset" then raw.trainId.filter trainIdSchema else none

/-- The numbers of rows the statements have affected. Source: `app/api/admin/reset/route.ts` (`seatsRes`,
`bookingsRes`, `paymentsRes`, `idemRes`, `dlqRes`). Kind: D. Fidelity: exact -/
structure ResetCounts where
  seats : ℕ
  bookings : ℕ
  payments : ℕ
  idempotencyKeys : ℕ
  dlq : ℕ
  deriving DecidableEq, Repr

/-- No statement has affected a row. Source: none: infrastructure. Kind: D -/
def ResetCounts.zero : ResetCounts := ⟨0, 0, 0, 0, 0⟩

/-- An answer of the route. Source: `app/api/admin/reset/route.ts`, `lib/errors/api-error.ts`. Kind: D.
Fidelity: exact -/
inductive ResetResponse
  | reset (counts : ResetCounts)
  | error (status : ℕ) (code message : String)
  /-- An exception the handler does not catch. -/
  | uncaught
  deriving DecidableEq, Repr

/-- The HTTP status of an answer. Source: `app/api/admin/reset/route.ts`. Kind: D. Fidelity: exact -/
def ResetResponse.status : ResetResponse → ℕ
  | .reset _ => 200
  | .error st _ _ => st
  | .uncaught => 500

/-- What comes before the statements, with the verdict of `requireAdmin` and the body (`none`: not JSON).
Source: `app/api/admin/reset/route.ts` `POST`. Kind: D. Fidelity: exact -/
def admission (auth : Option AdminErrorCode) (body : Option ResetRequest) : Except ResetResponse TrainId :=
  match auth, body with
  | some .rateLimitExceeded, _ => .error (.error 429 "rate_limit_exceeded" "Admin rate limit exceeded")
  | some .adminUnauthorized, _ =>
    .error (.error 401 "admin_unauthorized" "Invalid or missing admin token")
  | none, none => .error (.error 400 "invalid_request_body" "JSON body required")
  | none, some raw =>
    match raw.safeParse with
    | none => .error (.error 400 "invalid_request_body"
        "validation failed; need \x7bconfirm:\"reset\",trainId:\"...\"\x7d")
    | some train => .ok train

/-- The statement the handler runs next. Source: `app/api/admin/reset/route.ts` (statements 1 to 5). Kind:
D -/
inductive ResetPc
  | seats (trainId : TrainId)
  | bookings (trainId : TrainId)
  | bookingsRun (trainId : TrainId) (snapshot : List BookingId)
  | payments
  | paymentsRun (snapshot : List PaymentId)
  | keys
  | dlq
  | respond (r : ResetResponse)
  deriving DecidableEq, Repr

/-- The handler has ended. Source: none: infrastructure. Kind: D -/
def ResetPc.ended : ResetPc → Bool
  | .respond _ => true
  | _ => false

/-- A request: the point its handler has reached, what its statements have affected, and the bookings of
the train there were when it was admitted. Source: `app/api/admin/reset/route.ts` (`before` is not part of
the code: the answer is compared with it). Kind: D -/
structure Reset where
  pc : ResetPc
  counts : ResetCounts
  before : List BookingId
  deriving DecidableEq, Repr

/-- The pipeline with the last request for a reset and the bookings deleted so far. Source: none:
infrastructure. Kind: D -/
structure ResetSys where
  sys : Sys
  reset : Option Reset
  removed : List BookingId

namespace ResetSys

/-- The ids of the bookings that are in `σ` and not in `σ'`. Source: none: infrastructure. Kind: D -/
def removedBy (σ σ' : Store) : List BookingId :=
  (σ.bookings.committed.rows.map Booking.id).filter fun b => (σ'.bookings.committed.find? b).isNone

/-- The handler after a statement, whose count goes into `count`. Source:
`app/api/admin/reset/route.ts`. Kind: D -/
def after (w : ResetSys) (r : Reset) (count : ℕ → ResetCounts) (next : ResetCounts → ResetPc) :
    Store.ResetOutcome → ResetSys
  | .raised => { w with reset := some { r with pc := .respond .uncaught } }
  | .committed σ n =>
    { sys := { w.sys with store := σ }
      reset := some { r with pc := next (count n), counts := count n }
      removed := w.removed ++ removedBy w.sys.store σ }

/-- The handler moves on without a change. Source: none: infrastructure. Kind: D -/
def goto (w : ResetSys) (r : Reset) (pc : ResetPc) : ResetSys :=
  { w with reset := some { r with pc := pc } }

/-- The next statement, or the snapshot it starts with. Source: `app/api/admin/reset/route.ts`
(statements 1 to 5). Kind: D. Fidelity: exact -/
def statement (w : ResetSys) (r : Reset) : Option ResetSys :=
  let σ := w.sys.store
  match r.pc with
  | .seats train =>
    (σ.resetSeats train).map (w.after r (fun n => { r.counts with seats := n }) fun _ => .bookings train)
  | .bookings train =>
    some (w.goto r (.bookingsRun train
      ((σ.bookings.committed.select fun b => b.trainId == train).map Booking.id)))
  | .bookingsRun train snapshot =>
    (σ.resetBookings train snapshot).map
      (w.after r (fun n => { r.counts with bookings := n }) fun _ => .payments)
  | .payments => some (w.goto r (.paymentsRun (σ.payments.rows.map Payment.id)))
  | .paymentsRun snapshot =>
    (σ.resetPayments snapshot).map
      (w.after r (fun n => { r.counts with payments := n }) fun _ => .keys)
  | .keys => some (w.after r (fun n => { r.counts with idempotencyKeys := n }) (fun _ => .dlq) σ.resetKeys)
  | .dlq => some (w.after r (fun n => { r.counts with dlq := n }) (fun c => .respond (.reset c))
      σ.resetDlqJobs)
  | .respond _ => none

/-- A step of the pipeline with the reset route. Source: none: infrastructure. Kind: D -/
inductive Action
  | sys (a : Sys.Action)
  | post (auth : Option AdminErrorCode) (body : Option ResetRequest)
  | statement
  /-- The statement fails for another reason, or the platform stops the handler. -/
  | fail

/-- The step draws the id of a booking that has been deleted, which `gen_random_uuid()` does not.
Source: migration `060_bookings` (`gen_random_uuid()`). Kind: D -/
def redraws (w : ResetSys) : Sys.Action → Bool
  | .store x => w.removed.any fun b => Store.draws b x
  | _ => false

/-- A request is being handled. Source: none: infrastructure. Kind: D -/
def busy (w : ResetSys) : Bool := w.reset.any fun r => !r.pc.ended

/-- A request arrives while none is being handled. Source: `app/api/admin/reset/route.ts` `POST`.
Kind: D -/
def post (w : ResetSys) (auth : Option AdminErrorCode) (body : Option ResetRequest) : Option ResetSys :=
  if w.busy then none
  else match admission auth body with
  | .error e => some { w with reset := some ⟨.respond e, .zero, []⟩ }
  | .ok train =>
    some { w with reset := some ⟨.seats train, .zero,
      (w.sys.store.bookings.committed.select fun b => b.trainId == train).map Booking.id⟩ }

/-- The handler ends with an exception. Source: none: infrastructure. Kind: D -/
def fail (w : ResetSys) (r : Reset) : Option ResetSys :=
  if r.pc.ended then none else some (w.goto r (.respond .uncaught))

/-- One step. Source: none: infrastructure. Kind: D -/
def step (cfg : Config) (w : ResetSys) : Action → Option ResetSys
  | .sys a => if w.redraws a then none else (Sys.step cfg w.sys a).map fun s => { w with sys := s }
  | .post auth body => w.post auth body
  | .statement => w.reset.bind w.statement
  | .fail => w.reset.bind w.fail

/-- Before the first request. Source: none: infrastructure. Kind: D -/
structure Initial (w : ResetSys) : Prop where
  sys_initial : w.sys.Initial
  no_reset : w.reset = none
  none_removed : w.removed = []

/-! ## All or nothing -/

/-- **All or nothing.** After a 200 no booking of the train that was there before is left and no seat names
one; after any other answer no statement has affected a row; and whenever no request is being handled the
seat of a `CONFIRMED` booking is not `AVAILABLE` and names it. Source: `docs/API_CONTRACT.md` (7.4,
"Transactionally"), `tests/invariants/no-duplicate-seats.ts` (I1). Kind: D -/
structure AllOrNothing (w : ResetSys) : Prop where
  complete : ∀ r counts, w.reset = some r → r.pc = .respond (.reset counts) → ∀ b ∈ r.before,
    w.sys.store.bookings.committed.find? b = none ∧
      ∀ s ∈ w.sys.store.seats.committed, s.bookingId ≠ some b
  nothing : ∀ r resp, w.reset = some r → r.pc = .respond resp → resp.status ≠ 200 → r.counts = .zero
  tickets : w.busy = false → ∀ b row, w.sys.store.bookings.committed.find? b = some row →
    row.status = .confirmed → ∃ k s, row.seatId = some k ∧
      w.sys.store.seats.committed.find? k = some s ∧ s.status ≠ .available ∧ s.bookingId = some b

/-- The statement the handler runs next violates a constraint: `ON DELETE SET NULL` on a seat whose `CHECK`
asks for a booking, or the foreign key from `bookings` to `payments`. Source: migrations `030_seats`,
`060_bookings`, `160_fk_seats_booking_id`. Kind: D -/
def refused (σ : Store) : ResetPc → Bool
  | .bookingsRun train snapshot => σ.seatRefuses train snapshot
  | .paymentsRun snapshot => σ.bookingRefuses snapshot
  | _ => false

/-- Once a row has been affected, no statement of the request violates a constraint and the handler does
not fail. Source: `app/api/admin/reset/route.ts` (statements 1 to 5). Kind: D -/
def Orderly (w : ResetSys) : Action → Prop
  | .statement => ∀ r ∈ w.reset, r.counts = .zero ∨ refused w.sys.store r.pc = false
  | .fail => ∀ r ∈ w.reset, r.counts = .zero
  | _ => True

instance (w : ResetSys) (a : Action) : Decidable (Orderly w a) :=
  match a with
  | .statement => inferInstanceAs (Decidable (∀ r ∈ w.reset, r.counts = .zero ∨
      refused w.sys.store r.pc = false))
  | .fail => inferInstanceAs (Decidable (∀ r ∈ w.reset, r.counts = .zero))
  | .sys _ | .post .. => .isTrue trivial

/-! ## Statements that affect no row -/

section unaffected

variable {w w' : ResetSys} {r r' : Reset}

/-- A statement whose count says that it has affected nothing. Source: none: infrastructure. Kind: L -/
theorem after_store {count : ℕ → ResetCounts} {next : ResetCounts → ResetPc} {out : Store.ResetOutcome}
    (hr' : (w.after r count next out).reset = some r') (hzero : r'.counts = .zero)
    (h : ∀ σ n, out = .committed σ n → count n = .zero → σ = w.sys.store) :
    (w.after r count next out).sys.store = w.sys.store := by
  cases out with
  | raised => rfl
  | committed σ n =>
    cases hr'
    exact h σ n rfl hzero

/-- **A reset that has affected no row has changed nothing**: a statement after which all counts are zero
leaves the store as it was. Source: `app/api/admin/reset/route.ts` (statements 1 to 5). Kind: L -/
theorem store_of_zero (hstep : w.statement r = some w') (hr' : w'.reset = some r')
    (hzero : r'.counts = .zero) : w'.sys.store = w.sys.store := by
  unfold statement at hstep
  split at hstep
  · obtain ⟨out, hout, rfl⟩ := Option.map_eq_some_iff.mp hstep
    refine after_store hr' hzero fun σ n heq hcount => ?_
    obtain rfl : n = 0 := congrArg ResetCounts.seats hcount
    exact Store.resetSeats_zero (by rw [hout, heq])
  · cases hstep
    rfl
  · obtain ⟨out, hout, rfl⟩ := Option.map_eq_some_iff.mp hstep
    refine after_store hr' hzero fun σ n heq hcount => ?_
    obtain rfl : n = 0 := congrArg ResetCounts.bookings hcount
    exact Store.resetBookings_zero (by rw [hout, heq])
  · cases hstep
    rfl
  · obtain ⟨out, hout, rfl⟩ := Option.map_eq_some_iff.mp hstep
    refine after_store hr' hzero fun σ n heq hcount => ?_
    obtain rfl : n = 0 := congrArg ResetCounts.payments hcount
    exact Store.resetPayments_zero (by rw [hout, heq])
  · cases hstep
    refine after_store hr' hzero fun σ n heq hcount => ?_
    obtain rfl : n = 0 := congrArg ResetCounts.idempotencyKeys hcount
    exact Store.resetKeys_zero heq
  · cases hstep
    refine after_store hr' hzero fun σ n heq hcount => ?_
    obtain rfl : n = 0 := congrArg ResetCounts.dlq hcount
    exact Store.resetDlqJobs_zero heq
  · cases hstep

end unaffected

/-! ## The invariant -/

/-- The payments that are excused at a point: all of them from statement 1 on, those of its snapshot while
statement 3 is under way. Source: none: infrastructure. Kind: D -/
def excuses (p : PaymentId) : ResetPc → Prop
  | .bookings _ | .bookingsRun .. | .payments => True
  | .paymentsRun snapshot => p ∈ snapshot
  | _ => False

/-- What has become of the bookings there were before: they are there until statement 2, which has matched
them, and deleted after it. Source: `app/api/admin/reset/route.ts` (statement 2). Kind: D -/
def Progress (σ : Store) (removed before : List BookingId) : ResetPc → Prop
  | .seats train | .bookings train =>
    ∀ b ∈ before, ∃ r, σ.bookings.committed.find? b = some r ∧ r.trainId = train
  | .bookingsRun train snapshot =>
    ∀ b ∈ before, b ∈ snapshot ∧ ∃ r, σ.bookings.committed.find? b = some r ∧ r.trainId = train
  | .payments | .paymentsRun _ | .keys | .dlq | .respond (.reset _) => ∀ b ∈ before, b ∈ removed
  | .respond _ => True

/-- What holds of a request. Source: none: infrastructure. Kind: D -/
structure RequestOk (σ : Store) (removed : List BookingId) (r : Reset) : Prop where
  backed : σ.Backed fun p => r.counts.seats ≠ 0 ∧ excuses p r.pc
  progress : Progress σ removed r.before r.pc
  nothing : ∀ resp, r.pc = .respond resp → resp.status ≠ 200 → r.counts = .zero

/-- What holds of every state of an orderly run. Source: none: infrastructure. Kind: D -/
structure ResetOk (w : ResetSys) : Prop where
  sound : w.sys.store.Sound
  removed : ∀ b ∈ w.removed, w.sys.store.bookings.committed.find? b = none
  idle : w.reset = none → w.sys.store.Backed fun _ => False
  request : ∀ r, w.reset = some r → RequestOk w.sys.store w.removed r

section invariant

variable {cfg : Config} {w w' : ResetSys} {r : Reset} {a : Action}

/-- What has become of the bookings is kept by a store that keeps them. Source: none: infrastructure.
Kind: L -/
theorem Progress.mono {σ σ' : Store} {removed removed' before : List BookingId} {pc : ResetPc}
    (h : Progress σ removed before pc) (hremoved : ∀ b ∈ removed, b ∈ removed')
    (hkept : ∀ b r, σ.bookings.committed.find? b = some r →
      ∃ r', σ'.bookings.committed.find? b = some r' ∧ r'.trainId = r.trainId) :
    Progress σ' removed' before pc := by
  have hknown : ∀ {b train}, (∃ r, σ.bookings.committed.find? b = some r ∧ r.trainId = train) →
      ∃ r, σ'.bookings.committed.find? b = some r ∧ r.trainId = train := by
    rintro b train ⟨r, hr, htrain⟩
    obtain ⟨r', hr', heq⟩ := hkept b r hr
    exact ⟨r', hr', heq.trans htrain⟩
  cases pc with
  | seats train => exact fun b hb => hknown (h b hb)
  | bookings train => exact fun b hb => hknown (h b hb)
  | bookingsRun train snapshot => exact fun b hb => ⟨(h b hb).1, hknown (h b hb).2⟩
  | payments => exact fun b hb => hremoved b (h b hb)
  | paymentsRun snapshot => exact fun b hb => hremoved b (h b hb)
  | keys => exact fun b hb => hremoved b (h b hb)
  | dlq => exact fun b hb => hremoved b (h b hb)
  | respond resp =>
    cases resp with
    | reset counts => exact fun b hb => hremoved b (h b hb)
    | error => trivial
    | uncaught => trivial

/-- A step of the pipeline keeps the invariant. Source: none: infrastructure. Kind: L -/
theorem ResetOk.sys_step (h : ResetOk w) {a : Sys.Action} {s : Sys} (hfresh : w.redraws a = false)
    (hstep : Sys.step cfg w.sys a = some s) : ResetOk { w with sys := s } := by
  rcases (Sys.step_cases hstep).store_cases with heq | ⟨x, hx, hcause⟩
  · refine ⟨?_, ?_, ?_, ?_⟩
    · show s.store.Sound
      rw [heq]
      exact h.sound
    · show ∀ b ∈ w.removed, s.store.bookings.committed.find? b = none
      rw [heq]
      exact h.removed
    · show w.reset = none → s.store.Backed _
      rw [heq]
      exact h.idle
    · show ∀ r, w.reset = some r → RequestOk s.store w.removed r
      rw [heq]
      exact h.request
  · have hs := Store.step_cases hx
    refine ⟨h.sound.step hx, fun b hb => ?_, fun hnone => (h.idle hnone).step h.sound hs,
      fun r hr => ?_⟩
    · by_contra hsome
      obtain ⟨row, hrow⟩ := Option.ne_none_iff_exists'.mp hsome
      have hdraws := Store.draws_of_new hx (h.removed b hb) hrow
      rcases hcause with ⟨rfl, -⟩ | ⟨c, cl, call, -, rfl, -⟩
      · exact absurd hdraws (List.any_eq_false.mp hfresh b hb)
      · cases hdraws
    · have hok := h.request r hr
      refine ⟨hok.backed.step h.sound hs, hok.progress.mono (fun b hb => hb) fun b row hrow => ?_,
        hok.nothing⟩
      obtain ⟨row', hrow', hg⟩ := (hs.le h.sound.locks).booking b row hrow
      exact ⟨row', hrow', hg.trainId⟩

/-- A request that ends with an exception before a row has been affected. Source: none: infrastructure.
Kind: L -/
theorem ResetOk.stopped (h : ResetOk w) (hr : w.reset = some r) (hzero : r.counts = .zero) :
    ResetOk (w.goto r (.respond .uncaught)) := by
  refine ⟨h.sound, h.removed, nofun, ?_⟩
  rintro _ ⟨⟩
  refine ⟨(h.request r hr).backed.mono fun p hp => ?_, trivial, fun _ _ _ => hzero⟩
  rw [hzero] at hp
  exact absurd rfl hp.1

/-- A handler that moves on without a change. Source: none: infrastructure. Kind: L -/
theorem ResetOk.moved {pc : ResetPc} (h : ResetOk w)
    (hbacked : w.sys.store.Backed fun p => r.counts.seats ≠ 0 ∧ excuses p pc)
    (hprogress : Progress w.sys.store w.removed r.before pc) (hpc : ∀ resp, pc ≠ .respond resp) :
    ResetOk (w.goto r pc) := by
  refine ⟨h.sound, h.removed, nofun, ?_⟩
  rintro _ ⟨⟩
  exact ⟨hbacked, hprogress, fun resp heq => absurd heq (hpc resp)⟩

/-- A statement that commits. Source: none: infrastructure. Kind: L -/
theorem ResetOk.committed {count : ℕ → ResetCounts} {next : ResetCounts → ResetPc} {σ : Store} {n : ℕ}
    (h : ResetOk w) (hsound : σ.Sound)
    (hgone : ∀ b, w.sys.store.bookings.committed.find? b = none → σ.bookings.committed.find? b = none)
    (hbacked : σ.Backed fun p => (count n).seats ≠ 0 ∧ excuses p (next (count n)))
    (hprogress : Progress σ (w.removed ++ removedBy w.sys.store σ) r.before (next (count n)))
    (hpc : ∀ resp, next (count n) = .respond resp → resp.status = 200) :
    ResetOk (w.after r count next (.committed σ n)) := by
  refine ⟨hsound, fun b hb => ?_, nofun, ?_⟩
  · rcases List.mem_append.mp hb with hold | hnew
    · exact hgone b (h.removed b hold)
    · exact Option.isNone_iff_eq_none.mp (List.mem_filter.mp hnew).2
  · rintro _ ⟨⟩
    exact ⟨hbacked, hprogress, fun resp heq hne => absurd (hpc resp heq) hne⟩

/-- Statement 1. Source: `app/api/admin/reset/route.ts` (statement 1). Kind: L -/
theorem ResetOk.seats_step {train : TrainId} {counts : ResetCounts} {before : List BookingId}
    {out : Store.ResetOutcome} (h : ResetOk w) (hr : w.reset = some ⟨.seats train, counts, before⟩)
    (hout : w.sys.store.resetSeats train = some out) :
    ResetOk (w.after ⟨.seats train, counts, before⟩ (fun n => { counts with seats := n })
      (fun _ => .bookings train) out) := by
  have hok := h.request _ hr
  obtain ⟨-, hcases⟩ := Store.resetSeats_cases hout
  cases out with
  | raised => cases hcases
  | committed σ n =>
    have hsound := h.sound.resetSeats hout
    have hrows : σ.bookings = w.sys.store.bookings := by
      cases hcases
      rfl
    refine h.committed hsound (fun b hno => by rw [hrows, hno]) ?_ (fun b hb => ?_) nofun
    · by_cases hn : n = 0
      · subst hn
        rw [Store.resetSeats_zero hout]
        exact hok.backed.mono fun p hp => absurd hp.2 id
      · exact hsound.backed.mono fun p _ => ⟨hn, trivial⟩
    · rw [hrows]
      exact hok.progress b hb

/-- Statement 2. Source: `app/api/admin/reset/route.ts` (statement 2). Kind: L -/
theorem ResetOk.bookings_step {train : TrainId} {snapshot : List BookingId} {counts : ResetCounts}
    {before : List BookingId} {out : Store.ResetOutcome} (h : ResetOk w)
    (hr : w.reset = some ⟨.bookingsRun train snapshot, counts, before⟩)
    (hC : counts = .zero ∨ w.sys.store.seatRefuses train snapshot = false)
    (hout : w.sys.store.resetBookings train snapshot = some out) :
    ResetOk (w.after ⟨.bookingsRun train snapshot, counts, before⟩ (fun n => { counts with bookings := n })
      (fun _ => .payments) out) := by
  have hok := h.request _ hr
  cases out with
  | raised =>
    rcases Store.resetBookings_cases hout with ⟨-, hrefuses⟩ | ⟨-, -, -, -, heq⟩
    · exact h.stopped hr (hC.resolve_right (by simp [hrefuses]))
    · cases heq
  | committed σ n =>
    refine h.committed (h.sound.resetBookings hout) (fun b hno => ?_) (hok.backed.resetBookings hout)
      (fun b hb => List.mem_append_right _ ?_) nofun
    · exact Store.resetBookings_none hout hno
    · obtain ⟨hmem, row, hrow, htrain⟩ := hok.progress b hb
      obtain rfl : row.id = b := Table.key_of_find? hrow
      have hgone := Store.find?_resetBookings hout hmem hrow htrain
      exact List.mem_filter.mpr ⟨List.mem_map_of_mem (Table.mem_of_find? hrow),
        Option.isNone_iff_eq_none.mpr hgone⟩

/-- Statement 3. Source: `app/api/admin/reset/route.ts` (statement 3). Kind: L -/
theorem ResetOk.payments_step {snapshot : List PaymentId} {counts : ResetCounts}
    {before : List BookingId} {out : Store.ResetOutcome} (h : ResetOk w)
    (hr : w.reset = some ⟨.paymentsRun snapshot, counts, before⟩)
    (hC : counts = .zero ∨ w.sys.store.bookingRefuses snapshot = false)
    (hout : w.sys.store.resetPayments snapshot = some out) :
    ResetOk (w.after ⟨.paymentsRun snapshot, counts, before⟩ (fun n => { counts with payments := n })
      (fun _ => .keys) out) := by
  have hok := h.request _ hr
  have hcases := Store.resetPayments_cases hout
  cases out with
  | raised =>
    rcases hcases with ⟨-, hrefuses⟩ | ⟨-, -, heq⟩
    · exact h.stopped hr (hC.resolve_right (by simp [hrefuses]))
    · cases heq
  | committed σ n =>
    have hrows : σ.bookings = w.sys.store.bookings := by
      rcases hcases with ⟨heq, -⟩ | ⟨-, -, heq⟩
      · cases heq
      · cases heq
        rfl
    exact h.committed (h.sound.resetPayments hout) (fun b hno => by rw [hrows, hno])
      ((Store.Backed.resetPayments hok.backed hout).mono fun p hp => absurd hp id)
      (fun b hb => List.mem_append_left _ (hok.progress b hb)) nofun

/-- **A statement keeps the invariant** when it does not raise once a row has been affected. Source:
`app/api/admin/reset/route.ts` (statements 1 to 5). Kind: L -/
theorem ResetOk.statement_step (h : ResetOk w) (hr : w.reset = some r)
    (hC : r.counts = .zero ∨ refused w.sys.store r.pc = false) (hstep : w.statement r = some w') :
    ResetOk w' := by
  have hok := h.request r hr
  obtain ⟨pc, counts, before⟩ := r
  cases pc with
  | seats train =>
    obtain ⟨out, hout, rfl⟩ := Option.map_eq_some_iff.mp hstep
    exact h.seats_step hr hout
  | bookings train =>
    cases hstep
    refine h.moved hok.backed (fun b hb => ?_) nofun
    obtain ⟨row, hrow, htrain⟩ := hok.progress b hb
    obtain rfl : row.id = b := Table.key_of_find? hrow
    refine ⟨List.mem_map_of_mem (Table.mem_select.mpr ⟨Table.mem_of_find? hrow, ?_⟩), row, hrow, htrain⟩
    simpa using htrain
  | bookingsRun train snapshot =>
    obtain ⟨out, hout, rfl⟩ := Option.map_eq_some_iff.mp hstep
    exact h.bookings_step hr hC hout
  | payments =>
    cases hstep
    exact h.moved ((hok.backed.snapshot h.sound).mono fun p hp => ⟨hp.1.1, hp.2⟩) hok.progress nofun
  | paymentsRun snapshot =>
    obtain ⟨out, hout, rfl⟩ := Option.map_eq_some_iff.mp hstep
    exact h.payments_step hr hC hout
  | keys =>
    cases hstep
    exact h.committed (h.sound.other _ _) (fun b hno => hno) (hok.backed.mono fun p hp => absurd hp.2 id)
      (fun b hb => List.mem_append_left _ (hok.progress b hb)) nofun
  | dlq =>
    cases hstep
    refine h.committed (h.sound.other _ _) (fun b hno => hno) (hok.backed.mono fun p hp => absurd hp.2 id)
      (fun b hb => List.mem_append_left _ (hok.progress b hb)) ?_
    rintro _ ⟨⟩
    rfl
  | respond resp => cases hstep

/-- A state in which no request is being handled leaves nothing excused. Source: none: infrastructure.
Kind: L -/
theorem ResetOk.backed_of_idle (h : ResetOk w) (hidle : w.busy = false) :
    w.sys.store.Backed fun _ => False := by
  cases hr : w.reset with
  | none => exact h.idle hr
  | some r =>
    refine (h.request r hr).backed.mono fun p hp => ?_
    simp only [busy, hr, Option.any_some, Bool.not_eq_false'] at hidle
    cases hpc : r.pc with
    | respond resp =>
      rw [hpc] at hp
      exact hp.2
    | _ =>
      rw [hpc] at hidle
      cases hidle

/-- A request that arrives. Source: `app/api/admin/reset/route.ts` `POST`. Kind: L -/
theorem ResetOk.post_step {auth : Option AdminErrorCode} {body : Option ResetRequest} (h : ResetOk w)
    (hstep : w.post auth body = some w') : ResetOk w' := by
  unfold post at hstep
  split at hstep
  · cases hstep
  · rename_i hidle
    have hbacked := h.backed_of_idle (by simpa using hidle)
    split at hstep
    · cases hstep
      refine ⟨h.sound, h.removed, nofun, ?_⟩
      rintro _ ⟨⟩
      rename_i e _
      refine ⟨hbacked.mono fun p hp => absurd hp id, ?_, fun _ _ _ => rfl⟩
      cases e with
      | reset counts => exact nofun
      | error | uncaught => trivial
    · cases hstep
      refine ⟨h.sound, h.removed, nofun, ?_⟩
      rintro _ ⟨⟩
      refine ⟨hbacked.mono fun p hp => absurd hp id, fun b hb => ?_, nofun⟩
      obtain ⟨row, hmem, rfl⟩ := List.mem_map.mp hb
      obtain ⟨hrow, htrain⟩ := Table.mem_select.mp hmem
      exact ⟨row, Table.find?_of_mem hrow, by simpa using htrain⟩

/-- **Every orderly step keeps the invariant.** Source: none: infrastructure. Kind: L -/
theorem ResetOk.step (h : ResetOk w) (hC : Orderly w a) (hstep : step cfg w a = some w') :
    ResetOk w' := by
  cases a with
  | sys a =>
    simp only [ResetSys.step] at hstep
    split at hstep
    · cases hstep
    · rename_i hfresh
      obtain ⟨s, hs, rfl⟩ := Option.map_eq_some_iff.mp hstep
      exact h.sys_step (by simpa using hfresh) hs
  | post auth body => exact h.post_step hstep
  | statement =>
    obtain ⟨r, hr, hstep⟩ := Option.bind_eq_some_iff.mp hstep
    exact h.statement_step hr (hC r hr) hstep
  | fail =>
    obtain ⟨r, hr, hstep⟩ := Option.bind_eq_some_iff.mp hstep
    unfold fail at hstep
    split at hstep
    · cases hstep
    · cases hstep
      exact h.stopped hr (hC r hr)

/-- It holds before the first request. Source: none: infrastructure. Kind: L -/
theorem Initial.resetOk (h : Initial w) : ResetOk w where
  sound := h.sys_initial.store_initial.sound
  removed b hb := by
    rw [h.none_removed] at hb
    cases hb
  idle _ b r hr := by
    rw [h.sys_initial.store_initial.bookings_empty] at hr
    cases hr
  request r hr := by
    rw [h.no_reset] at hr
    cases hr

/-- The invariant gives what is claimed. Source: none: infrastructure. Kind: L -/
theorem ResetOk.allOrNothing (h : ResetOk w) : AllOrNothing w where
  complete r counts hr hpc b hb := by
    have hprogress := (h.request r hr).progress
    rw [hpc] at hprogress
    have hgone := h.removed b (hprogress b hb)
    refine ⟨hgone, fun s hs hname => ?_⟩
    obtain ⟨row, hrow, -⟩ := h.sound.refs.committed s.id s b (Table.find?_of_mem hs) hname
    rw [hgone] at hrow
    cases hrow
  nothing r resp hr := (h.request r hr).nothing resp
  tickets hidle b row hrow hst := by
    rcases h.backed_of_idle hidle b row hrow hst with ⟨k, s, hk, hs, hsst, hname⟩ | ⟨p, -, hno⟩
    · obtain rfl : row.id = b := Table.key_of_find? hrow
      exact ⟨k, s, hk, hs, by rw [hsst]; simp, hname⟩
    · exact absurd hno id

/-- **All or nothing.** In every run in which, once a row has been affected, no statement of the request
violates a constraint and the handler does not fail, a reset is all or nothing. Source:
`docs/API_CONTRACT.md` (7.4), `app/api/admin/reset/route.ts` (statements 1 to 5). Kind: P -/
theorem reset_all_or_nothing (h : Reach (step cfg) Initial Orderly w) : AllOrNothing w :=
  (h.invariant (P := ResetOk) (fun _ hinit => hinit.resetOk)
    fun _ _ _ _ hok hC hstep => hok.step hC hstep).allOrNothing

end invariant

/-! ## Single schedules -/

/-- The pipeline before the first request. Source: none: infrastructure. Kind: D -/
def opening : ResetSys := ⟨Sys.opening, none, []⟩

/-- It is initial. Source: none: infrastructure. Kind: L -/
theorem initial_opening : Initial opening := ⟨Sys.initial_opening, rfl, rfl⟩

/-- The request of the documentation. Source: `docs/API_CONTRACT.md` (7.4). Kind: D -/
def resetRequest : Action := .post none (some ⟨some "reset", some "12951"⟩)

/-- The first request has its ticket; the second is accepted and its message published. Source: none:
infrastructure. Kind: D -/
def twoBookings : List Sys.Action :=
  Sys.ticketing ++ [.post Sys.ravi, .gate 2 true true] ++ Sys.callReturns 2 8 1 ++
    [.issue 2, .store (.start 9), .store (.exec 9 { Store.usualChoice with uuid := 2 }), .store (.commit 9),
      .receive 2, .publish 2 true true]

/-- The delivery of the second message allocates. Source: none: infrastructure. Kind: D -/
def allocating : List Sys.Action :=
  [.deliver 1 0, .chaos 3 none] ++ Sys.callReturns 3 10 1 ++ Sys.callCommits 3 11 2

/-- The delivery comes between statements 1 and 2, which finds a seat that names a booking it deletes.
Source: none: infrastructure. Kind: D -/
def tearing : List Action :=
  twoBookings.map .sys ++ [resetRequest, .statement] ++ allocating.map .sys ++ [.statement, .statement]

/-- The route has failed after a row has been affected, and the seat of some `CONFIRMED` booking names
another one. Source: none: infrastructure. Kind: D -/
def failedHalfway (w : ResetSys) : Bool :=
  (w.reset.any fun r => r.pc == .respond .uncaught && r.counts.seats != 0) &&
    w.sys.store.bookings.committed.rows.any fun r => r.status == .confirmed && r.seatId.any fun k =>
      (w.sys.store.seats.committed.find? k).any fun s => s.bookingId != some r.id

/-- **A torn reset.** In some run the delivery of another booking takes a seat that statement 1 has freed
and statement 2 raises: the route has failed, the seats are free, and the seat of a ticket is held for
another booking. Source: `app/api/admin/reset/route.ts` (statements 1 and 2), migrations `030_seats`,
`160_fk_seats_booking_id`. Kind: P -/
theorem torn_reset : ¬ ∀ w, Reach (step Sys.config) Initial Always w → AllOrNothing w := by
  intro h
  have hrun : (run (step Sys.config) opening tearing).map failedHalfway = some true := by decide +kernel
  obtain ⟨w, hreach, hp⟩ := reach_of_run initial_opening hrun
  obtain ⟨r, hr, hp⟩ := (Option.any_eq_true _ _).mp (Bool.and_eq_true_iff.mp hp).1
  simp only [Bool.and_eq_true, beq_iff_eq, bne_iff_ne] at hp
  have hzero := (h w hreach).nothing r .uncaught hr hp.1 (by decide)
  rw [hzero] at hp
  exact hp.2 rfl

/-- A reset that nothing disturbs. Source: none: infrastructure. Kind: D -/
def resetting : List Action :=
  Sys.ticketing.map .sys ++ [resetRequest] ++ List.replicate 7 .statement

/-- The route has answered 200 and has deleted a booking. Source: none: infrastructure. Kind: D -/
def hasReset (w : ResetSys) : Bool :=
  w.reset.any fun r => r.pc == .respond (.reset ⟨2, 1, 1, 1, 0⟩) && r.before == [1]

/-- A reset that is orderly is all or nothing. Source: none: infrastructure. Kind: L -/
theorem reset_all_or_nothing_resetting : ∃ w : ResetSys, w.hasReset = true ∧ AllOrNothing w := by
  have hrun : (run (guarded (step Sys.config) Orderly) opening resetting).map hasReset = some true := by
    decide +kernel
  obtain ⟨w, hreach, hreset⟩ := reach_of_guarded initial_opening hrun
  exact ⟨w, hreset, reset_all_or_nothing hreach⟩

end ResetSys

end TrainsAndTracks
