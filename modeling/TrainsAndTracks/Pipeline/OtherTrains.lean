import TrainsAndTracks.Pipeline.Reset
import TrainsAndTracks.Store.Lifecycle

/-!
# A reset and the other trains

Only the first two statements of `POST /api/admin/reset` name the train. Statement 4 goes by age and
statement 5 by `resolved_at`, as `docs/API_CONTRACT.md` (7.4) lists them.

* `RowId`, `Same` — a row of four of the tables, and that it is what it was.
* `Spared` — what a reset of a train is not for: seats and bookings of the other trains, keys that are an
  hour old, jobs that are resolved.
* `reset_spares` — such a row is what it was when the request has run, whatever else has run meanwhile.

A statement that would take a booking from a seat of another train raises: `ON DELETE SET NULL` leaves a
row that violates the `CHECK`. So the frame of statement 2 holds whatever the seats name.
-/

namespace TrainsAndTracks

open Found

namespace Store

section frames

variable {σ σ' : Store} {train : TrainId} {n : ℕ}

/-- A statement that commits has found the seats of the bookings it deletes free to lose them: a seat that
names one cannot. Source: migrations `030_seats`, `160_fk_seats_booking_id`. Kind: L -/
theorem not_namesDeleted_of_check {snapshot : List BookingId} {s : Seat}
    (haccepts : σ.seatRefuses train snapshot = false) (hs : s ∈ σ.seats.committed)
    (hcheck : s.check = true) : σ.namesDeleted train snapshot s = false := by
  by_contra hnamed
  have hnamed : σ.namesDeleted train snapshot s = true := by simpa using hnamed
  have hset : ((setNullUpdate (σ.namesDeleted train snapshot)).set s).check = true := by
    have hrow := List.any_eq_false.mp haccepts s hs
    simpa [setNullUpdate, hnamed] using hrow
  obtain ⟨b, hb, -⟩ := (Option.any_eq_true _ _).mp hnamed
  simp only [setNullUpdate, Seat.check, Option.isNone_none, Option.isSome_none] at hset
  simp only [Seat.check, hb, Option.isNone_some, Option.isSome_some] at hcheck
  cases hst : s.status <;> simp [hst] at hset hcheck

/-- **The frame of statement 1.** Source: `app/api/admin/reset/route.ts` (statement 1). Kind: L -/
theorem find?_resetSeats {k : SeatId} {s : Seat} (h : σ.resetSeats train = some (.committed σ' n))
    (hs : σ.seats.committed.find? k = some s) (hother : s.trainId ≠ train) :
    σ'.seats.committed.find? k = some s := by
  obtain ⟨-, hout⟩ := resetSeats_cases h
  cases hout
  exact Versioned.find?_modify_of_not hs (by simpa [resetSeatsUpdate] using hother)

/-- No statement of a reset moves the clock. Source: none: infrastructure. Kind: L -/
theorem now_resetSeats (h : σ.resetSeats train = some (.committed σ' n)) : σ'.now = σ.now := by
  obtain ⟨-, hout⟩ := resetSeats_cases h
  cases hout
  rfl

/-- **The frame of statement 2**, on the seats. Source: `app/api/admin/reset/route.ts` (statement 2).
Kind: L -/
theorem find?_seat_resetBookings {snapshot : List BookingId} {k : SeatId} {s : Seat}
    (h : σ.resetBookings train snapshot = some (.committed σ' n))
    (hs : σ.seats.committed.find? k = some s) (hcheck : s.check = true) :
    σ'.seats.committed.find? k = some s := by
  rcases resetBookings_cases h with ⟨hout, -⟩ | ⟨-, -, -, haccepts, hout⟩
  · cases hout
  · cases hout
    exact Versioned.find?_modify_of_not hs
      (not_namesDeleted_of_check haccepts (Table.mem_of_find? hs) hcheck)

/-- **The frame of statement 2**, on the bookings. Source: `app/api/admin/reset/route.ts` (statement 2).
Kind: L -/
theorem find?_booking_resetBookings {snapshot : List BookingId} {b : BookingId} {r : Booking}
    (h : σ.resetBookings train snapshot = some (.committed σ' n))
    (hr : σ.bookings.committed.find? b = some r) (hother : r.trainId ≠ train) :
    σ'.bookings.committed.find? b = some r := by
  rcases resetBookings_cases h with ⟨hout, -⟩ | ⟨-, -, -, -, hout⟩
  · cases hout
  · cases hout
    apply Table.find?_delete.mpr
    exact ⟨hr, by simp [deletes, hother]⟩

/-- No statement of a reset moves the clock. Source: none: infrastructure. Kind: L -/
theorem now_resetBookings {snapshot : List BookingId}
    (h : σ.resetBookings train snapshot = some (.committed σ' n)) : σ'.now = σ.now := by
  rcases resetBookings_cases h with ⟨hout, -⟩ | ⟨-, -, -, -, hout⟩
  · cases hout
  · cases hout
    rfl

/-- No statement of a reset moves the clock. Source: none: infrastructure. Kind: L -/
theorem now_resetPayments {snapshot : List PaymentId}
    (h : σ.resetPayments snapshot = some (.committed σ' n)) : σ'.now = σ.now := by
  rcases resetPayments_cases h with ⟨hout, -⟩ | ⟨-, -, hout⟩
  · cases hout
  · cases hout
    rfl

/-- **The frame of statement 4.** Source: `app/api/admin/reset/route.ts` (statement 4). Kind: L -/
theorem find?_resetKeys {k : IdempotencyKey} {row : IdempotencyRow} (h : σ.resetKeys = .committed σ' n)
    (hrow : σ.idempotencyKeys.find? k = some row) (hold : row.createdAt + 3600 ≤ σ.now) :
    σ'.idempotencyKeys.find? k = some row := by
  cases h
  apply Table.find?_delete.mpr
  exact ⟨hrow, by simpa using hold⟩

/-- **The frame of statement 5.** Source: `app/api/admin/reset/route.ts` (statement 5). Kind: L -/
theorem find?_resetDlqJobs {id : ℕ} {j : DlqJob} (h : σ.resetDlqJobs = .committed σ' n)
    (hj : σ.dlqJobs.find? id = some j) (hresolved : j.resolvedAt.isSome = true) :
    σ'.dlqJobs.find? id = some j := by
  cases h
  apply Table.find?_delete.mpr
  refine ⟨hj, ?_⟩
  simpa [Option.isNone_iff_eq_none, Option.isSome_iff_ne_none] using hresolved

end frames

end Store

/-! ## Rows -/

/-- A row of a table. Source: none: infrastructure. Kind: D -/
inductive RowId
  | seat (k : SeatId)
  | booking (b : BookingId)
  | idempotencyKey (k : IdempotencyKey)
  | dlqJob (id : ℕ)
  deriving DecidableEq, Repr

/-- The row is in `σ'` what it is in `σ`. Source: none: infrastructure. Kind: D -/
def Same (σ σ' : Store) : RowId → Prop
  | .seat k => σ'.seats.committed.find? k = σ.seats.committed.find? k
  | .booking b => σ'.bookings.committed.find? b = σ.bookings.committed.find? b
  | .idempotencyKey k => σ'.idempotencyKeys.find? k = σ.idempotencyKeys.find? k
  | .dlqJob id => σ'.dlqJobs.find? id = σ.dlqJobs.find? id

instance (σ σ' : Store) (row : RowId) : Decidable (Same σ σ' row) := by
  unfold Same
  split <;> infer_instance

/-- A reset of `train` is not for the row: it is a seat or a booking of another train, a key that is an
hour old, or a job that is resolved. Source: `docs/API_CONTRACT.md` (7.4),
`app/api/admin/reset/route.ts` (statements 1, 2, 4 and 5). Kind: D -/
def Spared (train : TrainId) (σ : Store) : RowId → Prop
  | .seat k => ∃ s, σ.seats.committed.find? k = some s ∧ s.trainId ≠ train
  | .booking b => ∃ r, σ.bookings.committed.find? b = some r ∧ r.trainId ≠ train
  | .idempotencyKey k => ∃ row, σ.idempotencyKeys.find? k = some row ∧ row.createdAt + 3600 ≤ σ.now
  | .dlqJob id => ∃ j, σ.dlqJobs.find? id = some j ∧ j.resolvedAt.isSome = true

/-- A seat satisfies the `CHECK`. Source: migration `030_seats`. Kind: D -/
def Fit (σ : Store) : RowId → Prop
  | .seat k => ∀ s, σ.seats.committed.find? k = some s → s.check = true
  | .booking _ | .idempotencyKey _ | .dlqJob _ => True

/-- The row is what it was, and still one a reset of `train` is not for. Source: none: infrastructure.
Kind: D -/
structure StillSpared (train : TrainId) (row : RowId) (σ σ' : Store) : Prop where
  same : Same σ σ' row
  spared : Spared train σ' row
  fit : Fit σ' row

section rows

variable {σ σ' σ'' : Store} {train : TrainId} {row : RowId}

/-- Nothing has happened. Source: none: infrastructure. Kind: L -/
theorem Same.refl (σ : Store) (row : RowId) : Same σ σ row := by
  cases row <;> rfl

/-- Twice the same is the same. Source: none: infrastructure. Kind: L -/
theorem Same.trans (h : Same σ σ' row) (h' : Same σ' σ'' row) : Same σ σ'' row := by
  cases row <;> exact Eq.trans h' h

/-- A row that stays what it was stays spared, since the clock does not go back. Source: none:
infrastructure. Kind: L -/
theorem Spared.of_same (h : Spared train σ row) (hsame : Same σ σ' row) (hnow : σ.now ≤ σ'.now) :
    Spared train σ' row := by
  cases row with
  | seat k =>
    obtain ⟨s, hs, hother⟩ := h
    exact ⟨s, Eq.trans hsame hs, hother⟩
  | booking b =>
    obtain ⟨r, hr, hother⟩ := h
    exact ⟨r, Eq.trans hsame hr, hother⟩
  | idempotencyKey k =>
    obtain ⟨key, hkey, hold⟩ := h
    exact ⟨key, Eq.trans hsame hkey, hold.trans hnow⟩
  | dlqJob id =>
    obtain ⟨j, hj, hresolved⟩ := h
    exact ⟨j, Eq.trans hsame hj, hresolved⟩

/-- And fit. Source: none: infrastructure. Kind: L -/
theorem Fit.of_same (h : Fit σ row) (hsame : Same σ σ' row) : Fit σ' row := by
  cases row with
  | seat k => exact fun s hs => h s (Eq.trans (Eq.symm hsame) hs)
  | booking | idempotencyKey | dlqJob => trivial

/-- The rows of a store that satisfies the `CHECK`. Source: migration `030_seats`. Kind: L -/
theorem Store.Checked.fit (h : Store.Checked σ) (row : RowId) : Fit σ row := by
  cases row with
  | seat k => exact fun s hs => h s (Table.mem_of_find? hs)
  | booking | idempotencyKey | dlqJob => trivial

/-- A step that leaves the row. Source: none: infrastructure. Kind: L -/
theorem StillSpared.next (h : StillSpared train row σ σ') (hsame : Same σ' σ'' row)
    (hnow : σ'.now ≤ σ''.now) : StillSpared train row σ σ'' :=
  ⟨h.same.trans hsame, h.spared.of_same hsame hnow, h.fit.of_same hsame⟩

end rows

/-! ## The statements, row by row -/

section statements

variable {σ σ' : Store} {train : TrainId} {row : RowId} {n : ℕ}

/-- Statement 1 leaves a row it is not for. Source: `app/api/admin/reset/route.ts` (statement 1). Kind: L -/
theorem same_resetSeats (h : σ.resetSeats train = some (.committed σ' n)) (hspared : Spared train σ row) :
    Same σ σ' row := by
  cases row with
  | seat k =>
    obtain ⟨s, hs, hother⟩ := hspared
    exact (Store.find?_resetSeats h hs hother).trans hs.symm
  | booking | idempotencyKey | dlqJob =>
    obtain ⟨-, hout⟩ := Store.resetSeats_cases h
    cases hout
    rfl

/-- Statement 2 leaves a row it is not for. Source: `app/api/admin/reset/route.ts` (statement 2). Kind: L -/
theorem same_resetBookings {snapshot : List BookingId}
    (h : σ.resetBookings train snapshot = some (.committed σ' n)) (hspared : Spared train σ row)
    (hfit : Fit σ row) : Same σ σ' row := by
  cases row with
  | seat k =>
    obtain ⟨s, hs, -⟩ := hspared
    exact (Store.find?_seat_resetBookings h hs (hfit s hs)).trans hs.symm
  | booking b =>
    obtain ⟨r, hr, hother⟩ := hspared
    exact (Store.find?_booking_resetBookings h hr hother).trans hr.symm
  | idempotencyKey | dlqJob =>
    rcases Store.resetBookings_cases h with ⟨hout, -⟩ | ⟨-, -, -, -, hout⟩
    · cases hout
    · cases hout
      rfl

/-- Statement 3 is for none of these rows. Source: `app/api/admin/reset/route.ts` (statement 3). Kind: L -/
theorem same_resetPayments {snapshot : List PaymentId}
    (h : σ.resetPayments snapshot = some (.committed σ' n)) : Same σ σ' row := by
  rcases Store.resetPayments_cases h with ⟨hout, -⟩ | ⟨-, -, hout⟩
  · cases hout
  · cases hout
    cases row <;> rfl

/-- Statement 4 leaves a row it is not for. Source: `app/api/admin/reset/route.ts` (statement 4). Kind: L -/
theorem same_resetKeys (h : σ.resetKeys = .committed σ' n) (hspared : Spared train σ row) :
    Same σ σ' row := by
  cases row with
  | idempotencyKey k =>
    obtain ⟨key, hkey, hold⟩ := hspared
    exact (Store.find?_resetKeys h hkey hold).trans hkey.symm
  | seat | booking | dlqJob =>
    cases h
    rfl

/-- Statement 5 leaves a row it is not for. Source: `app/api/admin/reset/route.ts` (statement 5). Kind: L -/
theorem same_resetDlqJobs (h : σ.resetDlqJobs = .committed σ' n) (hspared : Spared train σ row) :
    Same σ σ' row := by
  cases row with
  | dlqJob id =>
    obtain ⟨j, hj, hresolved⟩ := hspared
    exact (Store.find?_resetDlqJobs h hj hresolved).trans hj.symm
  | seat | booking | idempotencyKey =>
    cases h
    rfl

end statements

namespace ResetSys

/-! ## The request among other steps -/

/-- The request is one for `train`, as far as its next statement says. Source:
`app/api/admin/reset/route.ts` (statements 1 to 5). Kind: D -/
def For (train : TrainId) : ResetPc → Prop
  | .seats t | .bookings t | .bookingsRun t _ => t = train
  | .payments | .paymentsRun _ | .keys | .dlq | .respond _ => True

/-- No other request for a reset, and what else runs leaves the row. Source: none: infrastructure.
Kind: D -/
def Leaves (cfg : Config) (row : RowId) (w : ResetSys) : Action → Prop
  | .sys a => ∀ s ∈ Sys.step cfg w.sys a, Same w.sys.store s.store row
  | .post .. => False
  | .statement | .fail => True

instance (cfg : Config) (row : RowId) (w : ResetSys) (a : Action) : Decidable (Leaves cfg row w a) := by
  unfold Leaves
  split <;> infer_instance

section frame

variable {cfg : Config} {σ : Store} {w w' : ResetSys} {r : Reset} {train : TrainId} {row : RowId}
variable {a : Action}

/-- The row is what it was in `σ`, and the request is for `train`. Source: none: infrastructure. Kind: D -/
structure Sparing (train : TrainId) (row : RowId) (σ : Store) (w : ResetSys) : Prop where
  row : StillSpared train row σ w.sys.store
  request : ∀ r, w.reset = some r → For train r.pc

/-- A statement that leaves the row. Source: `app/api/admin/reset/route.ts` (statements 1 to 5). Kind: L -/
theorem Sparing.after {count : ℕ → ResetCounts} {next : ResetCounts → ResetPc}
    {out : Store.ResetOutcome} (h : Sparing train row σ w)
    (hout : ∀ τ n, out = .committed τ n → Same w.sys.store τ row ∧ τ.now = w.sys.store.now)
    (hnext : ∀ counts, For train (next counts)) : Sparing train row σ (w.after r count next out) := by
  cases out with
  | raised =>
    refine ⟨h.row, ?_⟩
    rintro _ ⟨⟩
    trivial
  | committed τ n =>
    obtain ⟨hsame, hnow⟩ := hout τ n rfl
    refine ⟨h.row.next hsame hnow.ge, ?_⟩
    rintro _ ⟨⟩
    exact hnext _

/-- A handler that moves on without a change. Source: none: infrastructure. Kind: L -/
theorem Sparing.goto {pc : ResetPc} (h : Sparing train row σ w) (hpc : For train pc) :
    Sparing train row σ (w.goto r pc) := by
  refine ⟨h.row, ?_⟩
  rintro _ ⟨⟩
  exact hpc

/-- **A statement leaves the row.** Source: `app/api/admin/reset/route.ts` (statements 1 to 5). Kind: L -/
theorem Sparing.statement (h : Sparing train row σ w) (hr : w.reset = some r)
    (hstep : w.statement r = some w') : Sparing train row σ w' := by
  have hfor := h.request r hr
  obtain ⟨pc, counts, before⟩ := r
  cases pc with
  | seats t =>
    obtain rfl : t = train := hfor
    obtain ⟨out, hout, rfl⟩ := Option.map_eq_some_iff.mp hstep
    refine h.after (fun τ n heq => ?_) fun _ => rfl
    subst heq
    exact ⟨same_resetSeats hout h.row.spared, Store.now_resetSeats hout⟩
  | bookings t =>
    cases hstep
    exact h.goto hfor
  | bookingsRun t snapshot =>
    obtain rfl : t = train := hfor
    obtain ⟨out, hout, rfl⟩ := Option.map_eq_some_iff.mp hstep
    refine h.after (fun τ n heq => ?_) fun _ => trivial
    subst heq
    exact ⟨same_resetBookings hout h.row.spared h.row.fit, Store.now_resetBookings hout⟩
  | payments =>
    cases hstep
    exact h.goto trivial
  | paymentsRun snapshot =>
    obtain ⟨out, hout, rfl⟩ := Option.map_eq_some_iff.mp hstep
    refine h.after (fun τ n heq => ?_) fun _ => trivial
    subst heq
    exact ⟨same_resetPayments hout, Store.now_resetPayments hout⟩
  | keys =>
    cases hstep
    refine h.after (fun τ n heq => ⟨same_resetKeys heq h.row.spared, ?_⟩) fun _ => trivial
    cases heq
    rfl
  | dlq =>
    cases hstep
    refine h.after (fun τ n heq => ⟨same_resetDlqJobs heq h.row.spared, ?_⟩) fun _ => trivial
    cases heq
    rfl
  | respond resp => cases hstep

/-- **What a step keeps.** Source: `app/api/admin/reset/route.ts` (statements 1 to 5). Kind: L -/
theorem Sparing.step (h : Sparing train row σ w) (hleaves : Leaves cfg row w a)
    (hstep : ResetSys.step cfg w a = some w') : Sparing train row σ w' := by
  cases a with
  | sys a =>
    simp only [ResetSys.step] at hstep
    split at hstep
    · cases hstep
    · obtain ⟨s, hs, rfl⟩ := Option.map_eq_some_iff.mp hstep
      refine ⟨h.row.next (hleaves s hs) ?_, h.request⟩
      rcases (Sys.step_cases hs).store_cases with heq | ⟨x, hx, -⟩
      · exact heq ▸ le_rfl
      · exact (Store.step_cases hx).now_le
  | post auth body => exact absurd hleaves id
  | statement =>
    obtain ⟨r, hr, hstep⟩ := Option.bind_eq_some_iff.mp hstep
    exact h.statement hr hstep
  | fail =>
    obtain ⟨r, hr, hstep⟩ := Option.bind_eq_some_iff.mp hstep
    unfold fail at hstep
    obtain ⟨-, hnext⟩ := Option.ite_none_left_eq_some.mp hstep
    cases hnext
    exact h.goto trivial

/-- **A reset spares the rows it is not for.** In every state whose seats satisfy their `CHECK`, a request
for a train leaves the seats and bookings of the other trains, the keys that are an hour old and the
resolved jobs as they are, whatever else runs between its statements and leaves the row. Source:
`docs/API_CONTRACT.md` (7.4), `app/api/admin/reset/route.ts` (statements 1 to 5). Kind: P -/
theorem reset_spares (hchecked : w.sys.store.Checked) (hr : w.reset = some r) (hpc : r.pc = .seats train)
    (hspared : Spared train w.sys.store row) (h : Steps (step cfg) (Leaves cfg row) w w') :
    Same w.sys.store w'.sys.store row := by
  have hstart : Sparing train row w.sys.store w := by
    refine ⟨⟨Same.refl _ row, hspared, hchecked.fit row⟩, fun r' hr' => ?_⟩
    obtain rfl : r = r' := Option.some.inj (hr.symm.trans hr')
    rw [hpc]
    rfl
  have hend : Sparing train row w.sys.store w' :=
    h.invariant (fun _ _ _ hw hleaves hstep => hw.step hleaves hstep) hstart
  exact hend.row.same

end frame

/-! ## A booking between charge and confirm -/

/-- What a reset of `train` would leave if it were for one train only. Source: `docs/API_CONTRACT.md` (7.4).
Kind: D -/
structure TouchesOne (train : TrainId) (σ σ' : Store) : Prop where
  seats : ∀ s ∈ σ.seats.committed, s.trainId ≠ train → s ∈ σ'.seats.committed
  bookings : ∀ r ∈ σ.bookings.committed, r.trainId ≠ train → r ∈ σ'.bookings.committed
  payments : ∀ p ∈ σ.payments, (∃ r ∈ σ.bookings.committed, r.trainId ≠ train ∧
    r.idempotencyKey = p.idempotencyKey) → p ∈ σ'.payments
  idempotencyKeys : ∀ row ∈ σ.idempotencyKeys, (∃ r ∈ σ.bookings.committed, r.trainId ≠ train ∧
    r.idempotencyKey = row.idempotencyKey) → row ∈ σ'.idempotencyKeys
  dlqJobs : ∀ j ∈ σ.dlqJobs, j.payload.trainId ≠ train → j ∈ σ'.dlqJobs

/-- Only the request takes steps. Source: none: infrastructure. Kind: D -/
def Alone (_ : ResetSys) : Action → Prop
  | .statement => True
  | .sys _ | .post .. | .fail => False

instance (w : ResetSys) (a : Action) : Decidable (Alone w a) := by
  unfold Alone
  split <;> infer_instance

/-- Two trains with a free seat each. Source: none: infrastructure. Kind: D -/
def twoTrains : ResetSys := ⟨Sys.twoTrains, none, []⟩

/-- It is initial. Source: none: infrastructure. Kind: L -/
theorem initial_twoTrains : Initial twoTrains := ⟨Sys.initial_twoTrains, rfl, rfl⟩

/-- A booking of the first train is charged, and not yet confirmed. Source: none: infrastructure. Kind: D -/
def charging : List Sys.Action :=
  Sys.accepting ++ [.deliver 0 0, .chaos 1 none] ++ Sys.callReturns 1 3 1 ++ Sys.callReturns 1 4 2 ++
    Sys.callReturns 1 5 2

/-- A request for the second train. Source: `docs/API_CONTRACT.md` (7.4). Kind: D -/
def resetOther : Action := .post none (some ⟨some "reset", some "12952"⟩)

/-- The reset is for the second train, and takes the key of the booking of the first one. Source: none:
infrastructure. Kind: D -/
def takesKey (w w' : ResetSys) : Bool :=
  w.reset == some ⟨.seats "12952", .zero, []⟩ && w.sys.store.idempotencyKeys.rows.any fun row =>
    (w.sys.store.bookings.committed.rows.any fun r =>
      r.trainId != "12952" && r.idempotencyKey == row.idempotencyKey) &&
    !w'.sys.store.idempotencyKeys.rows.contains row

/-- **A reset takes the keys of every train.** Source: `app/api/admin/reset/route.ts` (statement 4).
Kind: P -/
theorem reset_takes_keys : ¬ ∀ (cfg : Config) (w w' : ResetSys) (r : Reset) (train : TrainId),
    Reach (step cfg) Initial Always w → w.reset = some r → r.pc = .seats train →
    Steps (step cfg) Alone w w' → TouchesOne train w.sys.store w'.sys.store := by
  intro h
  have hrun : ((run (step Sys.config) twoTrains (charging.map .sys ++ [resetOther])).bind fun w =>
      (run (guarded (step Sys.config) Alone) w (List.replicate 7 .statement)).map (takesKey w)) =
        some true := by
    decide +kernel
  obtain ⟨w, hw, hrun⟩ := Option.bind_eq_some_iff.mp hrun
  obtain ⟨w', hw', htakes⟩ := Option.map_eq_some_iff.mp hrun
  simp only [takesKey, Bool.and_eq_true, beq_iff_eq, List.any_eq_true, Bool.not_eq_true',
    bne_iff_ne] at htakes
  obtain ⟨hreset, row, hrow, ⟨r, hr, hother, hkey⟩, hgone⟩ := htakes
  have hone := h Sys.config w w' _ "12952" ⟨_, initial_twoTrains, steps_of_run hw⟩ hreset rfl
    (steps_of_guarded hw')
  have hkept := hone.idempotencyKeys row hrow ⟨r, hr, hother, hkey⟩
  simp [Table.mem_def] at hgone hkept
  exact hgone hkept

/-- The seat of the first train is held, and the reset of the second one runs to its answer. Source: none:
infrastructure. Kind: D -/
def sparesHold (w w' : ResetSys) : Bool :=
  w.reset == some ⟨.seats "12952", .zero, []⟩ && w.sys.store.seats.committed.rows.all Seat.check &&
    ((w.sys.store.seats.committed.find? "12951-A1").any fun s =>
      s.trainId != "12952" && s.status == .reserved) &&
    w'.reset.any fun r => r.pc == .respond (.reset ⟨1, 0, 1, 1, 0⟩)

/-- The hold of a booking between charge and confirm is spared. Source: none: infrastructure. Kind: L -/
theorem reset_spares_hold : ∃ w w' : ResetSys, sparesHold w w' = true ∧
    Same w.sys.store w'.sys.store (.seat "12951-A1") := by
  have hrun : ((run (step Sys.config) twoTrains (charging.map .sys ++ [resetOther])).bind fun w =>
      (run (guarded (step Sys.config) (Leaves Sys.config (.seat "12951-A1"))) w
        (List.replicate 7 .statement)).map (sparesHold w)) = some true := by
    decide +kernel
  obtain ⟨w, -, hrun⟩ := Option.bind_eq_some_iff.mp hrun
  obtain ⟨w', hw', hspares⟩ := Option.map_eq_some_iff.mp hrun
  refine ⟨w, w', hspares, ?_⟩
  simp only [sparesHold, Bool.and_eq_true, beq_iff_eq, List.all_eq_true, Option.any_eq_true,
    bne_iff_ne] at hspares
  obtain ⟨⟨⟨hreset, hchecked⟩, s, hs, hother, -⟩, -⟩ := hspares
  have hspared : Spared "12952" w.sys.store (.seat "12951-A1") := ⟨s, hs, hother⟩
  exact reset_spares hchecked hreset rfl hspared (steps_of_guarded hw')

end ResetSys

end TrainsAndTracks
