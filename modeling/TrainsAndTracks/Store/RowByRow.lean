import TrainsAndTracks.Store.Progress

/-!
# Row locks one by one

PostgreSQL runs an `UPDATE` row by row: it locks a row, or waits for it and keeps the locks it has, and
goes on to the next one. Here a statement takes its locks so, in any order, and runs once it has those of
the rows it changes; the statements are those of `Store.stmt`.

* `seatRows`, `bookingRows` — the rows a statement locks. A row that its snapshot matched stays locked
  when it no longer qualifies.
* `step` — a step of the store, or one row lock.
* `OneHold` — no booking has two `RESERVED` seats, so that a release has one row to lock.
* `no_deadlock` — then no transaction waits for itself, however long the chain. `deadlocked` — with two
  `RESERVED` seats of one booking a sweep and a release wait for each other.

The order is by `rank`: confirmations and releases that have no lock, a sweep that lacks a seat, those
that lack their booking, a sweep that has its seats, and those that have all their rows.

`sweep_expired_holds` locks its targets `FOR UPDATE` and frees them before it changes a booking: the query
at its end reads `expired_seats`, and `expired_bookings`, which nothing reads, is run after it. The
`FOR KEY SHARE` locks of the foreign keys do not wait for these statements and are left out.
-/

namespace TrainsAndTracks

open Found

namespace Store.RowByRow

/-! ## The rows of a statement -/

/-- The seats that the statement at a point locks. `allocate_seat` locks one that nobody has locked, and
never waits. Source: migrations `110_fn_confirm_booking` (statement 2),
`20260418000000_split_release_hold` (`released`), `130_fn_sweep_expired_holds` (`targets`). Kind: D.
Fidelity: exact -/
def seatRows (call : Call) : Pc → List SeatId
  | .confirmSeat => match call with
    | .confirmBooking _ seat _ => [seat]
    | _ => []
  | .releaseSeats snapshot => snapshot
  | .sweepRun snapshot => snapshot
  | _ => []

/-- The booking that the statement at a point locks, where it is for one. Source: migrations
`110_fn_confirm_booking` (statement 3), `20260418000000_split_release_hold` (`release_hold_terminal`,
statement 2), `app/api/book/route.ts` (publish-failure branch). Kind: D. Fidelity: exact -/
def bookingRow (call : Call) : Pc → Option BookingId
  | .start => match call with
    | .failUnpublished b => some b
    | _ => none
  | .confirmRow => match call with
    | .confirmBooking b _ _ => some b
    | _ => none
  | .releaseRow _ => call.releases.map Prod.fst
  | _ => none

/-- The statement of execution `i` has still to lock a seat. Source: none: infrastructure. Kind: D -/
def lacksSeat (σ : Store) (i : ℕ) (e : Exec) : Bool :=
  (seatRows e.call e.pc).any fun k => !σ.seats.lockedBy i k

/-- The bookings that the statement of execution `i` locks; a sweep comes to those of its targets when it
has all of these. Source: migration `130_fn_sweep_expired_holds` (`expired_bookings`). Kind: D.
Fidelity: exact -/
def bookingRows (σ : Store) (i : ℕ) (e : Exec) : List BookingId :=
  match e.pc with
  | .sweepRun snapshot =>
    if lacksSeat σ i e then []
    else (σ.seats.committed.select (sweepSeatsUpdate snapshot e.now).cond).filterMap Seat.bookingId
  | _ => (bookingRow e.call e.pc).toList

/-- Execution `i` has locked the rows that the statement changes. Source: none: infrastructure (statement
semantics). Kind: D -/
def hasRows (σ : Store) (i : ℕ) (pc : Pc) : Stmt → Bool
  | .update us ub _ =>
    pc == .allocatePick ||
      (σ.seats.committed.rows.all (fun s => !us.cond s || σ.seats.lockedBy i s.id) &&
        σ.bookings.committed.rows.all fun r => !ub.cond r || σ.bookings.lockedBy i r.id)
  | _ => true

/-! ## The machine -/

/-- A step of the store, or one row lock of execution `i`. Source: none: infrastructure. Kind: D -/
inductive Action
  | store (a : Store.Action)
  | lockSeat (i : ℕ) (k : SeatId)
  | lockBooking (i : ℕ) (b : BookingId)

/-- One step. A statement runs when it has its rows. Source: none: infrastructure (statement semantics).
Kind: D -/
def step (σ : Store) : Action → Option Store
  | .store (.exec i ch) => do
    let e ← σ.execs[i]?
    let st ← σ.stmt i e.now ch e.call e.pc
    if hasRows σ i e.pc st then σ.runStmt i st else none
  | .store a => σ.step a
  | .lockSeat i k => do
    let e ← σ.execs[i]?
    if k ∈ seatRows e.call e.pc then (σ.seats.take i k).map fun seats => { σ with seats := seats } else none
  | .lockBooking i b => do
    let e ← σ.execs[i]?
    if b ∈ bookingRows σ i e then
      (σ.bookings.take i b).map fun bookings => { σ with bookings := bookings }
    else none

/-- Execution `i` waits for execution `j`: its statement is for a row that `j` has locked. Source: none:
infrastructure (statement semantics). Kind: D -/
def Waits (σ : Store) (i j : ℕ) : Prop :=
  i ≠ j ∧ ∃ e ∈ σ.execs[i]?, (∃ k ∈ seatRows e.call e.pc, σ.seats.lockedBy j k = true) ∨
    ∃ b ∈ bookingRows σ i e, σ.bookings.lockedBy j b = true

instance (σ : Store) (i j : ℕ) : Decidable (Waits σ i j) :=
  inferInstanceAs (Decidable (i ≠ j ∧ ∃ e ∈ σ.execs[i]?,
    (∃ k ∈ seatRows e.call e.pc, σ.seats.lockedBy j k = true) ∨
      ∃ b ∈ bookingRows σ i e, σ.bookings.lockedBy j b = true))

/-- No booking has two `RESERVED` seats. Source: migration `100_fn_allocate_seat` (re-delivery guard).
Kind: D -/
def OneHold (σ : Store) (_ : Action) : Prop :=
  ∀ s ∈ σ.seats.committed.rows, ∀ s' ∈ σ.seats.committed.rows, s.status = .reserved → s'.status = .reserved →
    s.bookingId.isSome = true → s.bookingId = s'.bookingId → s.id = s'.id

instance (σ : Store) (a : Action) : Decidable (OneHold σ a) :=
  inferInstanceAs (Decidable (∀ s ∈ σ.seats.committed.rows, ∀ s' ∈ σ.seats.committed.rows,
    s.status = .reserved → s'.status = .reserved → s.bookingId.isSome = true →
    s.bookingId = s'.bookingId → s.id = s'.id))

/-- What one step does. Source: none: infrastructure (the branches of `step`). Kind: D -/
inductive Stepped (σ : Store) : Action → Store → Prop
  | store {a σ'} (hs : Store.Stepped σ a σ') : Stepped σ (.store a) σ'
  | lockSeat {i k e seats} (he : σ.execs[i]? = some e) (hk : k ∈ seatRows e.call e.pc)
      (hseats : σ.seats.take i k = some seats) : Stepped σ (.lockSeat i k) { σ with seats := seats }
  | lockBooking {i b e bookings} (he : σ.execs[i]? = some e) (hb : b ∈ bookingRows σ i e)
      (hbookings : σ.bookings.take i b = some bookings) :
      Stepped σ (.lockBooking i b) { σ with bookings := bookings }

/-- **Inversion of a step.** Source: none: infrastructure. Kind: L -/
theorem step_cases {σ σ' : Store} {a : Action} (h : step σ a = some σ') : Stepped σ a σ' := by
  cases a with
  | store a =>
    refine .store (Store.step_cases ?_)
    cases a with
    | exec i ch =>
      simp only [step, Option.bind_eq_bind, Option.bind_eq_some_iff] at h
      obtain ⟨e, he, st, hst, h⟩ := h
      split at h
      · simp only [Store.step, exec, he, hst, Option.bind_eq_bind, Option.bind_some]
        exact h
      · cases h
    | begin | start | commit | abort | tick => exact h
  | lockSeat i k =>
    simp only [step, Option.bind_eq_bind, Option.bind_eq_some_iff] at h
    obtain ⟨e, he, h⟩ := h
    split at h
    · obtain ⟨seats, hseats, rfl⟩ := Option.map_eq_some_iff.mp h
      exact .lockSeat he ‹_› hseats
    · cases h
  | lockBooking i b =>
    simp only [step, Option.bind_eq_bind, Option.bind_eq_some_iff] at h
    obtain ⟨e, he, h⟩ := h
    split at h
    · obtain ⟨bookings, hbookings, rfl⟩ := Option.map_eq_some_iff.mp h
      exact .lockBooking he ‹_› hbookings
    · cases h

/-! ## Where an execution has its locks from -/

/-- A sweep that has the advisory lock. Source: migration `130_fn_sweep_expired_holds`. Kind: D.
Fidelity: exact -/
def sweeping : Pc → Bool
  | .sweepSnapshot | .sweepRun _ => true
  | _ => false

/-- Why an execution may have locked the booking `b`: it has run its statements, its sweep has all its
seats, or its statement is for `b`. Source: none: infrastructure. Kind: D -/
inductive HasBooking (σ : Store) (i : ℕ) (e : Exec) (b : BookingId) : Prop
  | returned {r} (hpc : e.pc = .ret r)
  | swept {snapshot} (hpc : e.pc = .sweepRun snapshot) (hseats : lacksSeat σ i e = false)
  | row (hrow : bookingRow e.call e.pc = some b)

/-- **What is known of an execution and its locks.** Source: migrations `110_fn_confirm_booking`,
`20260418000000_split_release_hold`, `130_fn_sweep_expired_holds` (order of the statements). Kind: D -/
structure Fits (σ : Store) (i : ℕ) (e : Exec) : Prop where
  seats : ∀ k, σ.seats.lockedBy i k = true → k ∈ seatRows e.call e.pc ∨ locking e.pc = true
  bookings : ∀ b, σ.bookings.lockedBy i b = true → HasBooking σ i e b
  single : ∀ snapshot, e.pc = .releaseSeats snapshot → snapshot.length ≤ 1
  advisory : sweeping e.pc = true → σ.advisory = some i

/-- Every lock has its execution, and every execution fits its locks. Source: none: infrastructure.
Kind: D -/
structure Locked (σ : Store) : Prop where
  seat_owner : ∀ i k, σ.seats.lockedBy i k = true → ∃ e, σ.execs[i]? = some e
  booking_owner : ∀ i b, σ.bookings.lockedBy i b = true → ∃ e, σ.execs[i]? = some e
  fits : ∀ (i : ℕ) (e : Exec), σ.execs[i]? = some e → Fits σ i e

section statements

variable {σ : Store} {i : ℕ} {e : Exec} {st : Stmt}

/-- A point at which seats are locked has no lock from before. Source: the stored functions. Kind: L -/
theorem seatRows_eq_nil {call : Call} {pc : Pc} (h : locking pc = true) : seatRows call pc = [] := by
  cases pc <;> first | rfl | cases h

/-- Who has locked a seat holds it to the end of the transaction. Source: migrations
`110_fn_confirm_booking`, `20260418000000_split_release_hold`, `130_fn_sweep_expired_holds`. Kind: L -/
theorem locking_next (hr : Runs σ i e.now e.call e.pc st) (hst : st ≠ .raise) {k : SeatId}
    (h : k ∈ seatRows e.call e.pc ∨ locking e.pc = true) : locking (nextOf st) = true := by
  obtain ⟨call, client, now, pc⟩ := e
  cases hr <;> first | rfl | exact absurd rfl hst | simp [seatRows, locking] at h

/-- **A statement that locks a booking is the last one.** Source: migrations `110_fn_confirm_booking`,
`20260418000000_split_release_hold`, `130_fn_sweep_expired_holds`, `app/api/book/route.ts` (publish-failure
branch). Kind: L -/
theorem HasBooking.last {b : BookingId} (h : HasBooking σ i e b) (hr : Runs σ i e.now e.call e.pc st) :
    (∃ r, nextOf st = .ret r) ∨ st = .raise := by
  cases h with
  | returned hpc => exact absurd hpc (hr.ne_ret _)
  | swept hpc =>
    obtain ⟨call, client, now, pc⟩ := e
    cases hpc
    cases hr
    exact .inl ⟨_, rfl⟩
  | row hrow =>
    obtain ⟨call, client, now, pc⟩ := e
    cases hr with
    | releaseSnapshot hcall => cases call <;> cases hcall <;> cases hrow
    | _ => first | exact .inl ⟨_, rfl⟩ | exact .inr rfl | cases hrow

/-- The advisory lock is taken when it is free. Source: migration `130_fn_sweep_expired_holds`. Kind: L -/
theorem advisory_free {now : Time} {call : Call} {pc next : Pc}
    (h : Runs σ i now call pc (.tryAdvisoryLock next)) : σ.advisory = none := by
  cases h
  assumption

/-- A sweep has the advisory lock, or takes it. Source: migration `130_fn_sweep_expired_holds`. Kind: L -/
theorem sweeping_next (hr : Runs σ i e.now e.call e.pc st) (h : sweeping (nextOf st) = true) :
    st = .tryAdvisoryLock (nextOf st) ∨ sweeping e.pc = true := by
  obtain ⟨call, client, now, pc⟩ := e
  cases hr <;> first | exact .inl rfl | exact .inr rfl | cases h

/-- A release has one seat to lock where no booking has two. Source: migration
`20260418000000_split_release_hold`. Kind: L -/
theorem length_le_one {a : Action} (hone : OneHold σ a) (hr : Runs σ i e.now e.call e.pc st)
    {snapshot : List SeatId} (h : nextOf st = .releaseSeats snapshot) : snapshot.length ≤ 1 := by
  obtain ⟨call, client, now, pc⟩ := e
  cases hr with
  | @releaseSnapshot _ b =>
    cases h
    rw [List.length_map]
    refine Table.length_select_le_one fun s hs s' hs' => ?_
    obtain ⟨hmem, hheld⟩ := Table.mem_select.mp hs
    obtain ⟨hmem', hheld'⟩ := Table.mem_select.mp hs'
    rw [Seat.heldFor_iff] at hheld hheld'
    exact hone s hmem s' hmem' hheld.1 hheld'.1 (by simp [hheld.2]) (hheld.2.trans hheld'.2.symm)
  | _ => cases h

end statements

section moves

variable {σ σ' : Store} {a : Store.Action} {i : ℕ} {e : Exec}

/-- What a step does with the execution that takes it: it ends, begins, updates rows, or runs a statement
that locks no row. Source: none: infrastructure. Kind: D -/
inductive Moved (σ σ' : Store) (i : ℕ) (e : Exec) : Exec → Prop
  | ends {pc} (hpc : pc = .failed ∨ ∃ r, pc = .done r) (hseats : ∀ k, σ'.seats.lockedBy i k = false)
      (hbookings : ∀ b, σ'.bookings.lockedBy i b = false) : Moved σ σ' i e { e with pc := pc }
  | begins {now} (hpc : e.pc = .sent) (hseats : σ'.seats = σ.seats) (hbookings : σ'.bookings = σ.bookings) :
      Moved σ σ' i e { e with now := now, pc := .start }
  | updates {us ub next} (hr : Runs σ i e.now e.call e.pc (.update us ub next))
      (hbookings : σ.bookings.update i ub = some σ'.bookings) : Moved σ σ' i e { e with pc := next }
  | runs {st} (hr : Runs σ i e.now e.call e.pc st) (hst : st ≠ .raise) (hseats : σ'.seats = σ.seats)
      (hbookings : ∀ b, σ'.bookings.lockedBy i b = σ.bookings.lockedBy i b)
      (hadvisory : st = .tryAdvisoryLock (nextOf st) ∧ σ'.advisory = some i ∨
        (∀ next, st ≠ .tryAdvisoryLock next) ∧ σ'.advisory = σ.advisory) :
      Moved σ σ' i e { e with pc := nextOf st }

/-- The execution that takes a step is there. Source: none: infrastructure. Kind: L -/
theorem exists_moved (hs : Store.Stepped σ a σ') (ha : a.actor = some i) :
    ∃ e e', σ.execs[i]? = some e ∧ σ'.execs[i]? = some e' ∧ Moved σ σ' i e e' := by
  cases hs with
  | begin | tick => cases ha
  | @start _ e he hpc =>
    cases ha
    exact ⟨e, { e with now := σ.now, pc := .start }, he, by simp [he], .begins hpc rfl rfl⟩
  | raised he | aborted he =>
    cases ha
    refine ⟨_, _, he, (goto_exec_self _ _ _).trans (congrArg _ he),
      .ends (.inl rfl) (fun k => ?_) fun b => ?_⟩
    · exact Versioned.lockedBy_rollback _ _ _
    · exact Versioned.lockedBy_rollback _ _ _
  | commit he =>
    cases ha
    refine ⟨_, _, he, (goto_exec_self _ _ _).trans (congrArg _ he),
      .ends (.inr ⟨_, rfl⟩) (fun k => ?_) fun b => ?_⟩
    · exact Versioned.lockedBy_commit _ _ _
    · exact Versioned.lockedBy_commit _ _ _
  | update he hr hseats hbookings =>
    cases ha
    exact ⟨_, _, he, (goto_exec_self _ _ _).trans (congrArg _ he), .updates hr hbookings⟩
  | lockAdvisory he hr =>
    cases ha
    exact ⟨_, _, he, (goto_exec_self _ _ _).trans (congrArg _ he),
      .runs hr (by simp) rfl (fun _ => rfl) (.inl ⟨rfl, rfl⟩)⟩
  | select he hr | insertBooking he hr | insertPayment he hr | insertKey he hr | updateKeys he hr
  | insertDlqJob he hr | updateDlqJobs he hr =>
    cases ha
    exact ⟨_, _, he, (goto_exec_self _ _ _).trans (congrArg _ he),
      .runs hr (by simp) rfl (fun _ => rfl) (.inr ⟨by simp, rfl⟩)⟩

end moves

section invariant

variable {σ σ' : Store} {i : ℕ} {e : Exec}

/-- It holds of an initial store. Source: migrations `900_seed_trains`, `910_seed_seats`. Kind: L -/
theorem locked_of_initial (h : Initial σ) : Locked σ where
  seat_owner i k hk := by
    obtain ⟨w, hw⟩ := Versioned.lockedBy_iff.mp hk
    rw [h.seats_unlocked] at hw
    cases hw
  booking_owner i b hb := by
    obtain ⟨w, hw⟩ := Versioned.lockedBy_iff.mp hb
    rw [h.bookings_empty] at hw
    cases hw
  fits i e he := by
    rw [h.execs_empty] at he
    cases he

/-- More seat locks leave less to lock. Source: none: infrastructure. Kind: L -/
theorem lacksSeat_mono (hseats : ∀ k, σ.seats.lockedBy i k = true → σ'.seats.lockedBy i k = true)
    (h : lacksSeat σ i e = false) : lacksSeat σ' i e = false := by
  simp only [lacksSeat, List.any_eq_false, Bool.not_eq_true', Bool.not_eq_false] at h ⊢
  exact fun k hk => hseats k (h k hk)

/-- The reason for a booking lock stays. Source: none: infrastructure. Kind: L -/
theorem HasBooking.mono {b : BookingId} (h : HasBooking σ i e b)
    (hseats : ∀ k, σ.seats.lockedBy i k = true → σ'.seats.lockedBy i k = true) : HasBooking σ' i e b := by
  cases h with
  | returned hpc => exact .returned hpc
  | swept hpc hall => exact .swept hpc (lacksSeat_mono hseats hall)
  | row hrow => exact .row hrow

/-- A booking is locked for a reason. Source: none: infrastructure (the branches of `bookingRows`).
Kind: L -/
theorem hasBooking_of_mem {b : BookingId} (h : b ∈ bookingRows σ i e) : HasBooking σ i e b := by
  unfold bookingRows at h
  split at h
  · rename_i hpc
    split at h
    · cases h
    · exact .swept hpc (Bool.eq_false_of_not_eq_true ‹_›)
  · exact .row (Option.mem_toList.mp h)

/-- An execution that has no locks and is at a point that needs none. Source: none: infrastructure. Kind: L -/
theorem Fits.of_unlocked (hseats : ∀ k, σ.seats.lockedBy i k ≠ true)
    (hbookings : ∀ b, σ.bookings.lockedBy i b ≠ true) (hpc : ∀ snapshot, e.pc ≠ .releaseSeats snapshot)
    (hsweep : sweeping e.pc = false) : Fits σ i e where
  seats k hk := absurd hk (hseats k)
  bookings b hb := absurd hb (hbookings b)
  single snapshot hsnap := absurd hsnap (hpc snapshot)
  advisory h := absurd (hsweep.symm.trans h) Bool.false_ne_true

/-- **What an execution that takes a step fits.** Source: the stored functions. Kind: L -/
theorem Fits.moved {a : Action} {e' : Exec} (h : Fits σ i e) (hone : OneHold σ a) (hm : Moved σ σ' i e e') :
    Fits σ' i e' := by
  cases hm with
  | ends hpc hseats hbookings =>
    refine .of_unlocked (fun k => ?_) (fun b => ?_) (fun snapshot hsnap => ?_) ?_
    · rw [hseats]
      exact Bool.false_ne_true
    · rw [hbookings]
      exact Bool.false_ne_true
    · rcases hpc with rfl | ⟨r, rfl⟩ <;> cases hsnap
    · rcases hpc with rfl | ⟨r, rfl⟩ <;> rfl
  | begins hpc hseats hbookings =>
    constructor
    · intro k hk
      rw [hseats] at hk
      have hwhy := h.seats k hk
      simp [hpc, seatRows, locking] at hwhy
    · intro b hb
      rw [hbookings] at hb
      cases h.bookings b hb <;> simp_all [bookingRow]
    · intro snapshot hsnap
      cases hsnap
    · intro hsweep
      cases hsweep
  | @updates us ub next hr hbookings =>
    constructor
    · exact fun k _ => .inr hr.locking_of_update
    · intro b hb
      rcases hr.update_cases.2 with ⟨r, rfl⟩ | rfl
      · exact .returned rfl
      · rw [Versioned.update_skip, Option.some.injEq] at hbookings
        rw [← hbookings] at hb
        obtain ⟨r, hret⟩ := ((h.bookings b hb).last hr).resolve_right (by simp)
        exact .returned hret
    · intro snapshot hsnap
      exact length_le_one hone hr hsnap
    · intro hsweep
      have hlocking := hr.locking_of_update
      cases next <;> simp_all [sweeping, locking]
  | runs hr hst hseats hbookings hadvisory =>
    constructor
    · intro k hk
      rw [hseats] at hk
      exact .inr (locking_next hr hst (h.seats k hk))
    · intro b hb
      rw [hbookings] at hb
      obtain ⟨r, hret⟩ := ((h.bookings b hb).last hr).resolve_right hst
      exact .returned hret
    · intro snapshot hsnap
      exact length_le_one hone hr hsnap
    · intro hsweep
      rcases sweeping_next hr hsweep with htry | hold
      · exact (hadvisory.resolve_right fun hno => hno.1 _ htry).2
      · rcases hadvisory with ⟨-, hown⟩ | ⟨-, hsame⟩
        · exact hown
        · exact hsame.trans (h.advisory hold)

/-- The seat locks of an execution that takes no step. Source: none: infrastructure. Kind: L -/
theorem seats_lockedBy {a : Store.Action} (hs : Store.Stepped σ a σ') (ha : a.actor ≠ some i) (k : SeatId) :
    σ'.seats.lockedBy i k = σ.seats.lockedBy i k := by
  refine Bool.eq_iff_iff.mpr ?_
  rw [Versioned.lockedBy_iff, Versioned.lockedBy_iff]
  exact exists_congr fun _ => hs.seat_lock_iff ha

/-- The booking locks of an execution that takes no step. Source: none: infrastructure. Kind: L -/
theorem bookings_lockedBy {a : Store.Action} (hs : Store.Stepped σ a σ') (ha : a.actor ≠ some i)
    (b : BookingId) : σ'.bookings.lockedBy i b = σ.bookings.lockedBy i b := by
  refine Bool.eq_iff_iff.mpr ?_
  rw [Versioned.lockedBy_iff, Versioned.lockedBy_iff]
  exact exists_congr fun _ => hs.booking_lock_iff ha

/-- Nobody takes the advisory lock from an execution that takes no step. Source: migration
`130_fn_sweep_expired_holds` (`pg_try_advisory_xact_lock`). Kind: L -/
theorem advisory_stays {a : Store.Action} (hs : Store.Stepped σ a σ') (ha : a.actor ≠ some i)
    (h : σ.advisory = some i) : σ'.advisory = some i := by
  cases hs with
  | @raised j | @aborted j | @commit j =>
    have hne : i ≠ j := fun hij => ha (congrArg some hij.symm)
    show σ.advisory.filter (· ≠ j) = some i
    simp [h, hne]
  | lockAdvisory he hr =>
    rw [advisory_free hr] at h
    cases h
  | _ => exact h

/-- An execution that takes no step fits as before. Source: none: infrastructure. Kind: L -/
theorem Fits.of_ne {a : Store.Action} (h : Fits σ i e) (hs : Store.Stepped σ a σ') (ha : a.actor ≠ some i) :
    Fits σ' i e where
  seats k hk := h.seats k (by rwa [seats_lockedBy hs ha] at hk)
  bookings b hb := by
    rw [bookings_lockedBy hs ha] at hb
    exact (h.bookings b hb).mono fun k hk => by rwa [seats_lockedBy hs ha]
  single := h.single
  advisory hsweep := advisory_stays hs ha (h.advisory hsweep)

/-- **A step of the store keeps the locks accounted for.** Source: the stored functions. Kind: L -/
theorem Locked.store {a : Store.Action} {b : Action} (h : Locked σ) (hone : OneHold σ b)
    (hs : Store.Stepped σ a σ') : Locked σ' where
  seat_owner i k hk := by
    by_cases ha : a.actor = some i
    · obtain ⟨_, e', -, he', -⟩ := exists_moved hs ha
      exact ⟨e', he'⟩
    · rw [seats_lockedBy hs ha] at hk
      obtain ⟨e, he⟩ := h.seat_owner i k hk
      exact ⟨e, hs.exec_of_ne ha he⟩
  booking_owner i b hb := by
    by_cases ha : a.actor = some i
    · obtain ⟨_, e', -, he', -⟩ := exists_moved hs ha
      exact ⟨e', he'⟩
    · rw [bookings_lockedBy hs ha] at hb
      obtain ⟨e, he⟩ := h.booking_owner i b hb
      exact ⟨e, hs.exec_of_ne ha he⟩
  fits i e' he' := by
    by_cases ha : a.actor = some i
    · obtain ⟨e, e'', he, he'', hm⟩ := exists_moved hs ha
      obtain rfl := Option.eq_some_unique he' he''
      exact (h.fits i e he).moved hone hm
    · rcases hs.exec_new he' with ⟨e, he⟩ | ⟨call, client, rfl, rfl, rfl⟩
      · obtain rfl := Option.eq_some_unique he' (hs.exec_of_ne ha he)
        exact (h.fits i e' he).of_ne hs ha
      · -- an execution that is sent has no locks: the one that has them was there
        have hnone : σ.execs[σ.execs.length]? = none := List.getElem?_eq_none le_rfl
        refine .of_unlocked (fun k hk => ?_) (fun b hb => ?_) (fun snapshot hsnap => ?_) rfl
        · rw [seats_lockedBy hs ha] at hk
          obtain ⟨e, he⟩ := h.seat_owner _ k hk
          rw [hnone] at he
          cases he
        · rw [bookings_lockedBy hs ha] at hb
          obtain ⟨e, he⟩ := h.booking_owner _ b hb
          rw [hnone] at he
          cases he
        · cases hsnap

/-- So does a row lock, which an execution takes for its own statement. Source: none: infrastructure.
Kind: L -/
theorem Locked.step {a : Action} (h : Locked σ) (hone : OneHold σ a) (hs : Stepped σ a σ') : Locked σ' := by
  cases hs with
  | store hs => exact h.store hone hs
  | @lockSeat i k e seats he hk hseats =>
    have hmore : ∀ j k', σ.seats.lockedBy j k' = true → seats.lockedBy j k' = true :=
      fun j k' hold => (Versioned.lockedBy_take hseats).mpr (.inl hold)
    constructor
    · intro j k' hk'
      rcases (Versioned.lockedBy_take hseats).mp hk' with hold | ⟨rfl, -⟩
      · exact h.seat_owner j k' hold
      · exact ⟨e, he⟩
    · exact h.booking_owner
    · intro j e' he'
      have hfits := h.fits j e' he'
      refine ⟨fun k' hk' => ?_, fun b hb => (hfits.bookings b hb).mono (hmore j), hfits.single,
        hfits.advisory⟩
      rcases (Versioned.lockedBy_take hseats).mp hk' with hold | ⟨rfl, rfl, -⟩
      · exact hfits.seats k' hold
      · obtain rfl := Option.eq_some_unique he he'
        exact .inl hk
  | @lockBooking i b e bookings he hb hbookings =>
    constructor
    · exact h.seat_owner
    · intro j b' hb'
      rcases (Versioned.lockedBy_take hbookings).mp hb' with hold | ⟨rfl, -⟩
      · exact h.booking_owner j b' hold
      · exact ⟨e, he⟩
    · intro j e' he'
      have hfits := h.fits j e' he'
      refine ⟨hfits.seats, fun b' hb' => ?_, hfits.single, hfits.advisory⟩
      rcases (Versioned.lockedBy_take hbookings).mp hb' with hold | ⟨rfl, rfl, -⟩
      · exact (hfits.bookings b' hold).mono fun _ => id
      · obtain rfl := Option.eq_some_unique he he'
        exact (hasBooking_of_mem hb).mono fun _ => id

/-- It holds of every store that is reached. Source: none: infrastructure. Kind: L -/
theorem locked_of_reach (h : Reach step Initial OneHold σ) : Locked σ :=
  h.invariant (fun _ hinit => locked_of_initial hinit) fun _ _ _ _ hl hone hst =>
    hl.step hone (step_cases hst)

end invariant

/-! ## Who waits for whom -/

/-- The statement of execution `i` has still to lock a booking of its own. Source: none: infrastructure.
Kind: D -/
def lacksBooking (σ : Store) (i : ℕ) (e : Exec) : Bool :=
  (bookingRow e.call e.pc).any fun b => !σ.bookings.lockedBy i b

/-- How far execution `i` is with its locks. A sweep comes after those that have locked no seat and before
those that have locked theirs. Source: migrations `110_fn_confirm_booking`,
`20260418000000_split_release_hold`, `130_fn_sweep_expired_holds` (order of the statements). Kind: D -/
def rank (σ : Store) (i : ℕ) : ℕ :=
  match σ.execs[i]? with
  | none => 4
  | some e =>
    match e.pc with
    | .sweepRun _ => if lacksSeat σ i e then 1 else 3
    | _ => if lacksSeat σ i e then 0 else if lacksBooking σ i e then 2 else 4

section waiting

variable {σ : Store} {i j : ℕ} {e e' : Exec}

/-- The rank of a sweep. Source: none: infrastructure. Kind: L -/
theorem rank_of_sweepRun {snapshot : List SeatId} (he : σ.execs[i]? = some e)
    (hpc : e.pc = .sweepRun snapshot) : rank σ i = if lacksSeat σ i e then 1 else 3 := by
  unfold rank
  split
  · simp_all
  · rename_i he'
    obtain rfl := Option.eq_some_unique he he'
    rw [hpc]

/-- The rank of another execution. Source: none: infrastructure. Kind: L -/
theorem rank_of_ne (he : σ.execs[i]? = some e) (hpc : ∀ snapshot, e.pc ≠ .sweepRun snapshot) :
    rank σ i = if lacksSeat σ i e then 0 else if lacksBooking σ i e then 2 else 4 := by
  unfold rank
  split
  · simp_all
  · rename_i he'
    obtain rfl := Option.eq_some_unique he he'
    split
    · exact absurd ‹_› (hpc _)
    · rfl

/-- A statement for a booking locks no seat. Source: the stored functions. Kind: L -/
theorem seatRows_of_bookingRow {b : BookingId} (h : bookingRow e.call e.pc = some b) :
    seatRows e.call e.pc = [] ∧ ∀ snapshot, e.pc ≠ .sweepRun snapshot := by
  cases hpc : e.pc <;> simp_all [bookingRow, seatRows]

/-- The rank of an execution that has all its rows. Source: none: infrastructure. Kind: L -/
theorem rank_of_all (he : σ.execs[i]? = some e) (hpc : ∀ snapshot, e.pc ≠ .sweepRun snapshot)
    (hseats : seatRows e.call e.pc = [])
    (hbooking : ∀ b, bookingRow e.call e.pc = some b → σ.bookings.lockedBy i b = true) : rank σ i = 4 := by
  have hseat : lacksSeat σ i e = false := by simp [lacksSeat, hseats]
  have hrow : lacksBooking σ i e = false := by simpa [lacksBooking, Option.any_eq_false] using hbooking
  rw [rank_of_ne he hpc, hseat, hrow]
  rfl

/-- The rank of an execution that waits for a booking. Source: none: infrastructure. Kind: L -/
theorem rank_of_mem_bookingRows {b : BookingId} (he : σ.execs[i]? = some e) (hb : b ∈ bookingRows σ i e)
    (hnot : ¬ σ.bookings.lockedBy i b = true) :
    (∃ snapshot, e.pc = .sweepRun snapshot) ∧ rank σ i = 3 ∨ rank σ i = 2 := by
  unfold bookingRows at hb
  split at hb
  · rename_i snapshot hpc
    split at hb
    · cases hb
    · exact .inl ⟨⟨snapshot, hpc⟩, by rw [rank_of_sweepRun he hpc, if_neg ‹_›]⟩
  · rename_i hpc
    have hrow := Option.mem_toList.mp hb
    obtain ⟨hseats, hno⟩ := seatRows_of_bookingRow hrow
    have hseat : lacksSeat σ i e = false := by simp [lacksSeat, hseats]
    have hlacks : lacksBooking σ i e = true := by
      simp only [lacksBooking, Option.mem_def.mp hrow, Option.any_some]
      simpa using hnot
    right
    rw [rank_of_ne he hno, hseat, hlacks]
    rfl

/-- Two sweeps do not run at once. Source: migration `130_fn_sweep_expired_holds`
(`pg_try_advisory_xact_lock`). Kind: L -/
theorem Locked.sweep_unique (h : Locked σ) {snapshot snapshot' : List SeatId} (he : σ.execs[i]? = some e)
    (he' : σ.execs[j]? = some e') (hpc : e.pc = .sweepRun snapshot) (hpc' : e'.pc = .sweepRun snapshot') :
    i = j := by
  have hi := (h.fits i e he).advisory (by rw [hpc]; rfl)
  have hj := (h.fits j e' he').advisory (by rw [hpc']; rfl)
  exact Option.some.inj (hi.symm.trans hj)

/-- Who has locked a seat, a sweep apart, has locked all its seats. Source: migrations
`110_fn_confirm_booking`, `20260418000000_split_release_hold`. Kind: L -/
theorem Fits.lacksSeat_eq_false (h : Fits σ i e) (hpc : ∀ snapshot, e.pc ≠ .sweepRun snapshot) {k : SeatId}
    (hk : σ.seats.lockedBy i k = true) : lacksSeat σ i e = false := by
  simp only [lacksSeat, List.any_eq_false, Bool.not_eq_true', Bool.not_eq_false]
  intro k' hk'
  rcases h.seats k hk with hrow | hlocking
  · have heq : k' = k := by
      obtain ⟨call, client, now, pc⟩ := e
      cases pc with
      | confirmSeat => cases call <;> simp_all [seatRows]
      | releaseSeats snapshot =>
        have hone := h.single snapshot rfl
        cases snapshot with
        | nil => cases hrow
        | cons seat rest =>
          have hrest : rest = [] := List.eq_nil_of_length_eq_zero (by simpa using hone)
          simp_all [seatRows]
      | sweepRun snapshot => exact absurd rfl (hpc snapshot)
      | _ => cases hrow
    rwa [heq]
  · rw [seatRows_eq_nil hlocking] at hk'
    cases hk'

/-- **Whoever waits, waits for an execution that is further with its locks.** Source: migrations
`110_fn_confirm_booking`, `20260418000000_split_release_hold`, `130_fn_sweep_expired_holds`. Kind: L -/
theorem Locked.ranked (h : Locked σ) : Ranked (Waits σ) (rank σ) := by
  rintro i j ⟨hne, e, he, ⟨k, hk, hlock⟩ | ⟨b, hb, hlock⟩⟩
  · have hlacks : lacksSeat σ i e = true := by
      refine List.any_eq_true.mpr ⟨k, hk, ?_⟩
      simpa using fun hown => hne (Versioned.lockedBy_unique hown hlock)
    obtain ⟨e', he'⟩ := h.seat_owner j k hlock
    by_cases hsweep' : ∃ snapshot, e'.pc = .sweepRun snapshot
    · obtain ⟨snapshot', hpc'⟩ := hsweep'
      have hpc : ∀ snapshot, e.pc ≠ .sweepRun snapshot := fun _ hpc => hne (h.sweep_unique he he' hpc hpc')
      rw [rank_of_ne he hpc, rank_of_sweepRun he' hpc', if_pos hlacks]
      split <;> omega
    · have hpc' : ∀ snapshot, e'.pc ≠ .sweepRun snapshot := fun _ hpc' => hsweep' ⟨_, hpc'⟩
      have hall := (h.fits j e' he').lacksSeat_eq_false hpc' hlock
      have hi : rank σ i ≤ 1 := by
        by_cases hsweep : ∃ snapshot, e.pc = .sweepRun snapshot
        · obtain ⟨snapshot, hpc⟩ := hsweep
          rw [rank_of_sweepRun he hpc, if_pos hlacks]
        · rw [rank_of_ne he fun _ hpc => hsweep ⟨_, hpc⟩, if_pos hlacks]
          exact Nat.zero_le 1
      rw [rank_of_ne he' hpc', hall, if_neg Bool.false_ne_true]
      split <;> omega
  · obtain ⟨e', he'⟩ := h.booking_owner j b hlock
    have hi := rank_of_mem_bookingRows he hb fun hown => hne (Versioned.lockedBy_unique hown hlock)
    cases (h.fits j e' he').bookings b hlock with
    | returned hpc' =>
      have hj : rank σ j = 4 :=
        rank_of_all he' (by simp [hpc']) (by simp [hpc', seatRows]) (by simp [hpc', bookingRow])
      omega
    | swept hpc' hall =>
      have hj : rank σ j = 3 := by rw [rank_of_sweepRun he' hpc', hall, if_neg Bool.false_ne_true]
      rcases hi with ⟨⟨snapshot, hpc⟩, -⟩ | hi
      · exact absurd (h.sweep_unique he he' hpc hpc') hne
      · omega
    | row hrow =>
      obtain ⟨hseats, hno⟩ := seatRows_of_bookingRow hrow
      have hj : rank σ j = 4 := by
        refine rank_of_all he' hno hseats fun b' hb' => ?_
        obtain rfl := Option.eq_some_unique hrow hb'
        exact hlock
      omega

/-- Who has locked a booking has locked all its seats. Source: migrations `110_fn_confirm_booking`,
`20260418000000_split_release_hold`, `130_fn_sweep_expired_holds`. Kind: L -/
theorem HasBooking.lacksSeat_eq_false {b : BookingId} (h : HasBooking σ i e b) : lacksSeat σ i e = false := by
  cases h with
  | returned hpc => simp [lacksSeat, hpc, seatRows]
  | swept _ hall => exact hall
  | row hrow => simp [lacksSeat, (seatRows_of_bookingRow hrow).1]

/-- An execution that has locked all its seats locks no further one. Source: none: infrastructure (the
branches of `step`). Kind: L -/
theorem step_lockSeat_eq_none (he : σ.execs[i]? = some e) (hall : lacksSeat σ i e = false) (k : SeatId) :
    step σ (.lockSeat i k) = none := by
  simp only [lacksSeat, List.any_eq_false, Bool.not_eq_true', Bool.not_eq_false] at hall
  simp only [step, he, Option.bind_eq_bind, Option.bind_some]
  split
  · simp [Versioned.take, hall k ‹_›]
  · rfl

/-- **The stored functions cannot deadlock.** Row locks are taken one by one, in any order, and kept while
the next one is waited for. As long as no booking has two `RESERVED` seats, no transaction waits for
itself, round any number of corners. Seats are locked before bookings: who has locked a booking locks no
further seat, and the statement it is at is its last. Source: migrations `100_fn_allocate_seat`,
`110_fn_confirm_booking`, `20260418000000_split_release_hold`, `130_fn_sweep_expired_holds`,
`app/api/book/route.ts` (publish-failure branch). Kind: P -/
theorem no_deadlock (h : Reach step Initial OneHold σ) :
    (∀ i, ¬ Relation.TransGen (Waits σ) i i) ∧
      ∀ i e b, σ.execs[i]? = some e → σ.bookings.lockedBy i b = true →
        (∀ k, step σ (.lockSeat i k) = none) ∧
        ∀ ch st, σ.stmt i e.now ch e.call e.pc = some st → (∃ r, nextOf st = .ret r) ∨ st = .raise := by
  have hlocked := locked_of_reach h
  refine ⟨fun i => hlocked.ranked.not_cycle i, fun i e b he hb => ?_⟩
  have hwhy := (hlocked.fits i e he).bookings b hb
  exact ⟨step_lockSeat_eq_none he hwhy.lacksSeat_eq_false, fun ch st hst => hwhy.last (runs_of_stmt hst)⟩

end waiting

/-! ## Schedules -/

/-- Two bookings are created and held, and a delivery begins to confirm the second. Source: none:
infrastructure. Kind: D -/
def confirming : List Store.Action :=
  oneCall 0 (.createBooking ⟨"k1", "12951", "Asha", none, 126000⟩) 1 ++
  [.begin (.createBooking ⟨"k2", "12951", "Ravi", none, 126000⟩) 1, .start 1, .exec 1 ⟨2, none, ""⟩,
    .commit 1] ++
  oneCall 2 (.allocateSeat "12951" 1 "Asha" 300) 2 ++ oneCall 3 (.allocateSeat "12951" 2 "Ravi" 300) 2 ++
  [.begin (.confirmBooking 2 "12951-A2" 1) 4, .start 4, .exec 4 usualChoice]

/-- The holds run out, and a sweep finds both. Source: none: infrastructure. Kind: D -/
def sweepingTwo : List Store.Action :=
  [.tick 400, .begin .sweepExpiredHolds 5, .start 5, .exec 5 usualChoice, .exec 5 usualChoice]

/-- The first booking is released, and failed. Source: none: infrastructure. Kind: D -/
def givingUp : List Store.Action :=
  [.begin (.releaseHoldRetryable 1) 6, .start 6, .exec 6 usualChoice, .begin (.failUnpublished 1) 7, .start 7]

/-- The confirmation has locked the second seat, the sweep the first one. The sweep waits for the second
seat, and the release for the first one. Source: none: infrastructure. Kind: D -/
def contending : List Action :=
  confirming.map .store ++ [.lockSeat 4 "12951-A2"] ++ sweepingTwo.map .store ++ [.lockSeat 5 "12951-A1"] ++
  givingUp.map .store ++ [.lockBooking 7 1]

/-- They wait in a row. Source: none: infrastructure. Kind: L -/
theorem no_deadlock_contending : ∃ σ : Store, Waits σ 6 5 ∧ Waits σ 5 4 ∧ σ.bookings.lockedBy 7 1 = true ∧
    (∀ i, ¬ Relation.TransGen (Waits σ) i i) ∧ ∀ k, step σ (.lockSeat 7 k) = none := by
  have hrun : (run (guarded step OneHold) twoSeats contending).map (fun σ =>
      decide (Waits σ 6 5) && decide (Waits σ 5 4) && σ.bookings.lockedBy 7 1 && (σ.execs[7]?).isSome) =
      some true := by decide +kernel
  obtain ⟨σ, hreach, hp⟩ := reach_of_guarded initial_twoSeats hrun
  simp only [Bool.and_eq_true, decide_eq_true_eq] at hp
  obtain ⟨⟨⟨hrelease, hsweep⟩, hlock⟩, hsome⟩ := hp
  obtain ⟨e, he⟩ := Option.isSome_iff_exists.mp hsome
  have hno := no_deadlock hreach
  exact ⟨σ, hrelease, hsweep, hlock, hno.1, (hno.2 7 e 1 he hlock).1⟩

/-- A booking is held, the hold runs out, a second delivery holds another seat for it, and that hold runs
out too; a sweep and a release find both seats. Source: none: infrastructure. Kind: D -/
def holdingTwice : List Store.Action :=
  oneCall 0 (.createBooking ⟨"k", "12951", "Asha", none, 126000⟩) 1 ++
  oneCall 1 (.allocateSeat "12951" 1 "Asha" 300) 2 ++ [.tick 400] ++
  oneCall 2 (.allocateSeat "12951" 1 "Asha" 300) 2 ++ [.tick 400] ++
  [.begin .sweepExpiredHolds 3, .start 3, .exec 3 usualChoice, .exec 3 usualChoice] ++
  [.begin (.releaseHoldRetryable 1) 4, .start 4, .exec 4 usualChoice]

/-- They lock one each. Source: none: infrastructure. Kind: D -/
def crossing : List Action :=
  holdingTwice.map .store ++ [.lockSeat 3 "12951-A1", .lockSeat 4 "12951-A2"]

/-- **With two `RESERVED` seats of one booking they can**: the sweep and the release wait for each other.
Source: migrations `100_fn_allocate_seat` (re-delivery guard), `20260418000000_split_release_hold`,
`130_fn_sweep_expired_holds`. Kind: P -/
theorem deadlocked : ∃ σ, Reach step Initial Always σ ∧ Waits σ 3 4 ∧ Waits σ 4 3 := by
  have hrun : (run step twoSeats crossing).map (fun σ => decide (Waits σ 3 4) && decide (Waits σ 4 3)) =
      some true := by decide +kernel
  obtain ⟨σ, hreach, hp⟩ := reach_of_run initial_twoSeats hrun
  simp only [Bool.and_eq_true, decide_eq_true_eq] at hp
  exact ⟨σ, hreach, hp⟩

end Store.RowByRow

end TrainsAndTracks
