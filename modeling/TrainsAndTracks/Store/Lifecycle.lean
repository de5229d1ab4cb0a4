import TrainsAndTracks.Found.Lifecycle
import TrainsAndTracks.Store.Outcomes

/-!
# The hold state machine

The documented machine is a diagram on `seats.status` with the `CHECK` that goes with it, and a diagram
on `bookings.status` that leaves `PENDING` once. `stepChecked` is the store with the `CHECK` evaluated
on every row an `UPDATE` writes.

* `SeatWrite.moves`, `SeatWrite.check` — whatever a call makes of a seat is one move of the diagram, with
  the version increased by one, and satisfies the `CHECK`.
* `BookingWrite.moves` — whatever a call makes of a booking is one move of its diagram.
* `store_lifecycle` — in every reachable store, for all calls and arguments.
-/

namespace TrainsAndTracks

open Found

/-! ## The diagrams -/

/-- The `CHECK` of `seats`. Source: migration `030_seats`. Kind: D. Fidelity: exact -/
def Seat.check (s : Seat) : Bool :=
  (s.status == .available && s.bookingId.isNone && s.heldUntil.isNone) ||
  (s.status == .reserved && s.bookingId.isSome && s.heldUntil.isSome) ||
  (s.status == .confirmed && s.bookingId.isSome && s.heldUntil.isNone)

/-- The state diagram of a seat. Source: `lib/allocation/hold-state-machine.ts` (header). Kind: D.
Fidelity: exact -/
inductive SeatStatus.Next : SeatStatus → SeatStatus → Prop
  /-- `allocate_seat` -/
  | allocate : Next available reserved
  /-- `confirm_booking` -/
  | confirm : Next reserved confirmed
  /-- `release_hold`, `sweep_expired_holds` -/
  | release : Next reserved available

/-- The state diagram of a booking. Source: migration `060_bookings`, `010_enums`. Kind: D -/
inductive BookingStatus.Next : BookingStatus → BookingStatus → Prop
  | confirm : Next pending confirmed
  | fail : Next pending failed
  | expire : Next pending expired

/-- One move of a seat: along the diagram, with the version increased by one. Source:
`lib/allocation/hold-state-machine.ts` (header), migration `030_seats` (`version`). Kind: D -/
structure Seat.Moves (s s' : Seat) : Prop where
  id : s'.id = s.id
  trainId : s'.trainId = s.trainId
  status : s.status.Next s'.status
  version : s'.version = s.version + 1

/-- One move of a booking: along the diagram; what the ingress wrote stays. Source: migration
`060_bookings`. Kind: D -/
structure Booking.Moves (r r' : Booking) : Prop where
  id : r'.id = r.id
  grows : Store.Grows r r'
  status : r.status.Next r'.status

/-- A `CONFIRMED` seat has no move left. Source: `lib/allocation/hold-state-machine.ts` (header).
Kind: L -/
theorem Seat.not_moves_of_confirmed {s : Seat} (h : s.status = .confirmed) (s' : Seat) :
    ¬ s.Moves s' := by
  intro hmoves
  have hnext := hmoves.status
  rw [h] at hnext
  cases hnext

/-- A booking that is not `PENDING` has no move left. Source: migration `060_bookings`. Kind: L -/
theorem Booking.not_moves_of_settled {r : Booking} (h : r.status ≠ .pending) (r' : Booking) :
    ¬ r.Moves r' := by
  intro hmoves
  have hnext := hmoves.status
  cases hst : r.status with
  | pending => exact h hst
  | confirmed | failed | expired =>
    rw [hst] at hnext
    cases hnext

namespace Store

/-! ## Every write is a move -/

section writes

variable {call : Call} {now : Time} {σ σ' : Store} {a : Action} {i : ℕ}

/-- What a call makes of a seat satisfies the `CHECK`. Source: migrations `030_seats`,
`100_fn_allocate_seat`, `110_fn_confirm_booking`, `130_fn_sweep_expired_holds`. Kind: L -/
theorem SeatWrite.check {s w : Seat} (h : SeatWrite call now s w) : w.check = true := by
  cases h with
  | reserve => rfl
  | confirm hcall hcond =>
    obtain ⟨-, hb, -⟩ := confirmSeatUpdate_cond_iff.mp hcond
    simp [Seat.check, confirmSeatUpdate, hb]
  | release => rfl
  | sweep => rfl

/-- What a call makes of a seat is one move of the diagram. Source: migrations
`100_fn_allocate_seat`, `110_fn_confirm_booking`, `20260418000000_split_release_hold`,
`130_fn_sweep_expired_holds`. Kind: L -/
theorem SeatWrite.moves {s w : Seat} (h : SeatWrite call now s w) : s.Moves w := by
  cases h with
  | reserve hcall hfree => exact ⟨rfl, rfl, by rw [hfree]; exact .allocate, rfl⟩
  | confirm hcall hcond =>
    obtain ⟨-, -, hlive⟩ := confirmSeatUpdate_cond_iff.mp hcond
    obtain ⟨hst, -⟩ := Seat.liveAt_iff.mp hlive
    exact ⟨rfl, rfl, by rw [hst]; exact .confirm, rfl⟩
  | release hcall hheld =>
    obtain ⟨hst, -⟩ := Seat.heldFor_iff.mp hheld
    exact ⟨rfl, rfl, by rw [hst]; exact .release, rfl⟩
  | sweep hcall hexp =>
    obtain ⟨hst, -⟩ := Seat.expiredAt_iff.mp hexp
    exact ⟨rfl, rfl, by rw [hst]; exact .release, rfl⟩

/-- What a call makes of a booking is one move of its diagram. Source: migrations
`110_fn_confirm_booking`, `20260418000000_split_release_hold`, `130_fn_sweep_expired_holds`,
`app/api/book/route.ts` (publish-failure branch). Kind: L -/
theorem BookingWrite.moves {r w : Booking} (h : BookingWrite call now r w) : r.Moves w := by
  have hp := h.pending
  have hg := h.grows
  cases h with
  | confirm => exact ⟨rfl, hg, by rw [hp]; exact .confirm⟩
  | fail => exact ⟨rfl, hg, by rw [hp]; exact .fail⟩
  | expire => exact ⟨rfl, hg, by rw [hp]; exact .expire⟩

/-- A step advances the seats along their diagram. Source: `lib/allocation/hold-state-machine.ts`
(header). Kind: L -/
theorem Stepped.seats_advance (hl : LocksOk σ) (hs : Stepped σ a σ') :
    Advances Seat.Moves σ.seats.committed σ'.seats.committed := by
  intro k s hold
  obtain ⟨s', hnew, rfl | ⟨_, _, _, -, -, -, -, hw⟩⟩ := seat_next hl hs hold
  · exact ⟨s', hnew, .refl⟩
  · exact ⟨s', hnew, .single hw.moves⟩

/-- A step advances the bookings along their diagram. Source: migration `060_bookings`. Kind: L -/
theorem Stepped.bookings_advance (hl : LocksOk σ) (hs : Stepped σ a σ') :
    Advances Booking.Moves σ.bookings.committed σ'.bookings.committed := by
  intro b r hold
  obtain ⟨r', hnew⟩ := hs.booking_stays hold
  rcases booking_change hl hs hold hnew with rfl | ⟨_, _, _, -, -, -, -, hw⟩
  · exact ⟨r', hnew, .refl⟩
  · exact ⟨r', hnew, .single hw.moves⟩

end writes

/-! ## The `CHECK` -/

/-- Every row the `UPDATE` writes satisfies the `CHECK` of `seats`. Source: migration `030_seats`.
Kind: D -/
def passesCheck (σ : Store) : Stmt → Bool
  | .update us _ _ => (σ.seats.committed.select us.cond).all fun s => (us.set s).check
  | _ => true

/-- One statement of execution `i`, which raises when a row violates the `CHECK`. Source: migration
`030_seats`. Kind: D. Fidelity: exact -/
def execChecked (σ : Store) (i : ℕ) (ch : Choice) : Option Store := do
  let e ← σ.execs[i]?
  let st ← σ.stmt i e.now ch e.call e.pc
  if σ.passesCheck st then σ.runStmt i st else some (σ.fail i)

/-- One step of the store with the `CHECK`. Source: migration `030_seats`. Kind: D -/
def stepChecked (σ : Store) : Action → Option Store
  | .exec i ch => σ.execChecked i ch
  | a => σ.step a

/-- The `CHECK` holds of the committed seats. Source: migration `030_seats`. Kind: D -/
def Checked (σ : Store) : Prop := ∀ s ∈ σ.seats.committed, s.check = true

section checked

variable {σ σ' : Store} {a : Action} {i : ℕ}

/-- No statement of a call writes a row that violates the `CHECK`. Source: migration `030_seats`.
Kind: L -/
theorem Runs.passesCheck {now : Time} {call : Call} {pc : Pc} {st : Stmt}
    (h : Runs σ i now call pc st) : σ.passesCheck st = true := by
  cases st with
  | update us ub next =>
    rw [Store.passesCheck, List.all_eq_true]
    intro s hs
    obtain ⟨hmem, hc⟩ := Table.mem_select.mp hs
    exact (h.seatWrite hmem hc).check
  | _ => rfl

/-- **The `CHECK` never raises.** Source: migration `030_seats`. Kind: L -/
theorem stepChecked_eq (σ : Store) (a : Action) : σ.stepChecked a = σ.step a := by
  cases a with
  | exec i ch =>
    show σ.execChecked i ch = σ.exec i ch
    unfold execChecked exec
    cases he : σ.execs[i]? with
    | none => rfl
    | some e =>
      cases hst : σ.stmt i e.now ch e.call e.pc with
      | none => simp [hst]
      | some st => simp [hst, (runs_of_stmt hst).passesCheck]
  | _ => rfl

/-- The `CHECK` holds of the free seats. Source: migration `910_seed_seats`. Kind: L -/
theorem Initial.checked (h : Initial σ) : Checked σ := by
  intro s hs
  obtain ⟨hst, hb, -, hu⟩ := h.seats_free s hs
  simp [Seat.check, hst, hb, hu]

/-- The `CHECK` holds after a step. Source: migration `030_seats`. Kind: L -/
theorem Checked.step (hl : LocksOk σ) (h : Checked σ) (hs : Stepped σ a σ') : Checked σ' := by
  intro s' hmem
  obtain ⟨s, hold, rfl | ⟨_, _, _, -, -, -, -, hw⟩⟩ := seat_old hl hs (Table.find?_of_mem hmem)
  · exact h s' (Table.mem_of_find? hold)
  · exact hw.check

end checked

/-! ## The store refines the documented machine -/

/-- What the documentation says of a store and of all its steps and runs. Source:
`lib/allocation/hold-state-machine.ts` (header), migrations `030_seats`, `060_bookings`. Kind: D -/
structure Lifecycle (σ : Store) : Prop where
  /-- The `CHECK` of `seats` holds, -/
  checked : Checked σ
  /-- and no statement of any call raises because of it. -/
  never_raises : ∀ a, σ.stepChecked a = σ.step a
  /-- A step leaves a seat alone or makes one move of it. -/
  seats : ∀ a σ', σ.step a = some σ' → Advances Seat.Moves σ.seats.committed σ'.seats.committed
  /-- A step leaves a booking alone or makes one move of it. -/
  bookings : ∀ a σ', σ.step a = some σ' →
    Advances Booking.Moves σ.bookings.committed σ'.bookings.committed
  /-- The seats and bookings there are change in the one commit of a call. -/
  one_commit : ∀ a σ', σ.step a = some σ' → (∀ i, a ≠ .commit i) →
    σ'.seats.committed = σ.seats.committed ∧
      ∀ b r, σ.bookings.committed.find? b = some r → σ'.bookings.committed.find? b = some r
  /-- A call does not commit again. -/
  commits_once : ∀ i σ' σ'', σ.step (.commit i) = some σ' → Steps step Always σ' σ'' →
    σ''.step (.commit i) = none
  /-- A `CONFIRMED` seat never changes again. -/
  confirmed_final : ∀ σ', Steps step Always σ σ' → ∀ k s, σ.seats.committed.find? k = some s →
    s.status = .confirmed → σ'.seats.committed.find? k = some s
  /-- A booking that is not `PENDING` never changes again. -/
  settled_final : ∀ σ', Steps step Always σ σ' → ∀ b r, σ.bookings.committed.find? b = some r →
    r.status ≠ .pending → σ'.bookings.committed.find? b = some r

section lifecycle

variable {σ σ' : Store} {a : Action} {i : ℕ}

/-- Committed rows change in commits only. Source: none: infrastructure. Kind: L -/
theorem Stepped.rows_kept (hs : Stepped σ a σ') (ha : ∀ i, a ≠ .commit i) :
    σ'.seats.committed = σ.seats.committed ∧
      ∀ b r, σ.bookings.committed.find? b = some r → σ'.bookings.committed.find? b = some r := by
  constructor
  · rcases hs.seats_committed with heq | ⟨i, -, -, rfl, -⟩
    · exact heq
    · exact absurd rfl (ha i)
  · intro b r hr
    rcases hs.bookings_committed with heq | ⟨i, -, -, rfl, -⟩ |
      ⟨_, _, _, _, _, hfresh, -, -, -, -, -, heq⟩
    · rw [heq, hr]
    · exact absurd rfl (ha i)
    · rw [heq]
      exact Table.find?_insert_of_some (h := hfresh) hr

/-- A call that has committed does not commit again. Source: none: infrastructure. Kind: L -/
theorem commit_none_of_done {e : Exec} {r : Reply} (he : σ.execs[i]? = some e)
    (hpc : e.pc = .done r) : σ.step (.commit i) = none := by
  obtain ⟨call, client, now, pc⟩ := e
  obtain rfl : pc = .done r := hpc
  simp [step, commit, he]

/-- A call does not commit twice in a run. Source: none: infrastructure. Kind: L -/
theorem commits_once {σ'' : Store} (h : σ.step (.commit i) = some σ')
    (hrun : Steps step Always σ' σ'') : σ''.step (.commit i) = none := by
  have hdone : ∃ e r, σ'.execs[i]? = some e ∧ e.pc = .done r := by
    have hs := step_cases h
    cases hs with
    | @commit i e r he hpc =>
      exact ⟨{ e with pc := .done r }, r, by simp [he], rfl⟩
  have hdone' : ∃ e r, σ''.execs[i]? = some e ∧ e.pc = .done r := by
    refine Steps.invariant (P := fun τ => ∃ e r, τ.execs[i]? = some e ∧ e.pc = .done r) ?_ hrun hdone
    rintro τ b τ' ⟨e, r, he, hpc⟩ - hstep
    exact ⟨e, r, (step_cases hstep).done_stays he hpc, hpc⟩
  obtain ⟨e, r, he, hpc⟩ := hdone'
  exact commit_none_of_done he hpc

/-- The seats evolve along their diagram. Source: `lib/allocation/hold-state-machine.ts` (header).
Kind: L -/
theorem seats_evolve (h : Inv σ) (hrun : Steps step Always σ σ') :
    Evolves Seat.Moves σ.seats.committed σ'.seats.committed := by
  refine evolves_of_steps (P := Inv) (fun σ : Store => σ.seats.committed) ?_ hrun h
  intro τ a τ' hinv _ hstep
  have hs := step_cases hstep
  exact ⟨hinv.step hs, hs.seats_advance hinv.locks⟩

/-- The bookings evolve along their diagram. Source: migration `060_bookings`. Kind: L -/
theorem bookings_evolve (h : Inv σ) (hrun : Steps step Always σ σ') :
    Evolves Booking.Moves σ.bookings.committed σ'.bookings.committed := by
  refine evolves_of_steps (P := Inv) (fun σ : Store => σ.bookings.committed) ?_ hrun h
  intro τ a τ' hinv _ hstep
  have hs := step_cases hstep
  exact ⟨hinv.step hs, hs.bookings_advance hinv.locks⟩

/-- **The store refines the hold state machine.** In every reachable store, for all calls with all
arguments in any interleaving. Source: `lib/allocation/hold-state-machine.ts` (header), migrations
`030_seats`, `060_bookings`. Kind: P -/
theorem store_lifecycle (h : Reach step Initial Always σ) : Lifecycle σ := by
  have hinv := inv_of_reach h
  refine
    { checked := ?_
      never_raises := stepChecked_eq σ
      seats := fun a σ' hstep => (step_cases hstep).seats_advance hinv.locks
      bookings := fun a σ' hstep => (step_cases hstep).bookings_advance hinv.locks
      one_commit := fun a σ' hstep ha => (step_cases hstep).rows_kept ha
      commits_once := fun i σ' σ'' hstep hrun => commits_once hstep hrun
      confirmed_final := ?_
      settled_final := ?_ }
  · exact h.invariant (P := Checked) (fun _ hinit => hinit.checked)
      fun _ _ _ hreach hP _ hstep => hP.step (inv_of_reach hreach).locks (step_cases hstep)
  · intro σ' hrun k s hs hst
    exact (seats_evolve hinv hrun).final hs (Seat.not_moves_of_confirmed hst)
  · intro σ' hrun b r hr hst
    exact (bookings_evolve hinv hrun).final hr (Booking.not_moves_of_settled hst)

end lifecycle

/-- It holds after a booking has been confirmed. Source: none: infrastructure. Kind: L -/
theorem store_lifecycle_ticketing : ∃ σ : Store, hasConfirmed σ = true ∧ Lifecycle σ := by
  have hrun : (run step twoSeats ticketing).map hasConfirmed = some true := by decide +kernel
  obtain ⟨σ, hreach, hseat⟩ := reach_of_run initial_twoSeats hrun
  exact ⟨σ, hseat, store_lifecycle hreach⟩

end Store

end TrainsAndTracks
