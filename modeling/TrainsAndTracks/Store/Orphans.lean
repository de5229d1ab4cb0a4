import TrainsAndTracks.Store.Outcomes

/-!
# Orphaned seats

`confirm_booking` reads the booking's status without locking the row, updates the seat, and then
updates the booking under a guard. When another transaction has settled the booking in between, the
last `UPDATE` matches no row, the function returns no row, and the seat `UPDATE` is committed all the
same: a `CONFIRMED` seat of a booking that is not `CONFIRMED`.

* `orphaned_seat` — a schedule of one release and one confirmation that leaves such a seat.
* `confirmed_seats_backed` — in every run in which each `confirm_booking` finds the booking `PENDING`
  at its last statement, every `CONFIRMED` seat is the seat of its `CONFIRMED` booking.
-/

namespace TrainsAndTracks

open Found

namespace Store

/-- Every `CONFIRMED` seat is the seat of its `CONFIRMED` booking.
Source: `scripts/cloud-gate.ts` (seat-inventory reconciliation). Kind: D -/
def SeatsBacked (σ : Store) : Prop :=
  ∀ s ∈ σ.seats.committed, s.status = .confirmed →
    ∃ b r, s.bookingId = some b ∧ σ.bookings.committed.find? b = some r ∧ r.status = .confirmed ∧
      r.seatId = some s.id

/-- No booking owns two `CONFIRMED` seats. Source: `scripts/cloud-gate.ts` (seat-inventory
reconciliation). Kind: D -/
def OneConfirmedSeat (σ : Store) : Prop :=
  ∀ s ∈ σ.seats.committed, ∀ s' ∈ σ.seats.committed, s.status = .confirmed →
    s'.status = .confirmed → s.bookingId = s'.bookingId → s = s'

/-- The booking that execution `i` is about to update in `confirm_booking`, after the seat.
Source: migration `110_fn_confirm_booking` (statement 3). Kind: D -/
def confirming (σ : Store) (i : ℕ) : Option BookingId :=
  match σ.execs[i]? with
  | some ⟨.confirmBooking b _ _, _, _, .confirmRow⟩ => some b
  | _ => none

/-- A step that is not the last statement of a `confirm_booking` whose booking is settled.
Source: migration `110_fn_confirm_booking` (statement 3). Kind: D -/
def RowFound (σ : Store) : Action → Prop
  | .exec i _ => ∀ b ∈ σ.confirming i,
    ((σ.bookings.committed.find? b).any fun r => r.status == .pending) = true
  | _ => True

instance (σ : Store) (a : Action) : Decidable (RowFound σ a) :=
  match a with
  | .exec i _ => inferInstanceAs (Decidable (∀ b ∈ σ.confirming i,
    ((σ.bookings.committed.find? b).any fun r => r.status == .pending) = true))
  | .begin .. | .start _ | .commit _ | .abort _ | .tick _ => .isTrue trivial

/-! ## The failing schedule -/

/-- Booking 1 is created, paid and held; a terminal release has already released the (then absent)
seats and is about to fail the booking. Source: none: infrastructure. Kind: D -/
def beforeConfirm : List Action :=
  oneCall 0 (.createBooking ⟨"k", "12951", "Asha", none, 126000⟩) 1 ++
  oneCall 1 (.charge 126000 "k") 2 ++
  [.begin (.releaseHoldTerminal 1 "retries_exhausted") 2, .start 2, .exec 2 usualChoice,
    .exec 2 usualChoice] ++
  oneCall 3 (.allocateSeat "12951" 1 "Asha" 300) 2

/-- The confirmation updates the seat, the release fails the booking and commits, and the
confirmation finds no row and commits. Source: none: infrastructure. Kind: D -/
def orphaning : List Action :=
  beforeConfirm ++
  [.begin (.confirmBooking 1 "12951-A1" 1) 4, .start 4, .exec 4 usualChoice, .exec 4 usualChoice] ++
  [.exec 2 usualChoice, .commit 2] ++ [.exec 4 usualChoice, .commit 4]

/-- Some seat is `CONFIRMED` for a booking that is `FAILED`. Source: none: infrastructure.
Kind: D -/
def hasOrphan (σ : Store) : Bool :=
  σ.seats.committed.rows.any fun s => s.status == .confirmed && s.bookingId.any fun b =>
    (σ.bookings.committed.find? b).any fun r => r.status == .failed

/-- An orphan contradicts `SeatsBacked`. Source: none: infrastructure. Kind: L -/
theorem not_seatsBacked_of_hasOrphan {σ : Store} (h : hasOrphan σ = true) : ¬ SeatsBacked σ := by
  intro hbacked
  simp only [hasOrphan, List.any_eq_true, Bool.and_eq_true, beq_iff_eq, Option.any_eq_true] at h
  obtain ⟨s, hs, hst, b, hb, r, hr, hfailed⟩ := h
  obtain ⟨b', r', hb', hr', hconfirmed, -⟩ := hbacked s hs hst
  obtain rfl := Option.eq_some_unique hb hb'
  obtain rfl := Option.eq_some_unique hr hr'
  rw [hfailed] at hconfirmed
  cases hconfirmed

/-- **The guard on the last statement leaves the seat behind.** Some reachable store has a `CONFIRMED`
seat whose booking is `FAILED`. Source: migration `110_fn_confirm_booking`. Kind: P -/
theorem orphaned_seat : ¬ ∀ σ, Reach step Initial Always σ → SeatsBacked σ := by
  intro h
  have hrun : (run step twoSeats orphaning).map hasOrphan = some true := by decide +kernel
  obtain ⟨σ, hreach, horphan⟩ := reach_of_run initial_twoSeats hrun
  exact not_seatsBacked_of_hasOrphan horphan (h σ hreach)

/-! ## When the last statement finds its row -/

section backed

variable {σ σ' : Store} {a : Action}

/-- Every `confirm_booking` that has returned with a seat version has its booking version too.
Source: migration `110_fn_confirm_booking`. Kind: D -/
def Paired (σ : Store) : Prop :=
  ∀ (i : ℕ) (e : Exec), σ.execs[i]? = some e → ∀ b seat payment reply,
    e.call = .confirmBooking b seat payment → e.pc = .ret reply →
    ∀ k w, σ.seats.lock k = some (i, w) → ∃ w', σ.bookings.lock b = some (i, w')

/-- A step that finds its row keeps the versions paired. Source: migration
`110_fn_confirm_booking`. Kind: L -/
theorem Paired.step (hinv : Inv σ) (h : Paired σ) (hs : Stepped σ a σ') (hC : RowFound σ a) :
    Paired σ' := by
  have hl := hinv.locks
  have hl' := hl.step hs
  refine hs.forall_execs (P := fun σ i e => ∀ b seat payment reply,
    e.call = .confirmBooking b seat payment → e.pc = .ret reply →
    ∀ k w, σ.seats.lock k = some (i, w) → ∃ w', σ.bookings.lock b = some (i, w'))
    (fun i e he => h i e he) ?_ ?_ ?_ ?_ ?_ ?_
  · intro i e ha he hP b seat payment reply hcall hpc k w hlock
    obtain ⟨w', hw'⟩ := hP b seat payment reply hcall hpc k w ((hs.seat_lock_iff ha).mp hlock)
    exact ⟨w', (hs.booking_lock_iff ha).mpr hw'⟩
  · intro i e he hpc b seat payment reply hcall hret
    exact absurd (.inl hret) (not_returned hpc reply)
  · intro i e next ch ha he hP hr b seat payment reply hcall hret k w hlock
    have hfree : locking e.pc = false → σ.seats.lock k ≠ some (i, w) :=
      fun hpc => hl.no_seat_lock he hpc k w
    obtain ⟨call, client, now, pc⟩ := e
    cases hcall
    cases hr with
    | confirmSettled | holdLost => exact absurd hlock (hfree rfl)
    | rowLost hno =>
      subst ha
      have hfound := hC b (by simp [confirming, he])
      obtain ⟨r, hr, hst⟩ := (Option.any_eq_true _ _).mp hfound
      have hid : r.id = b := Table.key_of_find? hr
      have hc := hno r (Table.mem_of_find? hr)
      rw [confirmRowUpdate_cond_iff.mpr ⟨hid, beq_iff_eq.mp hst⟩] at hc
      cases hc
    | confirmOpen => cases hret
    | releaseSnapshot hrel => cases hrel
  · intro i e us ub next seats bookings ch ha he hP hr hseats hbookings b seat payment reply hcall
      hret k w hlock
    obtain ⟨call, client, now, pc⟩ := e
    cases hcall
    cases hr with
    | @confirmRow _ _ _ r hr hcond =>
      have hid : r.id = b := (confirmRowUpdate_cond_iff.mp hcond).1
      have hfind : σ.bookings.committed.find? b = some r := hid ▸ Table.find?_of_mem hr
      exact ⟨_, Versioned.lock_update_of_cond hbookings hfind hcond⟩
    | confirmSeat => cases hret
    | releaseSeatsOnly hrel | releaseSeatsThenRow hrel | releaseRow hrel => cases hrel
  · intro i e r he hP hpc _ _ _ b seat payment reply hcall hret
    cases hret
  · intro i e st he hP hr hst _ hseats _ _ b seat payment reply hcall hret k w hlock
    rw [hseats] at hlock
    exact absurd hlock (hl.no_seat_lock he (hr.not_locking hst) k w)

/-- `CONFIRMED` is written by `confirm_booking` alone, for the booking the hold is of.
Source: migration `110_fn_confirm_booking`. Kind: L -/
theorem SeatWrite.of_confirmed {call : Call} {now : Time} {s w : Seat} (h : SeatWrite call now s w)
    (hw : w.status = .confirmed) : ∃ b payment, call = .confirmBooking b s.id payment ∧
      w.id = s.id ∧ w.bookingId = some b := by
  cases h with
  | @confirm b seat payment hcall hcond =>
    obtain ⟨hid, hb, -⟩ := confirmSeatUpdate_cond_iff.mp hcond
    exact ⟨b, payment, by rw [hcall, hid], rfl, hb⟩
  | reserve | release | sweep => cases hw

/-- A step that keeps the versions paired keeps the seats backed. Source: migration
`110_fn_confirm_booking`. Kind: L -/
theorem SeatsBacked.step (hinv : Inv σ) (hpaired : Paired σ) (h : SeatsBacked σ)
    (hs : Stepped σ a σ') : SeatsBacked σ' := by
  have hl := hinv.locks
  intro s' hs' hst
  obtain ⟨s, hold, rfl | ⟨i, e, reply, rfl, he, hpc, hlock, hw⟩⟩ :=
    seat_old hl hs (Table.find?_of_mem hs')
  · obtain ⟨b, r, hb, hr, hconfirmed, hseat⟩ := h s' (Table.mem_of_find? hold) hst
    exact ⟨b, r, hb, (hs.le hl).settled hr (by rw [hconfirmed]; simp), hconfirmed, hseat⟩
  · obtain ⟨b, payment, hcall, hid, hb⟩ := hw.of_confirmed hst
    obtain ⟨w', hlock'⟩ := hpaired i e he b s.id payment reply hcall hpc _ _ hlock
    obtain ⟨r, hr, hwrite⟩ := hl.booking_write he hlock'
    rw [hcall] at hwrite
    obtain ⟨hconfirmed, hseat, -⟩ := hwrite.of_confirmBooking
    refine ⟨b, w', hb, ?_, hconfirmed, by rw [hseat, hid]⟩
    cases hs with
    | commit => exact Versioned.find?_commit_of_own hr hlock'

/-- Backed seats are one a booking. Source: `scripts/cloud-gate.ts` (seat-inventory reconciliation).
Kind: L -/
theorem SeatsBacked.oneConfirmedSeat (h : SeatsBacked σ) : OneConfirmedSeat σ := by
  intro s hs s' hs' hst hst' hsame
  obtain ⟨b, r, hb, hr, -, hseat⟩ := h s hs hst
  obtain ⟨b', r', hb', hr', -, hseat'⟩ := h s' hs' hst'
  rw [hsame, hb'] at hb
  cases hb
  obtain rfl := Option.eq_some_unique hr hr'
  rw [hseat] at hseat'
  exact Table.eq_of_key_eq hs hs' (Option.some.inj hseat')

/-- **No orphans when the last statement finds its row.** In every run in which each `confirm_booking`
finds its booking `PENDING` at its last statement, every `CONFIRMED` seat is the seat of its
`CONFIRMED` booking, and no booking owns two. Source: migration `110_fn_confirm_booking`. Kind: P -/
theorem confirmed_seats_backed (h : Reach step Initial RowFound σ) :
    SeatsBacked σ ∧ OneConfirmedSeat σ := by
  have key : Paired σ ∧ SeatsBacked σ := by
    refine h.invariant (P := fun σ => Paired σ ∧ SeatsBacked σ) (fun σ hinit => ?_)
      fun σ a σ' hreach hP hC hstep => ?_
    · refine ⟨fun i e he => absurd he hinit.no_exec, fun s hs hst => ?_⟩
      rw [(hinit.seats_free s hs).1] at hst
      cases hst
    · have hs := step_cases hstep
      have hinv := inv_of_reach hreach
      exact ⟨hP.1.step hinv hs hC, hP.2.step hinv hP.1 hs⟩
  exact ⟨key.2, key.2.oneConfirmedSeat⟩

end backed

/-- The undisturbed schedule ends with a backed `CONFIRMED` seat. Source: none: infrastructure.
Kind: L -/
theorem ticketing_backed : ∃ σ : Store, SeatsBacked σ ∧ OneConfirmedSeat σ ∧
    ∃ s ∈ σ.seats.committed, s.status = .confirmed := by
  have hrun : (run (guarded step RowFound) twoSeats ticketing).map
      (fun σ => σ.seats.committed.rows.any fun s => s.status == .confirmed) = some true := by
    decide +kernel
  obtain ⟨σ, hreach, hseat⟩ := reach_of_guarded initial_twoSeats hrun
  obtain ⟨hbacked, hone⟩ := confirmed_seats_backed hreach
  obtain ⟨s, hs, hst⟩ := List.any_eq_true.mp hseat
  exact ⟨σ, hbacked, hone, s, hs, beq_iff_eq.mp hst⟩

end Store

end TrainsAndTracks
