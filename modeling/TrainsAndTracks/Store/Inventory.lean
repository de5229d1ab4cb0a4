import TrainsAndTracks.Store.Lifecycle

/-!
# Live holds and their bookings

A booking ends in one transaction and its seats are held in others. `allocate_seat` does not look at the
status of the booking it holds a seat for, the publish-failure `UPDATE` does not look at the seats, a
terminal release frees the seats its snapshot has matched, and the sweeper ends a booking for one expired
seat whatever else it holds.

* `HoldsOpen` — every live hold is a hold of a `PENDING` booking.
* `LeavesOpen` — the commits that keep it: a hold that is published is for a booking that is still
  `PENDING`, and a booking that is ended has no live hold but those the same transaction writes.
* `holdsOpen_step_iff` — these are exactly the steps that keep it.
-/

namespace TrainsAndTracks

open Found

namespace Store

/-- Every live hold is a hold of a `PENDING` booking. Source: migrations `100_fn_allocate_seat`,
`20260418000000_split_release_hold`. Kind: D -/
def HoldsOpen (σ : Store) : Prop :=
  ∀ s ∈ σ.seats.committed, s.liveAt σ.now = true →
    ∃ b r, s.bookingId = some b ∧ σ.bookings.committed.find? b = some r ∧ r.status = .pending

/-- The step publishes a live hold for a `PENDING` booking only, and ends a booking without a live hold
only, the seats of the same transaction apart. Source: migrations `100_fn_allocate_seat`,
`110_fn_confirm_booking`, `20260418000000_split_release_hold`, `130_fn_sweep_expired_holds`,
`app/api/book/route.ts` (publish-failure branch). Kind: D -/
def LeavesOpen (σ : Store) : Action → Prop
  | .commit i =>
    (∀ s ∈ σ.seats.committed.rows, ∀ own ∈ σ.seats.lock s.id, own.1 = i →
      own.2.liveAt σ.now = true → ∀ b ∈ own.2.bookingId,
        ((σ.bookings.committed.find? b).any fun r => r.status == .pending) = true) ∧
    ∀ r ∈ σ.bookings.committed.rows, ∀ own ∈ σ.bookings.lock r.id, own.1 = i →
      ∀ s ∈ σ.seats.committed.rows, s.bookingId = some r.id → s.liveAt σ.now = true →
        ((σ.seats.lock s.id).any fun own => own.1 == i) = true
  | _ => True

instance (σ : Store) (a : Action) : Decidable (LeavesOpen σ a) :=
  match a with
  | .commit i => inferInstanceAs (Decidable (
    (∀ s ∈ σ.seats.committed.rows, ∀ own ∈ σ.seats.lock s.id, own.1 = i →
      own.2.liveAt σ.now = true → ∀ b ∈ own.2.bookingId,
        ((σ.bookings.committed.find? b).any fun r => r.status == .pending) = true) ∧
    ∀ r ∈ σ.bookings.committed.rows, ∀ own ∈ σ.bookings.lock r.id, own.1 = i →
      ∀ s ∈ σ.seats.committed.rows, s.bookingId = some r.id → s.liveAt σ.now = true →
        ((σ.seats.lock s.id).any fun own => own.1 == i) = true))
  | .begin .. | .start _ | .exec .. | .abort _ | .tick _ => .isTrue trivial

section inventory

variable {σ σ' : Store} {a : Action} {i : ℕ}

/-- A hold that is live later is live now. Source: migration `100_fn_allocate_seat` (re-delivery guard).
Kind: L -/
theorem liveAt_of_le {s : Seat} {now now' : Time} (hle : now ≤ now') (h : s.liveAt now' = true) :
    s.liveAt now = true := by
  obtain ⟨hst, t, ht, hlt⟩ := Seat.liveAt_iff.mp h
  exact Seat.liveAt_iff.mpr ⟨hst, t, ht, hle.trans_lt hlt⟩

/-- A live version of a seat is an allocation. Source: migration `100_fn_allocate_seat`, statement 2.
Kind: L -/
theorem SeatWrite.of_live {call : Call} {now now' : Time} {s w : Seat} (h : SeatWrite call now s w)
    (hlive : w.liveAt now' = true) :
    ∃ train b passenger hold, call = .allocateSeat train b passenger hold ∧ w.bookingId = some b := by
  obtain ⟨hst, -⟩ := Seat.liveAt_iff.mp hlive
  cases h with
  | reserve hcall => exact ⟨_, _, _, _, hcall, rfl⟩
  | confirm => cases hst
  | release => cases hst
  | sweep => cases hst

/-- An allocation writes no booking. Source: migration `100_fn_allocate_seat`. Kind: L -/
theorem BookingWrite.not_allocateSeat {train : TrainId} {b : BookingId} {passenger : String} {hold : ℕ}
    {now : Time} {r w : Booking} :
    ¬ BookingWrite (.allocateSeat train b passenger hold) now r w := by
  intro h
  cases h with
  | confirm hcall => cases hcall
  | fail hcall => cases hcall
  | expire hcall => cases hcall

/-- Only a commit can take `HoldsOpen` away. Source: none: infrastructure. Kind: L -/
theorem HoldsOpen.of_not_commit (hl : LocksOk σ) (h : HoldsOpen σ) (hs : Stepped σ a σ')
    (ha : ∀ i, a ≠ .commit i) : HoldsOpen σ' := by
  obtain ⟨hseats, hbookings⟩ := hs.rows_kept ha
  intro s hmem hlive
  rw [hseats] at hmem
  obtain ⟨b, r, hb, hr, hst⟩ := h s hmem (liveAt_of_le (hs.le hl).now hlive)
  exact ⟨b, r, hb, hbookings b r hr, hst⟩

/-- A commit that leaves the holds open. Source: migrations `100_fn_allocate_seat`,
`20260418000000_split_release_hold`. Kind: L -/
theorem HoldsOpen.commit (hl : LocksOk σ) (h : HoldsOpen σ) (hs : Stepped σ (.commit i) σ')
    (hC : LeavesOpen σ (.commit i)) : HoldsOpen σ' := by
  obtain ⟨hseats, hbookings, hnow, e, reply, he, hpc⟩ := hs.of_commit
  intro s hmem hlive
  rw [hnow] at hlive
  have hs' := Table.find?_of_mem hmem
  rw [hseats] at hs'
  rw [hbookings]
  rcases Versioned.find?_commit_cases hs' with ⟨hlock, s₀, hs₀⟩ | ⟨hold, hno⟩
  · -- a hold that this commit publishes
    obtain ⟨s₁, hs₁, hw⟩ := hl.seat_write he hlock
    obtain ⟨train, b, passenger, hold, hcall, hb⟩ := hw.of_live hlive
    have hid : s₀.id = s.id := Table.key_of_find? hs₀
    have hpending := hC.1 s₀ (Table.mem_of_find? hs₀) (i, s) (by rw [hid]; exact hlock) rfl hlive b hb
    obtain ⟨r, hr, hst⟩ := (Option.any_eq_true _ _).mp hpending
    refine ⟨b, r, hb, ?_, by simpa using hst⟩
    rw [Versioned.find?_commit_of_not_own, hr]
    intro w hw'
    obtain ⟨r₁, -, hwrite⟩ := hl.booking_write he hw'
    rw [hcall] at hwrite
    exact BookingWrite.not_allocateSeat hwrite
  · -- a hold that was there
    obtain ⟨b, r, hb, hr, hst⟩ := h s (Table.mem_of_find? hold) hlive
    refine ⟨b, r, hb, ?_, hst⟩
    rw [Versioned.find?_commit_of_not_own, hr]
    intro w hw
    have hid : r.id = b := Table.key_of_find? hr
    have hown := hC.2 r (Table.mem_of_find? hr) (i, w) (by rw [hid]; exact hw) rfl s
      (Table.mem_of_find? hold) (by rw [hid]; exact hb) hlive
    obtain ⟨⟨j, w'⟩, hlock, hj⟩ := (Option.any_eq_true _ _).mp hown
    obtain rfl : j = i := by simpa using hj
    exact hno w' hlock

/-- A commit after which the holds are open leaves them open. Source: migrations
`100_fn_allocate_seat`, `20260418000000_split_release_hold`. Kind: L -/
theorem leavesOpen_of_commit (hl : LocksOk σ) (hs : Stepped σ (.commit i) σ') (h : HoldsOpen σ') :
    LeavesOpen σ (.commit i) := by
  obtain ⟨hseats, hbookings, hnow, e, reply, he, hpc⟩ := hs.of_commit
  constructor
  · rintro s₀ hs₀ ⟨j, w⟩ hlock rfl hlive b hb
    have hw : σ'.seats.committed.find? s₀.id = some w := by
      rw [hseats]
      exact Versioned.find?_commit_of_own (Table.find?_of_mem hs₀) hlock
    obtain ⟨b', r', hb', hr', hst⟩ := h w (Table.mem_of_find? hw) (by rw [hnow]; exact hlive)
    obtain rfl := Option.eq_some_unique hb hb'
    obtain ⟨r, hr⟩ : ∃ r, σ.bookings.committed.find? b = some r := by
      rw [hbookings, Versioned.find?_commit, Option.map_eq_some_iff] at hr'
      obtain ⟨r, hr, -⟩ := hr'
      exact ⟨r, hr⟩
    refine (Option.any_eq_true _ _).mpr ⟨r, hr, ?_⟩
    rcases booking_change hl hs hr hr' with rfl | ⟨_, _, _, -, -, -, -, hw⟩
    · simpa using hst
    · exact absurd hst hw.settles
  · rintro r hr ⟨j, w⟩ hlock rfl s hs₀ hb hlive
    by_contra hno
    have hseat : σ'.seats.committed.find? s.id = some s := by
      rw [hseats, Versioned.find?_commit_of_not_own]
      · exact Table.find?_of_mem hs₀
      · intro w' hw'
        apply hno
        rw [hw']
        simp
    obtain ⟨b', r', hb', hr', hst⟩ := h s (Table.mem_of_find? hseat) (by rw [hnow]; exact hlive)
    obtain rfl := Option.eq_some_unique hb hb'
    have hw : σ'.bookings.committed.find? r.id = some w := by
      rw [hbookings]
      exact Versioned.find?_commit_of_own (Table.find?_of_mem hr) hlock
    obtain rfl := Option.eq_some_unique hr' hw
    obtain ⟨_, -, hwrite⟩ := hl.booking_write he hlock
    exact hwrite.settles hst

/-- **The steps that keep the holds open** are exactly those that leave them open. Source: migrations
`100_fn_allocate_seat`, `20260418000000_split_release_hold`, `130_fn_sweep_expired_holds`. Kind: L -/
theorem holdsOpen_step_iff (hl : LocksOk σ) (h : HoldsOpen σ) (hs : Stepped σ a σ') :
    HoldsOpen σ' ↔ LeavesOpen σ a := by
  by_cases ha : ∃ i, a = .commit i
  · obtain ⟨i, rfl⟩ := ha
    exact ⟨leavesOpen_of_commit hl hs, h.commit hl hs⟩
  · have ha' : ∀ i, a ≠ .commit i := fun i hi => ha ⟨i, hi⟩
    refine iff_of_true (h.of_not_commit hl hs ha') ?_
    cases a with
    | commit i => exact absurd rfl (ha' i)
    | begin | start | exec | abort | tick => trivial

/-- No seat is held at first. Source: migration `910_seed_seats`. Kind: L -/
theorem Initial.holdsOpen (h : Initial σ) : HoldsOpen σ := by
  intro s hs hlive
  obtain ⟨hst, -⟩ := Seat.liveAt_iff.mp hlive
  rw [(h.seats_free s hs).1] at hst
  cases hst

/-- The holds stay open along the runs that leave them open. Source: migrations
`100_fn_allocate_seat`, `20260418000000_split_release_hold`. Kind: L -/
theorem holdsOpen_of_reach (h : Reach step Initial LeavesOpen σ) : HoldsOpen σ :=
  h.invariant (P := HoldsOpen) (fun _ hinit => hinit.holdsOpen)
    fun _ _ _ hreach hP hC hstep =>
      (holdsOpen_step_iff (inv_of_reach hreach).locks hP (step_cases hstep)).mpr hC

end inventory

end Store

end TrainsAndTracks
