import TrainsAndTracks.Store.Outcomes

/-!
# One seat a booking

`allocate_seat` takes a new seat when its guard finds no live hold of the booking. The guard does not
see a hold that has expired and was not swept, a `CONFIRMED` seat, or a seat another allocation of the
same booking is about to take. `GuardSees` is the condition that none of these is there when the guard
runs; in a run that meets it a booking is named by at most one seat (`one_seat_of_guardSees`).

The invariant counts claims: a seat claims a booking when it names it or has an open version that
does, an execution when its guard has missed and it is about to take a seat. `OneClaim` says that a
booking has at most one claim of either kind.
-/

namespace TrainsAndTracks

open Found

namespace Store

/-- No two seats name one booking. Source: migration `100_fn_allocate_seat` (re-delivery guard).
Kind: D -/
def OneSeat (σ : Store) : Prop :=
  ∀ s ∈ σ.seats.committed, ∀ s' ∈ σ.seats.committed, ∀ b,
    s.bookingId = some b → s'.bookingId = some b → s = s'

/-- The booking whose hold execution `i` is about to look for, and the time it compares with.
Source: migration `100_fn_allocate_seat` (re-delivery guard). Kind: D -/
def guarding (σ : Store) (i : ℕ) : Option (BookingId × Time) :=
  match σ.execs[i]? with
  | some ⟨.allocateSeat _ b _ _, _, now, .start⟩ => some (b, now)
  | _ => none

/-- The execution has missed a hold of `b` and is about to take a seat. Source: migration
`100_fn_allocate_seat` (statement 2). Kind: D -/
def picking (b : BookingId) (e : Exec) : Bool :=
  match e with
  | ⟨.allocateSeat _ b' _ _, _, _, .allocatePick⟩ => b' == b
  | _ => false

/-- A step that is not the guard of an `allocate_seat` with, for its booking, a seat that is not a
live hold, or another allocation under way. Source: migration `100_fn_allocate_seat` (re-delivery
guard). Kind: D -/
def GuardSees (σ : Store) : Action → Prop
  | .exec i _ => ∀ x ∈ σ.guarding i,
    (∀ s ∈ σ.seats.committed.rows, s.bookingId = some x.1 → s.liveAt x.2 = true) ∧
    (∀ e ∈ σ.execs, picking x.1 e = false) ∧
    ∀ s ∈ σ.seats.committed.rows, ∀ own ∈ σ.seats.lock s.id,
      own.2.bookingId = some x.1 → s.bookingId = some x.1
  | _ => True

instance (σ : Store) (a : Action) : Decidable (GuardSees σ a) :=
  match a with
  | .exec i _ => inferInstanceAs (Decidable (∀ x ∈ σ.guarding i,
    (∀ s ∈ σ.seats.committed.rows, s.bookingId = some x.1 → s.liveAt x.2 = true) ∧
    (∀ e ∈ σ.execs, picking x.1 e = false) ∧
    ∀ s ∈ σ.seats.committed.rows, ∀ own ∈ σ.seats.lock s.id,
      own.2.bookingId = some x.1 → s.bookingId = some x.1))
  | .begin .. | .start _ | .commit _ | .abort _ | .tick _ => .isTrue trivial

/-- What may claim a booking. Source: none: infrastructure. Kind: D -/
inductive Claimant
  | seat (k : SeatId)
  | exec (i : ℕ)

/-- The claims to booking `b`. Source: migration `100_fn_allocate_seat`. Kind: D -/
inductive Claims (σ : Store) (b : BookingId) : Claimant → Prop
  | names {k s} (hs : σ.seats.committed.find? k = some s) (hb : s.bookingId = some b) :
      Claims σ b (.seat k)
  | opens {k i w} (hw : σ.seats.lock k = some (i, w)) (hb : w.bookingId = some b) :
      Claims σ b (.seat k)
  | picks {i e} (he : σ.execs[i]? = some e) (hpick : picking b e = true) : Claims σ b (.exec i)

/-- A booking has at most one claim. Source: none: infrastructure. Kind: D -/
def OneClaim (σ : Store) : Prop := ∀ b c c', Claims σ b c → Claims σ b c' → c = c'

section claims

variable {σ σ' : Store} {a : Action} {b : BookingId} {c : Claimant}

/-- One claim is one seat. Source: none: infrastructure. Kind: L -/
theorem OneClaim.oneSeat (h : OneClaim σ) : OneSeat σ := by
  intro s hs s' hs' b hb hb'
  have heq := h b _ _ (.names (Table.find?_of_mem hs) hb) (.names (Table.find?_of_mem hs') hb')
  exact Table.eq_of_key_eq hs hs' (Claimant.seat.inj heq)

/-- An execution that picks is an allocation past its guard. Source: none: infrastructure.
Kind: L -/
theorem picking_iff {e : Exec} : picking b e = true ↔
    e.pc = .allocatePick ∧ ∃ train passenger hold, e.call = .allocateSeat train b passenger hold := by
  obtain ⟨call, client, now, pc⟩ := e
  cases call <;> cases pc <;> simp [picking]

/-- An execution that picks after a step did so before, or its guard has just missed.
Source: migration `100_fn_allocate_seat`. Kind: L -/
theorem picks_cases (hs : Stepped σ a σ') {j : ℕ} {e' : Exec} (he' : σ'.execs[j]? = some e')
    (hpick : picking b e' = true) : Claims σ b (.exec j) ∨
    ∃ ch now, a = .exec j ch ∧ σ.guarding j = some (b, now) ∧
      ∀ s ∈ σ.seats.committed, s.bookingId = some b → s.liveAt now = false := by
  revert hpick
  refine hs.forall_execs (P := fun _ i e => picking b e = true → Claims σ b (.exec i) ∨
    ∃ ch now, a = .exec i ch ∧ σ.guarding i = some (b, now) ∧
      ∀ s ∈ σ.seats.committed, s.bookingId = some b → s.liveAt now = false)
    ?_ ?_ ?_ ?_ ?_ ?_ ?_ j e' he'
  · intro i e he hpick
    exact .inl (.picks he hpick)
  · intro i e _ _ hP hpick
    exact hP hpick
  · intro i e _ hpc hpick
    obtain ⟨hpick, -⟩ := picking_iff.mp hpick
    rcases hpc with hpc | hpc | hpc <;> rw [hpick] at hpc <;> cases hpc
  · intro i e next ch ha he _ hr hpick
    obtain ⟨hnext, train, passenger, hold, hcall⟩ := picking_iff.mp hpick
    obtain ⟨call, client, now, pc⟩ := e
    cases hnext
    cases hcall
    cases hr with
    | holdMissing hno => exact .inr ⟨ch, now, ha, by simp [guarding, he], hno⟩
  · intro i e us ub next seats bookings _ _ he _ hr _ _ hpick
    obtain ⟨hnext, -⟩ := picking_iff.mp hpick
    have hlock := hr.locking_of_update
    rw [show next = .allocatePick from hnext] at hlock
    cases hlock
  · intro i e r _ _ _ _ _ _ hpick
    cases (picking_iff.mp hpick).1
  · intro i e st he _ hr hst _ _ _ _ hpick
    obtain ⟨hnext, train, passenger, hold, hcall⟩ := picking_iff.mp hpick
    obtain ⟨call, client, now, pc⟩ := e
    cases hcall
    cases hr <;> cases hst

/-- An `UPDATE` makes a version that names `b` of a seat that names it, or it is the one seat an
allocation of `b` takes. Source: migration `100_fn_allocate_seat`. Kind: L -/
theorem update_claim_cases (hl : LocksOk σ) {i : ℕ} {e : Exec} {us : Update Seat}
    {ub : Update Booking} {next : Pc} {seats : Versioned ℕ Seat} (he : σ.execs[i]? = some e)
    (hr : Runs σ i e.now e.call e.pc (.update us ub next)) (hseats : σ.seats.update i us = some seats)
    {k : SeatId} {s : Seat} (hs : σ.seats.committed.find? k = some s) (hc : us.cond s = true)
    (hb : (us.set s).bookingId = some b) : Claims σ b (.seat k) ∨
    (Claims σ b (.exec i) ∧ ∀ k' w, seats.lock k' = some (i, w) → k' = k) := by
  have hunlocked := hl.no_seat_lock he
  obtain ⟨call, client, now, pc⟩ := e
  cases hr with
  | @take train b' passenger hold s' r hs' htrain hfree hr =>
    cases hb
    have hid : ∀ {s₀}, (reserve s'.id b passenger (now + hold)).cond s₀ = true → s₀.id = s'.id := by
      intro s₀ h
      simpa [reserve] using h
    refine .inr ⟨.picks he (by simp [picking]), fun k' w hlock => ?_⟩
    rcases Versioned.lock_of_update hseats hlock with ⟨-, s₀, hs₀, hc₀, -⟩ | hlock
    · have hk : s₀.id = k' := Table.key_of_find? hs₀
      have hk' : s.id = k := Table.key_of_find? hs
      rw [← hk, ← hk', hid hc₀, hid hc]
    · exact absurd hlock (hunlocked rfl k' w)
  | confirmSeat => exact .inl (.names hs hb)
  | releaseSeatsOnly | releaseSeatsThenRow | sweepRun => cases hb
  | confirmRow | releaseRow | failUnpublished => cases hc

/-- A seat that claims `b` after a step did so before, or it is the one seat an allocation of `b` has
just taken. Source: migration `100_fn_allocate_seat`. Kind: L -/
theorem seat_claim_cases (hl : LocksOk σ) (hs : Stepped σ a σ') {k : SeatId}
    (hc : Claims σ' b (.seat k)) : Claims σ b (.seat k) ∨
    ∃ i w, a.actor = some i ∧ Claims σ b (.exec i) ∧ σ'.seats.lock k = some (i, w) ∧
      ∀ k' w', σ'.seats.lock k' = some (i, w') → k' = k := by
  cases hc with
  | names hs' hb =>
    obtain ⟨s, hold, rfl | ⟨i, e, r, -, -, -, hlock, -⟩⟩ := seat_old hl hs hs'
    · exact .inl (.names hold hb)
    · exact .inl (.opens hlock hb)
  | @opens _ i w hw hb =>
    cases hs with
    | update he hr hseats hbookings =>
      rcases Versioned.lock_of_update hseats hw with ⟨rfl, s, hs, hc, rfl⟩ | hold
      · exact (update_claim_cases hl he hr hseats hs hc hb).imp_right
          fun ⟨hpicks, hone⟩ => ⟨i, _, rfl, hpicks, hw, hone⟩
      · exact .inl (.opens hold hb)
    | commit => exact .inl (.opens (Versioned.lock_commit_iff.mp hw).1 hb)
    | raised | aborted => exact .inl (.opens (Versioned.lock_rollback_iff.mp hw).1 hb)
    | _ => exact .inl (.opens hw hb)

/-- A guard that misses under `GuardSees` finds no claim at all. Source: migration
`100_fn_allocate_seat` (re-delivery guard). Kind: L -/
theorem no_claim_of_guard (hl : LocksOk σ) {i : ℕ} {ch : Choice} {now : Time}
    (hC : GuardSees σ (.exec i ch)) (hg : σ.guarding i = some (b, now))
    (hno : ∀ s ∈ σ.seats.committed, s.bookingId = some b → s.liveAt now = false) :
    ¬ Claims σ b c := by
  obtain ⟨hlive, hpick, hopen⟩ := hC (b, now) hg
  have hnames : ∀ s ∈ σ.seats.committed, s.bookingId ≠ some b := by
    intro s hs hb
    have h := hno s hs hb
    rw [hlive s hs hb] at h
    cases h
  intro hc
  cases hc with
  | names hs hb => exact hnames _ (Table.mem_of_find? hs) hb
  | opens hw hb =>
    obtain ⟨s, hs, -⟩ := hl.seats _ _ _ hw
    have hid : s.id = _ := Table.key_of_find? hs
    exact hnames s (Table.mem_of_find? hs)
      (hopen s (Table.mem_of_find? hs) _ (by rw [hid]; exact hw) hb)
  | picks he hp =>
    have h := hpick _ (List.mem_of_getElem? he)
    rw [hp] at h
    cases h

/-- Two seats that claim a booking after a step are one. Source: migration `100_fn_allocate_seat`.
Kind: L -/
theorem OneClaim.seat_eq (hl : LocksOk σ) (h : OneClaim σ) (hs : Stepped σ a σ') {k k' : SeatId}
    (hk : Claims σ' b (.seat k)) (hk' : Claims σ' b (.seat k')) : k = k' := by
  rcases seat_claim_cases hl hs hk with hold | ⟨i, w, hi, hpicks, hlock, hone⟩ <;>
    rcases seat_claim_cases hl hs hk' with hold' | ⟨i', w', hi', hpicks', hlock', hone'⟩
  · exact Claimant.seat.inj (h b _ _ hold hold')
  · cases h b _ _ hold hpicks'
  · cases h b _ _ hpicks hold'
  · obtain rfl := Option.eq_some_unique hi hi'
    exact hone' k w hlock

/-- An execution that claims a booking after a step that meets `GuardSees` did so before, or nothing
did. Source: migration `100_fn_allocate_seat` (re-delivery guard). Kind: L -/
theorem exec_claim_cases (hl : LocksOk σ) (hs : Stepped σ a σ') (hC : GuardSees σ a) {i : ℕ}
    (hi : Claims σ' b (.exec i)) : Claims σ b (.exec i) ∨
    (∀ c, ¬ Claims σ b c) ∧ a.actor = some i := by
  cases hi with
  | picks he hp =>
    refine (picks_cases hs he hp).imp_right ?_
    rintro ⟨ch, now, rfl, hg, hno⟩
    exact ⟨fun c => no_claim_of_guard hl hC hg hno, rfl⟩

/-- No booking is claimed by a seat and by an execution after a step. Source: migration
`100_fn_allocate_seat`. Kind: L -/
theorem OneClaim.not_both (hl : LocksOk σ) (h : OneClaim σ) (hs : Stepped σ a σ')
    (hC : GuardSees σ a) {k : SeatId} {j : ℕ} (hk : Claims σ' b (.seat k)) :
    ¬ Claims σ' b (.exec j) := by
  intro hj
  have hfree : ∀ {k w}, σ'.seats.lock k ≠ some (j, w) := by
    intro k w
    cases hj with
    | picks he hp => exact (hl.step hs).no_seat_lock he (by rw [(picking_iff.mp hp).1]; rfl) k w
  rcases seat_claim_cases hl hs hk with hold | ⟨i, w, -, hpicks, hlock, -⟩ <;>
    rcases exec_claim_cases hl hs hC hj with hold' | ⟨hnone, -⟩
  · cases h b _ _ hold hold'
  · exact hnone _ hold
  · cases h b _ _ hpicks hold'
    exact hfree hlock
  · exact hnone _ hpicks

/-- **One claim a booking.** A step that meets `GuardSees` keeps it. Source: migration
`100_fn_allocate_seat`. Kind: L -/
theorem OneClaim.step (hl : LocksOk σ) (h : OneClaim σ) (hs : Stepped σ a σ') (hC : GuardSees σ a) :
    OneClaim σ' := by
  intro b c c' hc hc'
  cases c with
  | seat k =>
    cases c' with
    | seat k' => rw [h.seat_eq hl hs hc hc']
    | exec j => exact absurd hc' (h.not_both hl hs hC hc)
  | exec i =>
    cases c' with
    | seat k' => exact absurd hc (h.not_both hl hs hC hc')
    | exec j =>
      rcases exec_claim_cases hl hs hC hc with hold | ⟨hnone, hi⟩ <;>
        rcases exec_claim_cases hl hs hC hc' with hold' | ⟨hnone', hj⟩
      · exact h b _ _ hold hold'
      · exact absurd hold (hnone' _)
      · exact absurd hold' (hnone _)
      · obtain rfl := Option.eq_some_unique hi hj
        rfl

end claims

/-- **One seat a booking**, in every run whose guards see no other seat or allocation of their
booking. Source: migration `100_fn_allocate_seat`. Kind: L -/
theorem one_seat_of_guardSees {σ : Store} (h : Reach step Initial GuardSees σ) : OneSeat σ := by
  refine OneClaim.oneSeat (h.invariant (P := OneClaim) (fun σ hinit b c c' hc => ?_)
    fun σ a σ' hreach hP hC hstep => hP.step (inv_of_reach hreach).locks (step_cases hstep) hC)
  exfalso
  cases hc with
  | names hs hb =>
    rw [(hinit.seats_free _ (Table.mem_of_find? hs)).2.1] at hb
    cases hb
  | opens hw =>
    rw [hinit.seats_unlocked] at hw
    cases hw
  | picks he => exact hinit.no_exec he

end Store

end TrainsAndTracks
