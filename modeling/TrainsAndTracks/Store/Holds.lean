import TrainsAndTracks.Store.Outcomes

/-!
# Holds

A seat that is `RESERVED` for a booking with `held_until` in the future belongs to that booking: only
a confirmation or a release of that booking changes it. When the hold runs out a confirmation and the
sweep may both be under way; whichever commits first decides, and it settles the booking as well.

* `live_hold_change` — who may change a live hold.
* `hold_race` — in a run of confirmations and sweeps, after the seat has changed once, neither the
  seat nor the booking changes again.
-/

namespace TrainsAndTracks

open Found

/-- The call confirms or releases booking `b`. Source: migrations `110_fn_confirm_booking`,
`20260418000000_split_release_hold`. Kind: D -/
def Call.EndsHold (call : Call) (b : BookingId) : Prop :=
  (∃ seat payment, call = .confirmBooking b seat payment) ∨ ∃ why, call.releases = some (b, why)

/-- The calls that race when a hold runs out. Source: migrations `110_fn_confirm_booking`,
`130_fn_sweep_expired_holds`. Kind: D -/
def Call.races : Call → Bool
  | confirmBooking .. => true
  | sweepExpiredHolds => true
  | _ => false

/-- A release is not one of them. Source: none: infrastructure. Kind: L -/
theorem Call.not_races_of_releases {call : Call} {b : BookingId} {why : Option String}
    (h : call.releases = some (b, why)) : call.races = false := by
  cases call with
  | releaseHold | releaseHoldRetryable | releaseHoldTerminal => rfl
  | _ => cases h

namespace Store

/-- A step of a confirmation or of a sweep, or of the clock. Source: none: infrastructure.
Kind: D -/
def Racing (σ : Store) : Action → Prop
  | .begin call _ => call.races = true
  | .start i | .exec i _ | .commit i | .abort i => (σ.execs[i]?).all (·.call.races) = true
  | .tick _ => True

instance (σ : Store) (a : Action) : Decidable (Racing σ a) :=
  match a with
  | .begin call _ => inferInstanceAs (Decidable (call.races = true))
  | .start i | .exec i _ | .commit i | .abort i =>
    inferInstanceAs (Decidable ((σ.execs[i]?).all (·.call.races) = true))
  | .tick _ => .isTrue trivial

section holds

variable {σ σ' : Store} {a : Action} {k : SeatId} {b : BookingId} {s s' : Seat}

/-! ## Live holds -/

/-- A write to a live hold, by a transaction that started before now, is a confirmation's or a
release's of its booking. Source: migrations `100_fn_allocate_seat`, `110_fn_confirm_booking`,
`20260418000000_split_release_hold`, `130_fn_sweep_expired_holds`. Kind: L -/
theorem SeatWrite.endsHold {call : Call} {now₀ now : Time} (h : SeatWrite call now₀ s s')
    (hnow : now₀ ≤ now) (hlive : s.liveAt now = true) (hb : s.bookingId = some b) :
    call.EndsHold b := by
  obtain ⟨hreserved, t, ht, hlt⟩ := Seat.liveAt_iff.mp hlive
  cases h with
  | reserve hcall hfree =>
    rw [hreserved] at hfree
    cases hfree
  | confirm hcall hcond =>
    obtain ⟨-, hb', -⟩ := confirmSeatUpdate_cond_iff.mp hcond
    obtain rfl := Option.eq_some_unique hb hb'
    exact .inl ⟨_, _, hcall⟩
  | release hcall hheld =>
    obtain ⟨-, hb'⟩ := Seat.heldFor_iff.mp hheld
    obtain rfl := Option.eq_some_unique hb hb'
    exact .inr ⟨_, hcall⟩
  | sweep hcall hexp =>
    -- the sweep's clock is not ahead of ours, so a hold live now was live at its start
    obtain ⟨-, t', ht', hlt'⟩ := Seat.expiredAt_iff.mp hexp
    obtain rfl := Option.eq_some_unique ht ht'
    exact absurd (hlt.trans (hlt'.trans_le hnow)) (lt_irrefl _)

/-- **A live hold is exclusive.** A step that changes the row of a seat `RESERVED` for `b` with
`held_until` in the future is the commit of a confirmation or a release of `b`.
Source: migrations `100_fn_allocate_seat`, `130_fn_sweep_expired_holds`. Kind: L -/
theorem live_hold_change (hinv : Inv σ) (hs : Stepped σ a σ')
    (hold : σ.seats.committed.find? k = some s) (hlive : s.liveAt σ.now = true)
    (hb : s.bookingId = some b) (hnew : σ'.seats.committed.find? k = some s') :
    s' = s ∨ ∃ i e, a = .commit i ∧ σ.execs[i]? = some e ∧ e.call.EndsHold b := by
  rcases seat_change hinv.locks hs hold hnew with rfl | ⟨i, e, r, rfl, he, -, -, hw⟩
  · exact .inl rfl
  · exact .inr ⟨i, e, rfl, he, hw.endsHold (hinv.unique.clock i e he) hlive hb⟩

/-! ## The race at the end of a hold -/

/-- The hold `s` of booking `b` on seat `k` is as it was, or seat and booking are settled.
Source: none: infrastructure. Kind: D -/
def RaceOk (k : SeatId) (b : BookingId) (s : Seat) (σ : Store) : Prop :=
  σ.seats.committed.find? k = some s ∨
  ∃ s' r, σ.seats.committed.find? k = some s' ∧ s'.status ≠ .reserved ∧
    σ.bookings.committed.find? b = some r ∧ r.status ≠ .pending

/-- A racing write finds the seat `RESERVED` and leaves it otherwise. Source: migrations
`110_fn_confirm_booking`, `130_fn_sweep_expired_holds`. Kind: L -/
theorem SeatWrite.of_races {call : Call} {now : Time} (h : SeatWrite call now s s')
    (hraces : call.races = true) : s.status = .reserved ∧ s'.status ≠ .reserved := by
  cases h with
  | confirm hcall hcond =>
    obtain ⟨-, -, hlive⟩ := confirmSeatUpdate_cond_iff.mp hcond
    exact ⟨(Seat.liveAt_iff.mp hlive).1, by simp [confirmSeatUpdate]⟩
  | sweep hcall hexp => exact ⟨(Seat.expiredAt_iff.mp hexp).1, by simp [freed]⟩
  | reserve hcall =>
    rw [hcall] at hraces
    cases hraces
  | release hcall =>
    rw [Call.not_races_of_releases hcall] at hraces
    cases hraces

/-- A racing execution that commits a change of the seat leaves the booking settled.
Source: migrations `110_fn_confirm_booking`, `130_fn_sweep_expired_holds`. Kind: L -/
theorem settled_of_race (hinv : Inv σ) {i : ℕ} {e : Exec} {reply : Reply}
    (hs : Stepped σ (.commit i) σ') (he : σ.execs[i]? = some e) (hpc : e.pc = .ret reply)
    (hraces : e.call.races = true) (hold : σ.seats.committed.find? k = some s)
    (hb : s.bookingId = some b) (hlock : σ.seats.lock k = some (i, s')) : Settled σ' b := by
  have hl := hinv.locks
  obtain ⟨s₀, hs₀, hwrite⟩ := hl.seat_write he hlock
  obtain rfl := Option.eq_some_unique hold hs₀
  cases hwrite with
  | confirm hcall hcond =>
    obtain ⟨-, hb', -⟩ := confirmSeatUpdate_cond_iff.mp hcond
    obtain rfl := Option.eq_some_unique hb hb'
    exact (hinv.confirms i e he _ _ _ hcall).settled_of_commit hl hs hpc hlock
  | sweep hcall =>
    obtain ⟨r, hr, -⟩ := hinv.refs.committed k s b hold hb
    exact settled_of_commit hl (hs.le hl) hs.of_commit.2.1 hr fun hp =>
      hinv.sweeps i e he hcall k _ s b r hlock hold hb hr hp
  | reserve hcall =>
    rw [hcall] at hraces
    cases hraces
  | release hcall =>
    rw [Call.not_races_of_releases hcall] at hraces
    cases hraces

/-- Once seat and booking are settled, racing steps leave both rows. Source: migrations
`110_fn_confirm_booking`, `130_fn_sweep_expired_holds`. Kind: L -/
theorem settled_race_step (hinv : Inv σ) (hs : Stepped σ a σ') (hC : Racing σ a) {r : Booking}
    (hold : σ.seats.committed.find? k = some s) (hst : s.status ≠ .reserved)
    (hr : σ.bookings.committed.find? b = some r) (hne : r.status ≠ .pending) :
    σ'.seats.committed.find? k = some s ∧ σ'.bookings.committed.find? b = some r := by
  refine ⟨?_, (hs.le hinv.locks).settled hr hne⟩
  obtain ⟨s', hs', rfl | ⟨i, e, reply, rfl, he, -, -, hw⟩⟩ := seat_next hinv.locks hs hold
  · exact hs'
  · have hraces : e.call.races = true := by simpa [Racing, he] using hC
    exact absurd (hw.of_races hraces).1 hst

/-- A racing step leaves the hold, or settles seat and booking. Source: migrations
`110_fn_confirm_booking`, `130_fn_sweep_expired_holds`. Kind: L -/
theorem RaceOk.step (hinv : Inv σ) (h : RaceOk k b s σ) (hb : s.bookingId = some b)
    (hs : Stepped σ a σ') (hC : Racing σ a) : RaceOk k b s σ' := by
  rcases h with hold | ⟨s', r, hs', hst, hr, hne⟩
  · obtain ⟨s', hs', rfl | ⟨i, e, reply, rfl, he, hpc, hlock, hw⟩⟩ := seat_next hinv.locks hs hold
    · exact .inl hs'
    · have hraces : e.call.races = true := by simpa [Racing, he] using hC
      obtain ⟨r, hr, hne⟩ := settled_of_race hinv hs he hpc hraces hold hb hlock
      exact .inr ⟨s', r, hs', (hw.of_races hraces).2, hr, hne⟩
  · obtain ⟨hs'', hr'⟩ := settled_race_step hinv hs hC hs' hst hr hne
    exact .inr ⟨s', r, hs'', hst, hr', hne⟩

/-- **The race has one winner.** From a reachable store, along a run of confirmations and sweeps (and
of the clock): once the seat of a hold has changed, neither it nor the booking changes again.
Source: migrations `110_fn_confirm_booking`, `130_fn_sweep_expired_holds`. Kind: L -/
theorem hold_race {σ₀ σ₁ σ₂ : Store} (hreach : Reach step Initial Always σ₀)
    (hold : σ₀.seats.committed.find? k = some s) (hb : s.bookingId = some b)
    (hrun : Steps step Racing σ₀ σ₁) (hchanged : σ₁.seats.committed.find? k ≠ some s)
    (hrun' : Steps step Racing σ₁ σ₂) :
    σ₂.seats.committed.find? k = σ₁.seats.committed.find? k ∧
    σ₂.bookings.committed.find? b = σ₁.bookings.committed.find? b := by
  have hrace : Inv σ₁ ∧ RaceOk k b s σ₁ :=
    hrun.invariant (P := fun σ => Inv σ ∧ RaceOk k b s σ)
      (fun σ a σ' h hC hstep =>
        ⟨h.1.step (step_cases hstep), h.2.step h.1 hb (step_cases hstep) hC⟩)
      ⟨inv_of_reach hreach, .inl hold⟩
  obtain ⟨hinv, hfirst | ⟨s', r, hs', hst, hr, hne⟩⟩ := hrace
  · exact absurd hfirst hchanged
  · have hlast := hrun'.invariant
      (P := fun σ => Inv σ ∧ σ.seats.committed.find? k = some s' ∧
        σ.bookings.committed.find? b = some r)
      (fun σ a σ' h hC hstep => ⟨h.1.step (step_cases hstep),
        settled_race_step h.1 (step_cases hstep) hC h.2.1 hst h.2.2 hne⟩)
      ⟨hinv, hs', hr⟩
    exact ⟨by rw [hlast.2.1, hs'], by rw [hlast.2.2, hr]⟩

/-- **Live holds are exclusive, and the race at their end has one winner.** A step that changes the
row of a live hold of `b` is the commit of a confirmation or a release of `b`; and from any reachable
store, along a run of confirmations and sweeps, once the seat of a hold has changed neither it nor the
booking changes again. Source: `docs/PRD.md` 5.2 (guarantee 4). Kind: P -/
theorem live_holds_exclusive :
    (∀ σ a σ' k s s' b, Reach step Initial Always σ → σ.step a = some σ' →
      σ.seats.committed.find? k = some s → s.liveAt σ.now = true → s.bookingId = some b →
      σ'.seats.committed.find? k = some s' →
      s' = s ∨ ∃ i e, a = .commit i ∧ σ.execs[i]? = some e ∧ e.call.EndsHold b) ∧
    (∀ σ₀ σ₁ σ₂ k s b, Reach step Initial Always σ₀ →
      σ₀.seats.committed.find? k = some s → s.bookingId = some b →
      Steps step Racing σ₀ σ₁ → σ₁.seats.committed.find? k ≠ some s →
      Steps step Racing σ₁ σ₂ →
      σ₂.seats.committed.find? k = σ₁.seats.committed.find? k ∧
      σ₂.bookings.committed.find? b = σ₁.bookings.committed.find? b) :=
  ⟨fun _ _ _ _ _ _ _ hreach hstep hold hlive hb hnew =>
      live_hold_change (inv_of_reach hreach) (step_cases hstep) hold hlive hb hnew,
    fun _ _ _ _ _ _ hreach hold hb hrun hchanged hrun' =>
      hold_race hreach hold hb hrun hchanged hrun'⟩

end holds

/-- Booking 1 is created, paid and held, and its confirmation is about to commit. Source: none:
infrastructure. Kind: D -/
def beforeCommit : List Action :=
  oneCall 0 (.createBooking ⟨"k", "12951", "Asha", none, 126000⟩) 1 ++
  oneCall 1 (.charge 126000 "k") 2 ++ oneCall 2 (.allocateSeat "12951" 1 "Asha" 300) 2 ++
  [.begin (.confirmBooking 1 "12951-A1" 1) 3, .start 3, .exec 3 usualChoice, .exec 3 usualChoice,
    .exec 3 usualChoice]

/-- The hold runs out and a sweep looks for it. Source: none: infrastructure. Kind: D -/
def lateSweep : List Action := .tick 400 :: oneCall 4 .sweepExpiredHolds 3

/-- The seat of the hold is live before the commit and `CONFIRMED` after it. Source: none:
infrastructure. Kind: D -/
def confirms (σ σ' : Store) : Bool :=
  ((σ.seats.committed.find? "12951-A1").any fun s =>
    s.liveAt σ.now && s.bookingId == some 1) &&
  (σ'.seats.committed.find? "12951-A1").any fun s => s.status == .confirmed

/-- The confirmation commits in time, and the sweep that comes after the hold has run out changes
nothing. Source: none: infrastructure. Kind: L -/
theorem live_holds_exclusive_confirmed : ∃ σ₀ σ₁ σ₂ : Store, confirms σ₀ σ₁ = true ∧
    (∃ (i : ℕ) (e : Exec), σ₀.execs[i]? = some e ∧ e.call.EndsHold 1) ∧ σ₂.now = 400 ∧
    σ₂.seats.committed.find? "12951-A1" = σ₁.seats.committed.find? "12951-A1" ∧
    σ₂.bookings.committed.find? 1 = σ₁.bookings.committed.find? 1 := by
  have hrun : ((run step twoSeats beforeCommit).bind fun σ₀ =>
      (run (guarded step Racing) σ₀ [.commit 3]).bind fun σ₁ =>
        (run (guarded step Racing) σ₁ lateSweep).map fun σ₂ =>
          confirms σ₀ σ₁ && σ₂.now == 400) = some true := by
    decide +kernel
  simp only [Option.bind_eq_some_iff, Option.map_eq_some_iff, Bool.and_eq_true, beq_iff_eq] at hrun
  obtain ⟨σ₀, hfirst, σ₁, hcommit, σ₂, hlate, hconfirms, hnow⟩ := hrun
  have hc := hconfirms
  simp only [confirms, Bool.and_eq_true, Option.any_eq_true, beq_iff_eq] at hc
  obtain ⟨⟨s, hold, hlive, hb⟩, s', hnew, hst⟩ := hc
  have hreach : Reach step Initial Always σ₀ := ⟨twoSeats, initial_twoSeats, steps_of_run hfirst⟩
  have hne : s' ≠ s := by
    rintro rfl
    rw [(Seat.liveAt_iff.mp hlive).1] at hst
    cases hst
  have hstep : σ₀.step (.commit 3) = some σ₁ := by
    simp only [run, guarded, Option.bind_eq_some_iff, Option.some.injEq] at hcommit
    obtain ⟨σ, hσ, rfl⟩ := hcommit
    split at hσ
    · exact hσ
    · cases hσ
  refine ⟨σ₀, σ₁, σ₂, hconfirms, ?_, hnow, ?_⟩
  · rcases live_holds_exclusive.1 σ₀ _ σ₁ _ s s' 1 hreach hstep hold hlive hb hnew with
      heq | ⟨i, e, -, he, hends⟩
    · exact absurd heq hne
    · exact ⟨i, e, he, hends⟩
  · exact live_holds_exclusive.2 σ₀ σ₁ σ₂ _ s 1 hreach hold hb (steps_of_guarded hcommit)
      (by rw [hnew]; simpa using hne) (steps_of_guarded hlate)

end Store

end TrainsAndTracks
