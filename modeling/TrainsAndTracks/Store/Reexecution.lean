import TrainsAndTracks.Store.Sweeps

/-!
# Calls that are executed again

`pgPolicy` executes a call again when an attempt of it throws, also when that attempt has committed and only
its reply was lost.

* `Again` — one more execution of the same call, with nothing in between but the passing of time.
* `SafeToRepeat` — any number of executions leave what the first one left, and the calls whose result the
  worker looks at return what the first one returned.
* `Repeatable` — the stores in which a call is: an allocation finds at most one live hold of its booking, a
  confirmation finds nothing that it could confirm, the releases and the sweep are so in every store.
* `safe_to_repeat_iff` — `SafeToRepeat` is `Repeatable`.
-/

namespace TrainsAndTracks

open Found

/-- The stored functions that the worker and the sweeper call through `pgPolicy`. Source:
`lib/allocation/hold-state-machine.ts`, `lib/allocation/allocate-seat.ts`,
`app/api/sweeper/expire-holds/route.ts`. Kind: D -/
def Call.policyWrapped : Call → Bool
  | .allocateSeat .. | .confirmBooking .. | .releaseHoldRetryable _ | .releaseHoldTerminal ..
  | .sweepExpiredHolds => true
  | _ => false

/-- The calls whose result decides what the worker does. Source: `app/api/worker/allocate/route.ts`
(steps 4 and 7). Kind: D -/
def Call.answers : Call → Bool
  | .allocateSeat .. | .confirmBooking .. => true
  | _ => false

namespace Store

/-- No hold that matters runs out in `d`: not the one that the allocation has returned, and none at all for
a sweep. Source: migrations `100_fn_allocate_seat`, `130_fn_sweep_expired_holds`. Kind: D -/
def Lasts (call : Call) (r : Reply) (σ : Store) (d : ℕ) : Prop :=
  match call, r with
  | .allocateSeat .., .allocated (some (k, _)) =>
    ∃ s ∈ σ.seats.committed, s.id = k ∧ s.liveAt (σ.now + d) = true
  | .sweepExpiredHolds, _ =>
    ∀ s ∈ σ.seats.committed, s.expiredAt (σ.now + d) = true → s.expiredAt σ.now = true
  | _, _ => True

/-- The call, which has returned `p.1` and left `p.2`, is executed again. Source:
`lib/resilience/pg-policy.ts` `pgRetry`. Kind: D -/
def Again (call : Call) (p q : Reply × Store) : Prop :=
  ∃ d, Lasts call p.1 p.2 d ∧ Executed { p.2 with now := p.2.now + d } call q.1 q.2

/-- However often the call is executed, it leaves what its first execution left and, if its result matters,
returns what that returned. Source: `lib/resilience/pg-policy.ts` `pgPolicy`. Kind: D -/
def SafeToRepeat (σ : Store) (call : Call) : Prop :=
  ∀ first last : Reply × Store, Executed σ call first.1 first.2 →
    Relation.ReflTransGen (Again call) first last →
    last.2.seats = first.2.seats ∧ last.2.bookings = first.2.bookings ∧
      (call.answers = true → last.1 = first.1)

/-- When it is: an allocation finds at most one live hold of its booking, a confirmation finds nothing to
confirm. Source: migrations `100_fn_allocate_seat` (`LIMIT 1`), `110_fn_confirm_booking`. Kind: D -/
def Repeatable (σ : Store) : Call → Prop
  | .allocateSeat _ b _ _ => ∀ s ∈ σ.seats.committed, ∀ s' ∈ σ.seats.committed,
    s.bookingId = some b → s.liveAt σ.now = true → s'.bookingId = some b → s'.liveAt σ.now = true →
      s = s'
  | .confirmBooking b seat payment => σ.confirmable b seat payment = false
  | _ => True

/-! ## What is safe to repeat -/

section safe

variable {σ : Store} {call : Call} {b : BookingId}

/-- **The rule**: what the first execution establishes, and each further one keeps without changing a row
or the reply. Source: none: infrastructure. Kind: L -/
theorem safeToRepeat_of_stable {Q : Reply × Store → Prop} (hl : LocksOk σ)
    (hfirst : ∀ p : Reply × Store, Executed σ call p.1 p.2 → Q p)
    (hagain : ∀ (p q : Reply × Store) (d : ℕ), LocksOk p.2 → Q p → Lasts call p.1 p.2 d →
      Executed { p.2 with now := p.2.now + d } call q.1 q.2 →
      Q q ∧ q.2.seats = p.2.seats ∧ q.2.bookings = p.2.bookings ∧ (call.answers = true → q.1 = p.1)) :
    SafeToRepeat σ call := by
  intro first last hexec hrepeat
  have hkeep : LocksOk last.2 ∧ Q last ∧ last.2.seats = first.2.seats ∧
      last.2.bookings = first.2.bookings ∧ (call.answers = true → last.1 = first.1) := by
    induction hrepeat with
    | refl => exact ⟨hexec.locks hl, hfirst first hexec, rfl, rfl, fun _ => rfl⟩
    | tail _ h ih =>
      obtain ⟨hlocks, hQ, hseats, hbookings, hreply⟩ := ih
      obtain ⟨d, hlasts, hnext⟩ := h
      obtain ⟨hQ', hseats', hbookings', hreply'⟩ := hagain _ _ d hlocks hQ hlasts hnext
      exact ⟨hnext.locks (hlocks.tick d), hQ', hseats'.trans hseats, hbookings'.trans hbookings,
        fun ha => (hreply' ha).trans (hreply ha)⟩
  exact hkeep.2.2

/-- A hold that is live later is live now. Source: migration `100_fn_allocate_seat`. Kind: L -/
theorem liveAt_of_add {s : Seat} {now : Time} {d : ℕ} (h : s.liveAt (now + d) = true) :
    s.liveAt now = true := by
  rw [Seat.liveAt_iff] at h ⊢
  obtain ⟨hreserved, t, ht, hlt⟩ := h
  exact ⟨hreserved, t, ht, (Nat.le_add_right now d).trans_lt hlt⟩

/-- **The releases** are safe to repeat in every store: there is nothing left to free or to fail. Source:
migration `20260418000000_split_release_hold`. Kind: L -/
theorem safeToRepeat_release {why : Option String} (hl : LocksOk σ)
    (hcall : call.releases = some (b, why)) : SafeToRepeat σ call := by
  have hanswers : call.answers = false := by
    cases call <;> first | rfl | cases hcall
  have hfail : ∀ r : Booking, (why.elim Update.skip (failRowUpdate b)).cond
      ((why.elim Update.skip (failRowUpdate b)).apply r) = false := by
    intro r
    cases why with
    | none => rfl
    | some reason =>
      show (failRowUpdate b reason).cond ((failRowUpdate b reason).apply r) = false
      unfold Update.apply
      split
      · exact Bool.and_false _
      · rename_i hno
        simpa using hno
  refine safeToRepeat_of_stable
    (Q := fun p => (∀ s ∈ p.2.seats.committed, (freeHeld b).cond s = false) ∧
      ∀ r ∈ p.2.bookings.committed, (why.elim Update.skip (failRowUpdate b)).cond r = false) hl ?_ ?_
  · intro p hexec
    obtain ⟨-, hleaves⟩ := executed_release hl hcall hexec
    rw [hleaves.seats, hleaves.bookings]
    refine ⟨fun s hs => ?_, fun r hr => ?_⟩
    · obtain ⟨s₀, -, rfl⟩ := Versioned.mem_modify.mp hs
      unfold Update.apply
      split
      · rfl
      · rename_i hno
        simpa using hno
    · obtain ⟨r₀, -, rfl⟩ := Versioned.mem_modify.mp hr
      exact hfail r₀
  · intro p q d hlocks hQ _ hexec
    obtain ⟨-, hleaves⟩ := executed_release (hlocks.tick d) hcall hexec
    have hseats : q.2.seats = p.2.seats := hleaves.seats.trans (Versioned.modify_eq_self hQ.1)
    have hbookings : q.2.bookings = p.2.bookings :=
      hleaves.bookings.trans (Versioned.modify_eq_self hQ.2)
    refine ⟨?_, hseats, hbookings, fun ha => ?_⟩
    · rw [hseats, hbookings]
      exact hQ
    · rw [hanswers] at ha
      cases ha

/-- **A sweep** is safe to repeat while no hold runs out. Source: migration
`130_fn_sweep_expired_holds`. Kind: L -/
theorem safeToRepeat_sweepExpiredHolds (hl : LocksOk σ) (hskips : Skips σ) :
    SafeToRepeat σ .sweepExpiredHolds := by
  refine safeToRepeat_of_stable
    (Q := fun p => (∃ i < p.2.execs.length, p.2.advisory = some i) ∨
      p.2.advisory = none ∧ p.2.expiredHolds = []) hl ?_ ?_
  · intro p hexec
    rcases executed_sweepExpiredHolds hl hexec with ⟨hheld, -, hleaves⟩ | ⟨hfree, -, hleaves⟩
    · obtain ⟨i, hi⟩ := Option.isSome_iff_exists.mp hheld
      obtain ⟨e, he, -⟩ := hskips.holder i hi
      have hlt := (List.getElem?_eq_some_iff.mp he).1
      refine .inl ⟨i, by rw [hleaves.length]; omega, ?_⟩
      rw [hleaves.advisory, hi]
      simp [Nat.ne_of_lt hlt]
    · refine .inr ⟨?_, expiredHolds_modify hleaves.seats hleaves.now⟩
      rw [hleaves.advisory, hfree]
      rfl
  · intro p q d hlocks hQ hlasts hexec
    rcases executed_sweepExpiredHolds (hlocks.tick d) hexec with ⟨hheld, -, hleaves⟩ | ⟨hfree, -, hleaves⟩
    · refine ⟨?_, hleaves.seats, hleaves.bookings, nofun⟩
      rcases hQ with ⟨i, hlt, hi⟩ | ⟨hnone, -⟩
      · refine .inl ⟨i, by rw [hleaves.length]; exact Nat.lt_succ_of_lt hlt, ?_⟩
        rw [hleaves.advisory, hi]
        simp [Nat.ne_of_lt hlt]
      · rw [hnone] at hheld
        cases hheld
    · rcases hQ with ⟨i, -, hi⟩ | ⟨-, hnone⟩
      · rw [hi] at hfree
        cases hfree
      · have hlater : p.2.seats.committed.select (·.expiredAt (p.2.now + d)) = [] := by
          refine List.filter_eq_nil_iff.mpr fun s hs hexp => ?_
          exact List.filter_eq_nil_iff.mp hnone s hs (hlasts s hs hexp)
        have hseats : q.2.seats = p.2.seats := by
          refine hleaves.seats.trans (Versioned.modify_eq_self fun s hs => ?_)
          exact Bool.eq_false_iff.mpr (List.filter_eq_nil_iff.mp hlater s hs)
        have hbookings : q.2.bookings = p.2.bookings := by
          refine hleaves.bookings.trans (Versioned.modify_eq_self fun r _ => ?_)
          show (r.status == .pending && (p.2.seats.committed.select _).any _) = false
          rw [hlater]
          exact Bool.and_false _
        refine ⟨.inr ⟨?_, ?_⟩, hseats, hbookings, nofun⟩
        · rw [hleaves.advisory, hfree]
          rfl
        · unfold expiredHolds
          rw [hseats, hleaves.now]
          exact hlater

/-- What is not there to be confirmed is not there later. Source: migration `110_fn_confirm_booking`.
Kind: L -/
theorem not_confirmable_later {seat : SeatId} {payment : PaymentId} {τ : Store} {d : ℕ}
    (h : σ.confirmable b seat payment = false) (hseats : τ.seats = σ.seats)
    (hbookings : τ.bookings = σ.bookings) (hpayments : τ.payments = σ.payments)
    (hnow : τ.now = σ.now + d) : τ.confirmable b seat payment = false := by
  refine Bool.eq_false_iff.mpr fun hlater => ?_
  obtain ⟨hrow, ⟨s, hs, hcond⟩, hpayment, hfree, hfree'⟩ := confirmable_iff.mp hlater
  rw [hseats] at hs hfree
  rw [hbookings] at hrow hfree'
  rw [hpayments] at hpayment
  rw [hnow] at hcond
  obtain ⟨hid, hb, hlive⟩ := confirmSeatUpdate_cond_iff.mp hcond
  have hnowcond := confirmSeatUpdate_cond_iff.mpr ⟨hid, hb, liveAt_of_add hlive⟩
  rw [confirmable_iff.mpr ⟨hrow, ⟨s, hs, hnowcond⟩, hpayment, hfree, hfree'⟩] at h
  cases h

/-- **A confirmation** is safe to repeat when there is nothing to confirm: it returns no row again and
again. Source: migration `110_fn_confirm_booking`. Kind: L -/
theorem safeToRepeat_confirmBooking {seat : SeatId} {payment : PaymentId} (hl : LocksOk σ)
    (h : σ.confirmable b seat payment = false) : SafeToRepeat σ (.confirmBooking b seat payment) := by
  refine safeToRepeat_of_stable
    (Q := fun p => p.1 = .confirmed none ∧ p.2.confirmable b seat payment = false) hl ?_ ?_
  · intro p hexec
    rcases executed_confirmBooking hl hexec with ⟨-, hr, hleaves⟩ | ⟨hcan, -⟩
    · exact ⟨hr, not_confirmable_later (d := 0) h hleaves.seats hleaves.bookings hleaves.payments
        hleaves.now⟩
    · rw [h] at hcan
      cases hcan
  · intro p q d hlocks hQ _ hexec
    have hlater : ({ p.2 with now := p.2.now + d } : Store).confirmable b seat payment = false :=
      not_confirmable_later hQ.2 rfl rfl rfl rfl
    rcases executed_confirmBooking (hlocks.tick d) hexec with ⟨-, hr, hleaves⟩ | ⟨hcan, -⟩
    · refine ⟨⟨hr, ?_⟩, hleaves.seats, hleaves.bookings, fun _ => hr.trans hQ.1.symm⟩
      exact not_confirmable_later (d := 0) hlater hleaves.seats hleaves.bookings hleaves.payments
        hleaves.now
    · rw [hlater] at hcan
      cases hcan

/-- **A confirmation that has confirmed returns no row when it is executed again**, for the booking is no
longer `PENDING`. Source: migration `110_fn_confirm_booking`, statement 1. Kind: L -/
theorem not_safeToRepeat_of_confirmable {seat : SeatId} {payment : PaymentId} (hl : LocksOk σ)
    (h : σ.confirmable b seat payment = true) : ¬ SafeToRepeat σ (.confirmBooking b seat payment) := by
  intro hsafe
  obtain ⟨τ, hexec⟩ := executed_of_confirmable h
  obtain ⟨⟨row, hrow, hpending⟩, -⟩ := confirmable_iff.mp h
  rcases executed_confirmBooking hl hexec with ⟨-, hr, -⟩ | ⟨-, -, hleaves⟩
  · cases hr
  · have hcond : (confirmRowUpdate b seat payment σ.now).cond row = true :=
      confirmRowUpdate_cond_iff.mpr ⟨Table.key_of_find? hrow, hpending⟩
    have hrow' : τ.bookings.committed.find? b =
        some ((confirmRowUpdate b seat payment σ.now).set row) := by
      rw [hleaves.bookings]
      exact Versioned.find?_modify_of hrow hcond
    obtain ⟨τ', hexec'⟩ : ∃ τ', Executed { τ with now := τ.now + 0 } (.confirmBooking b seat payment)
        (.confirmed none) τ' := by
      refine executed_of_select ⟨0, none, seat⟩ ?_
      have hstart : ({ τ with now := τ.now + 0 } : Store).confirmBooking (τ.now + 0) b seat payment .start =
          some (.select (.ret (.confirmed none))) := by
        simp only [confirmBooking, hrow']
        rfl
      exact hstart
    have hsame := (hsafe (_, τ) (_, τ') hexec (.single ⟨0, trivial, hexec'⟩)).2.2 rfl
    cases hsame

/-- Who asks makes no difference to the pick when neither has locked a seat. Source: migration
`100_fn_allocate_seat`, statement 2. Kind: L -/
theorem pickAvailable_eq {τ : Store} {i j : ℕ} {train : TrainId} (hseats : τ.seats = σ.seats)
    (hi : ∀ k w, σ.seats.lock k ≠ some (i, w)) (hj : ∀ k w, σ.seats.lock k ≠ some (j, w)) :
    τ.pickAvailable j train = σ.pickAvailable i train := by
  have hlocked : ∀ k, σ.seats.lockedFor j k = σ.seats.lockedFor i k := by
    intro k
    unfold Versioned.lockedFor
    cases hl : σ.seats.lock k with
    | none => rfl
    | some own =>
      have hi' : own.1 ≠ i := fun h => hi k own.2 (h ▸ hl)
      have hj' : own.1 ≠ j := fun h => hj k own.2 (h ▸ hl)
      simp [hi', hj']
  unfold pickAvailable
  simp only [hseats, hlocked]

/-- What an allocation has returned, as long as it stands: the one live hold of the booking, or no row for
lack of a hold and of a free seat. Source: migration `100_fn_allocate_seat`. Kind: D -/
def Stands (train : TrainId) (b : BookingId) (p : Reply × Store) : Prop :=
  (∃ s ∈ p.2.seats.committed, p.1 = .allocated (some (s.id, s.version)) ∧ s.bookingId = some b ∧
    ∀ s' ∈ p.2.seats.committed, s'.bookingId = some b → s'.liveAt p.2.now = true → s' = s) ∨
  (p.1 = .allocated none ∧ p.2.pickAvailable p.2.execs.length train = none ∧
    ∀ s ∈ p.2.seats.committed, s.bookingId = some b → s.liveAt p.2.now = false)

/-- The first execution of an allocation that finds at most one live hold. Source: migration
`100_fn_allocate_seat`. Kind: L -/
theorem stands_of_executed {train : TrainId} {passenger : String} {hold : ℕ} {p : Reply × Store}
    (hl : LocksOk σ) (h : Repeatable σ (.allocateSeat train b passenger hold))
    (hexec : Executed σ (.allocateSeat train b passenger hold) p.1 p.2) : Stands train b p := by
  rcases executed_allocateSeat hl hexec with ⟨s, hs, hb, hlive, hr, hleaves⟩ |
    ⟨hnone, ⟨hpick, hr, hleaves⟩ | ⟨s, hpick, hr, hleaves⟩⟩
  · refine .inl ⟨s, by rw [hleaves.seats]; exact hs, hr, hb, fun s' hs' hb' hlive' => ?_⟩
    rw [hleaves.seats] at hs'
    rw [hleaves.now] at hlive'
    exact h s' hs' s hs hb' hlive' hb hlive
  · refine .inr ⟨hr, ?_, fun s hs hb => ?_⟩
    · rw [pickAvailable_eq hleaves.seats hl.seat_lock_ne fun k w hlock => ?_]
      · exact hpick
      · exact (hexec.locks hl).seat_lock_ne k w (by rw [hleaves.seats]; exact hlock)
    · rw [hleaves.seats] at hs
      rw [hleaves.now]
      exact hnone s hs hb
  · -- a fresh hold, on a seat that was free
    let u := reserve s.id b passenger (σ.now + hold)
    have hmem := (pickAvailable_eq_some hpick).1
    have htaken : u.apply s = u.set s := if_pos (beq_self_eq_true s.id)
    refine .inl ⟨u.apply s, ?_, ?_, ?_, fun s' hs' hb' hlive' => ?_⟩
    · rw [hleaves.seats]
      exact Versioned.mem_modify.mpr ⟨s, hmem, rfl⟩
    · rw [hr, htaken]
      rfl
    · rw [htaken]
      rfl
    · rw [hleaves.seats] at hs'
      rw [hleaves.now] at hlive'
      obtain ⟨s₀, hs₀, rfl⟩ := Versioned.mem_modify.mp hs'
      by_cases hid : s₀.id = s.id
      · rw [Table.eq_of_key_eq hs₀ hmem hid]
      · have hsame : u.apply s₀ = s₀ := if_neg (by simpa [u, reserve] using hid)
        rw [hsame] at hb' hlive'
        rw [hnone s₀ hs₀ hb'] at hlive'
        cases hlive'

/-- **An allocation** is safe to repeat when the booking has at most one live hold. Source: migration
`100_fn_allocate_seat`. Kind: L -/
theorem safeToRepeat_allocateSeat {train : TrainId} {passenger : String} {hold : ℕ} (hl : LocksOk σ)
    (h : Repeatable σ (.allocateSeat train b passenger hold)) :
    SafeToRepeat σ (.allocateSeat train b passenger hold) := by
  refine safeToRepeat_of_stable (Q := Stands train b) hl (fun p => stands_of_executed hl h) ?_
  rintro ⟨r, τ⟩ q d hlocks hstands hlasts hexec
  have hcases := executed_allocateSeat (hlocks.tick d) hexec
  rcases hstands with ⟨s, hs, rfl, hb, hone⟩ | ⟨rfl, hpick, hnone⟩
  · -- the hold that was returned is live, so the guard returns it
    obtain ⟨s₁, hs₁, hid, hlive⟩ := hlasts
    obtain rfl : s₁ = s := Table.eq_of_key_eq hs₁ hs hid
    rcases hcases with ⟨s', hs', hb', hlive', hr, hleaves⟩ | ⟨hno, -⟩
    · obtain rfl : s' = s₁ := hone s' hs' hb' (liveAt_of_add hlive')
      refine ⟨.inl ⟨s', by rw [hleaves.seats]; exact hs', hr, hb, fun s'' hs'' hb'' hlive'' => ?_⟩,
        hleaves.seats, hleaves.bookings, fun _ => hr⟩
      rw [hleaves.seats] at hs''
      rw [hleaves.now] at hlive''
      exact hone s'' hs'' hb'' (liveAt_of_add hlive'')
    · have hdead := hno s₁ hs hb
      rw [hlive] at hdead
      cases hdead
  · rcases hcases with ⟨s', hs', hb', hlive', -⟩ | ⟨hno, ⟨-, hr, hleaves⟩ | ⟨s', hpick', -⟩⟩
    · have hdead := hnone s' hs' hb'
      rw [liveAt_of_add hlive'] at hdead
      cases hdead
    · refine ⟨.inr ⟨hr, ?_, fun s hs hb => ?_⟩, hleaves.seats, hleaves.bookings, fun _ => hr⟩
      · rw [pickAvailable_eq (σ := τ) (i := τ.execs.length) hleaves.seats hlocks.seat_lock_ne
          fun k w hlock => ?_]
        · exact hpick
        · exact (hexec.locks (hlocks.tick d)).seat_lock_ne k w (by rw [hleaves.seats]; exact hlock)
      · rw [hleaves.seats] at hs
        rw [hleaves.now]
        exact hno s hs hb
    · have hsome : τ.pickAvailable τ.execs.length train = some s' := hpick'
      rw [hpick] at hsome
      cases hsome

/-- **The guard may return one live hold and then another.** Source: migration `100_fn_allocate_seat`,
statement 1 (`LIMIT 1` without `ORDER BY`). Kind: L -/
theorem repeatable_of_safe {train : TrainId} {passenger : String} {hold : ℕ} (hl : LocksOk σ)
    (hsafe : SafeToRepeat σ (.allocateSeat train b passenger hold)) :
    Repeatable σ (.allocateSeat train b passenger hold) := by
  intro s hs s' hs' hb hlive hb' hlive'
  obtain ⟨τ, hexec⟩ := executed_of_liveHold train passenger hold hs hb hlive
  rcases executed_allocateSeat hl hexec with ⟨_, -, -, -, -, hleaves⟩ | ⟨hno, -⟩
  · have hlater : ∀ w : Seat, w.liveAt σ.now = true → w.liveAt (τ.now + 0) = true := by
      intro w hw
      rw [hleaves.now]
      exact hw
    have hmem : ∀ w, w ∈ σ.seats.committed → w ∈ τ.seats.committed := by
      intro w hw
      rw [hleaves.seats]
      exact hw
    obtain ⟨τ', hexec'⟩ := executed_of_liveHold (σ := { τ with now := τ.now + 0 }) train passenger hold
      (hmem s' hs') hb' (hlater s' hlive')
    have hlasts : Lasts (.allocateSeat train b passenger hold) (.allocated (some (s.id, s.version))) τ 0 :=
      ⟨s, hmem s hs, rfl, hlater s hlive⟩
    have hsame := (hsafe (_, τ) (_, τ') hexec (.single ⟨0, hlasts, hexec'⟩)).2.2 rfl
    simp only [Reply.allocated.injEq, Option.some.injEq, Prod.mk.injEq] at hsame
    exact Table.eq_of_key_eq hs hs' hsame.1.symm
  · have hdead := hno s hs hb
    rw [hlive] at hdead
    cases hdead

end safe

/-- Nobody has the advisory lock at the start. Source: none: infrastructure. Kind: L -/
theorem Initial.skips {σ : Store} (h : Initial σ) : Skips σ where
  holder i hi := by
    rw [h.advisory_free] at hi
    cases hi
  skipped _ _ _ he := absurd he h.no_exec

/-- In a reachable store the advisory lock is held by a sweep. Source: migration
`130_fn_sweep_expired_holds`. Kind: L -/
theorem skips_of_reach {σ : Store} {C : Store → Action → Prop} (h : Reach step Initial C σ) : Skips σ :=
  h.invariant (fun _ hinit => hinit.skips) fun _ _ _ _ hskips _ ha => hskips.step ha

/-- **When a call is safe to repeat.** In every reachable store, for each of the calls that `pgPolicy` may
execute again: any number of executions, before the hold runs out, leave the seats and bookings the first
one left and return what it returned, exactly when the call is `Repeatable`. Source:
`lib/resilience/pg-policy.ts`, `lib/allocation/hold-state-machine.ts`. Kind: P -/
theorem safe_to_repeat_iff : ∀ (σ : Store) (call : Call), Reach step Initial Always σ →
    call.policyWrapped = true → (SafeToRepeat σ call ↔ Repeatable σ call) := by
  intro σ call hreach hwrapped
  have hl := (inv_of_reach hreach).locks
  cases call with
  | allocateSeat train b passenger hold =>
    exact ⟨repeatable_of_safe hl, safeToRepeat_allocateSeat hl⟩
  | confirmBooking b seat payment =>
    refine ⟨fun hsafe => ?_, safeToRepeat_confirmBooking hl⟩
    exact Bool.eq_false_iff.mpr fun hcan => not_safeToRepeat_of_confirmable hl hcan hsafe
  | releaseHoldRetryable b => exact iff_of_true (safeToRepeat_release hl rfl) trivial
  | releaseHoldTerminal b reason => exact iff_of_true (safeToRepeat_release hl rfl) trivial
  | sweepExpiredHolds =>
    exact iff_of_true (safeToRepeat_sweepExpiredHolds hl (skips_of_reach hreach)) trivial
  | _ => cases hwrapped

/-- A booking is created, paid and held. Source: none: infrastructure. Kind: D -/
def paidHold : List Action :=
  oneCall 0 (.createBooking ⟨"k", "12951", "Asha", none, 126000⟩) 1 ++
  oneCall 1 (.charge 126000 "k") 2 ++ oneCall 2 (.allocateSeat "12951" 1 "Asha" 300) 2

/-- The allocation and the releases of a booking with one live hold are safe to repeat, its confirmation is
not. Source: `lib/allocation/hold-state-machine.ts`. Kind: L -/
theorem safe_to_repeat_iff_paidHold : ∃ σ, SafeToRepeat σ (.allocateSeat "12951" 1 "Asha" 300) ∧
    SafeToRepeat σ (.releaseHoldRetryable 1) ∧ ¬ SafeToRepeat σ (.confirmBooking 1 "12951-A1" 1) := by
  have hrun : (run step twoSeats paidHold).map (fun σ => σ.confirmable 1 "12951-A1" 1 &&
      decide ((σ.seats.committed.select fun s => s.bookingId == some 1).length = 1)) = some true := by
    decide +kernel
  obtain ⟨σ, hreach, hcheck⟩ := reach_of_run initial_twoSeats hrun
  simp only [Bool.and_eq_true, decide_eq_true_eq] at hcheck
  obtain ⟨hcan, hone⟩ := hcheck
  obtain ⟨w, hw⟩ := List.length_eq_one_iff.mp hone
  have honly : ∀ s ∈ σ.seats.committed, s.bookingId = some 1 → s = w := by
    intro s hs hb
    have hmem : s ∈ σ.seats.committed.select fun s => s.bookingId == some 1 :=
      Table.mem_select.mpr ⟨hs, by simp [hb]⟩
    rw [hw] at hmem
    exact List.mem_singleton.mp hmem
  refine ⟨σ, ?_, ?_, ?_⟩
  · refine (safe_to_repeat_iff σ _ hreach rfl).mpr fun s hs s' hs' hb _ hb' _ => ?_
    rw [honly s hs hb, honly s' hs' hb']
  · exact (safe_to_repeat_iff σ _ hreach rfl).mpr trivial
  · intro hsafe
    have hcannot := (safe_to_repeat_iff σ _ hreach rfl).mp hsafe
    rw [Repeatable, hcan] at hcannot
    cases hcannot

/-- **Re-execution is not always safe**: a confirmation whose reply is lost returns no row when it is
executed again, as if the hold had run out. Source: `lib/allocation/hold-state-machine.ts` `confirmHold`,
migration `110_fn_confirm_booking`. Kind: P -/
theorem not_safe_to_repeat : ¬ ∀ (σ : Store) (call : Call), Reach step Initial Always σ →
    call.policyWrapped = true → SafeToRepeat σ call := by
  intro hall
  have hrun : (run step twoSeats paidHold).map (·.confirmable 1 "12951-A1" 1) = some true := by
    decide +kernel
  obtain ⟨σ, hreach, hcan⟩ := reach_of_run initial_twoSeats hrun
  exact not_safeToRepeat_of_confirmable (inv_of_reach hreach).locks hcan
    (hall σ (.confirmBooking 1 "12951-A1" 1) hreach rfl)

end Store

end TrainsAndTracks
