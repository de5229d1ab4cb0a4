import TrainsAndTracks.Store.Writes

/-!
# What an execution has established

For each kind of call, what holds of the store at the point its execution has reached: the locks it
holds before its commit, and what its reply means after it. Every predicate is kept by the steps of
the other executions (they cannot touch a locked row, and committed facts only grow) and by its own.

* `ConfirmOk` — `confirm_booking`: the seat version before the booking version, both at a reply
  with a row, and a seat version without a booking version only for a booking that is settled.
* `FailOk` — a call that fails a booking leaves it settled.
* `SweepOk` — a sweep that frees a seat of a `PENDING` booking expires the booking.
* `ReplyOk` — the replies of the calls that commit by themselves.

`Inv` holds of every reachable store; `Trusted` adds what needs callers that know what they send
(`CallOk`), which the handlers of the pipeline do.
-/

namespace TrainsAndTracks

open Found

namespace Store

/-! ## Induction over the executions -/

section induction

variable {σ σ' : Store} {a : Action}

/-- The point after a statement that ran. Source: none: infrastructure. Kind: D -/
def nextOf : Stmt → Pc
  | .select next | .update _ _ next | .tryAdvisoryLock next | .insertBooking _ next
  | .insertPayment _ next | .insertKey _ next | .updateKeys _ next | .insertDlqJob _ next
  | .updateDlqJobs _ next => next
  | .raise => .failed

/-- The row a statement has inserted. Source: none: infrastructure. Kind: D -/
def Stored (σ : Store) : Stmt → Prop
  | .insertBooking row _ => σ.bookings.committed.find? row.id = some row
  | .insertPayment row _ => σ.payments.find? row.id = some row
  | .insertKey row _ => σ.idempotencyKeys.find? row.idempotencyKey = some row
  | .insertDlqJob row _ => σ.dlqJobs.find? row.id = some row
  | _ => True

/-- The execution that moved. Source: none: infrastructure. Kind: L -/
theorem goto_exec_eq {i : ℕ} {next : Pc} {e e' : Exec} (he : σ.execs[i]? = some e)
    (he' : (σ.goto i next).execs[i]? = some e') : e' = { e with pc := next } := by
  rw [goto_exec_self, he] at he'
  exact (Option.some.inj he').symm

/-- An execution that has not begun or has failed has returned nothing. Source: none: infrastructure.
Kind: L -/
theorem not_returned {pc : Pc} (h : pc = .sent ∨ pc = .start ∨ pc = .failed) (r : Reply) :
    ¬ (pc = .ret r ∨ pc = .done r) := by
  rcases h with rfl | rfl | rfl <;> simp

/-- An execution that has not begun or has failed holds no locks. Source: none: infrastructure. Kind: L -/
theorem not_locking {pc : Pc} (h : pc = .sent ∨ pc = .start ∨ pc = .failed) : locking pc = false := by
  rcases h with rfl | rfl | rfl <;> rfl

/-- **The rule for facts about executions.** A fact about each execution survives a step when the
steps of the others keep it, it holds of an execution that has not begun or has failed, and it is
restored by a `SELECT`, an `UPDATE`, a commit and a statement that commits by itself.
Source: none: infrastructure. Kind: L -/
theorem Stepped.forall_execs {P : Store → ℕ → Exec → Prop} (hs : Stepped σ a σ')
    (hP : ∀ i e, σ.execs[i]? = some e → P σ i e)
    (hothers : ∀ i e, a.actor ≠ some i → σ.execs[i]? = some e → P σ i e → P σ' i e)
    (hidle : ∀ i e, σ'.execs[i]? = some e → e.pc = .sent ∨ e.pc = .start ∨ e.pc = .failed →
      P σ' i e)
    (hselect : ∀ i e next ch, a = .exec i ch → σ.execs[i]? = some e → P σ i e →
      Runs σ i e.now e.call e.pc (.select next) → P (σ.goto i next) i { e with pc := next })
    (hupdate : ∀ i e us ub next seats bookings ch, a = .exec i ch → σ.execs[i]? = some e → P σ i e →
      Runs σ i e.now e.call e.pc (.update us ub next) → σ.seats.update i us = some seats →
      σ.bookings.update i ub = some bookings →
      P ({ σ with seats := seats, bookings := bookings }.goto i next) i { e with pc := next })
    (hcommit : ∀ i e r, σ.execs[i]? = some e → P σ i e → e.pc = .ret r →
      σ'.seats = σ.seats.commit i → σ'.bookings = σ.bookings.commit i → Stepped σ a σ' →
      P σ' i { e with pc := .done r })
    (halone : ∀ i e st, σ.execs[i]? = some e → P σ i e → Runs σ i e.now e.call e.pc st →
      transactional st = false → Stored σ' st → σ'.seats = σ.seats → Stepped σ a σ' →
      σ'.execs[i]? = some { e with pc := nextOf st } → P σ' i { e with pc := nextOf st }) :
    ∀ i e, σ'.execs[i]? = some e → P σ' i e := by
  intro i e' he'
  rcases hs.exec_new he' with ⟨e, he⟩ | ⟨call, client, rfl, rfl, rfl⟩
  · by_cases ha : a.actor = some i
    · have hs' := hs
      cases hs with
      | begin => cases ha
      | tick => cases ha
      | start hi hpc =>
        cases ha
        refine hidle i e' he' (.inr (.inl ?_))
        simp only [List.getElem?_modify_eq, he, Option.map_eq_map, Option.map_some] at he'
        cases he'
        rfl
      | raised hi hpc | aborted hi hpc =>
        cases ha
        refine hidle i e' he' (.inr (.inr ?_))
        rw [goto_exec_eq he he']
      | select hi hr =>
        cases ha
        obtain rfl := Option.eq_some_unique he hi
        obtain rfl := goto_exec_eq he he'
        exact hselect i e _ _ rfl he (hP i e he) hr
      | update hi hr hseats hbookings =>
        cases ha
        obtain rfl := Option.eq_some_unique he hi
        obtain rfl := goto_exec_eq he he'
        exact hupdate i e _ _ _ _ _ _ rfl he (hP i e he) hr hseats hbookings
      | commit hi hpc =>
        cases ha
        obtain rfl := Option.eq_some_unique he hi
        obtain rfl := goto_exec_eq he he'
        exact hcommit i e _ he (hP i e he) hpc rfl rfl hs'
      | lockAdvisory hi hr | updateKeys hi hr | updateDlqJobs hi hr =>
        cases ha
        obtain rfl := Option.eq_some_unique he hi
        obtain rfl := goto_exec_eq he he'
        exact halone i e _ he (hP i e he) hr rfl trivial rfl hs' he'
      | insertBooking hi hr hnew | insertPayment hi hr hnew | insertKey hi hr hnew
      | insertDlqJob hi hr hnew =>
        cases ha
        obtain rfl := Option.eq_some_unique he hi
        obtain rfl := goto_exec_eq he he'
        exact halone i e _ he (hP i e he) hr rfl (by
          simp only [Stored, goto_bookings, goto_payments, goto_idempotencyKeys, goto_dlqJobs,
            Versioned.insert]
          exact (Table.find?_insert _ _ hnew _).trans (if_pos rfl)) rfl hs' he'
    · have hsame := hs.exec_of_ne ha he
      obtain rfl := Option.eq_some_unique he' hsame
      exact hothers i e' ha he (hP i e' he)
  · exact hidle _ _ he' (.inl rfl)

/-- A transaction that has returned issues nothing. Source: none: infrastructure. Kind: L -/
theorem Runs.ne_ret {i : ℕ} {now : Time} {call : Call} {pc : Pc} {st : Stmt}
    (h : Runs σ i now call pc st) (r : Reply) : pc ≠ .ret r := by
  cases h <;> simp

/-- A transaction that has failed issues nothing. Source: none: infrastructure. Kind: L -/
theorem Runs.ne_failed {i : ℕ} {now : Time} {call : Call} {pc : Pc} {st : Stmt}
    (h : Runs σ i now call pc st) : pc ≠ .failed := by
  cases h <;> simp

/-- **The execution that moves** starts, runs a statement, fails or commits.
Source: none: infrastructure. Kind: L -/
theorem Stepped.exec_moved (hs : Stepped σ a σ') {i : ℕ} {e e' : Exec} (ha : a.actor = some i)
    (he : σ.execs[i]? = some e) (he' : σ'.execs[i]? = some e') :
    (e.pc = .sent ∧ e'.pc = .start) ∨
    (∃ ch st, a = .exec i ch ∧ Runs σ i e.now e.call e.pc st ∧ e'.pc = nextOf st) ∨
    (e'.pc = .failed ∧ (∀ r, e.pc ≠ .done r) ∧ ∀ j, a ≠ .commit j) ∨
    ∃ r, e.pc = .ret r ∧ e'.pc = .done r := by
  cases hs with
  | begin | tick => cases ha
  | start hi hpc =>
    cases ha
    obtain rfl := Option.eq_some_unique he hi
    simp only [List.getElem?_modify_eq, he, Option.map_eq_map, Option.map_some] at he'
    cases he'
    exact .inl ⟨hpc, rfl⟩
  | raised hi hpc | aborted hi hpc =>
    cases ha
    obtain rfl := Option.eq_some_unique he hi
    obtain rfl := goto_exec_eq he he'
    exact .inr (.inr (.inl ⟨rfl, hpc, by simp⟩))
  | commit hi hpc =>
    cases ha
    obtain rfl := Option.eq_some_unique he hi
    obtain rfl := goto_exec_eq he he'
    exact .inr (.inr (.inr ⟨_, hpc, rfl⟩))
  | select hi hr | update hi hr | lockAdvisory hi hr | insertBooking hi hr | insertPayment hi hr
  | insertKey hi hr | updateKeys hi hr | insertDlqJob hi hr | updateDlqJobs hi hr =>
    cases ha
    obtain rfl := Option.eq_some_unique he hi
    obtain rfl := goto_exec_eq he he'
    exact .inr (.inl ⟨_, _, rfl, hr, rfl⟩)

/-- An execution that has committed stays as it is. Source: none: infrastructure. Kind: L -/
theorem Stepped.done_stays (hs : Stepped σ a σ') {i : ℕ} {e : Exec} {r : Reply}
    (he : σ.execs[i]? = some e) (hpc : e.pc = .done r) : σ'.execs[i]? = some e := by
  by_cases ha : a.actor = some i
  · obtain ⟨e', he', -⟩ := hs.exec_old he
    rcases hs.exec_moved ha he he' with ⟨hsent, -⟩ | ⟨_, _, -, hr, -⟩ | ⟨-, hdone, -⟩ | ⟨_, hret, -⟩
    · rw [hpc] at hsent
      cases hsent
    · exact absurd hpc (hr.ne_done r)
    · exact absurd hpc (hdone r)
    · rw [hpc] at hret
      cases hret
  · exact hs.exec_of_ne ha he

/-- An execution at a point without locks holds none. Source: none: infrastructure. Kind: L -/
theorem LocksOk.no_seat_lock (hl : LocksOk σ) {i : ℕ} {e : Exec} (he : σ.execs[i]? = some e)
    (hpc : locking e.pc = false) (k : SeatId) (w : Seat) : σ.seats.lock k ≠ some (i, w) := by
  intro hlock
  obtain ⟨s, -, e', he', hlocking, -⟩ := hl.seats k i w hlock
  obtain rfl := Option.eq_some_unique he he'
  rw [hpc] at hlocking
  cases hlocking

/-- An execution at a point without locks holds none. Source: none: infrastructure. Kind: L -/
theorem LocksOk.no_booking_lock (hl : LocksOk σ) {i : ℕ} {e : Exec} (he : σ.execs[i]? = some e)
    (hpc : locking e.pc = false) (b : BookingId) (w : Booking) :
    σ.bookings.lock b ≠ some (i, w) := by
  intro hlock
  obtain ⟨s, -, e', he', hlocking, -⟩ := hl.bookings b i w hlock
  obtain rfl := Option.eq_some_unique he he'
  rw [hpc] at hlocking
  cases hlocking

/-- The version a booking is locked with is a write of the execution that holds it.
Source: none: infrastructure. Kind: L -/
theorem LocksOk.booking_write (hl : LocksOk σ) {i : ℕ} {e : Exec} (he : σ.execs[i]? = some e)
    {b : BookingId} {w : Booking} (hlock : σ.bookings.lock b = some (i, w)) :
    ∃ r, σ.bookings.committed.find? b = some r ∧ BookingWrite e.call e.now r w := by
  obtain ⟨r, hr, e', he', -, hw⟩ := hl.bookings b i w hlock
  obtain rfl := Option.eq_some_unique he he'
  exact ⟨r, hr, hw⟩

/-- The version a seat is locked with is a write of the execution that holds it.
Source: none: infrastructure. Kind: L -/
theorem LocksOk.seat_write (hl : LocksOk σ) {i : ℕ} {e : Exec} (he : σ.execs[i]? = some e)
    {k : SeatId} {w : Seat} (hlock : σ.seats.lock k = some (i, w)) :
    ∃ s, σ.seats.committed.find? k = some s ∧ SeatWrite e.call e.now s w := by
  obtain ⟨s, hs, e', he', -, hw⟩ := hl.seats k i w hlock
  obtain rfl := Option.eq_some_unique he he'
  exact ⟨s, hs, hw⟩

end induction

/-! ## Settled bookings -/

/-- The booking exists and is no longer `PENDING`. Source: `app/api/worker/allocate/route.ts`
(step 3). Kind: D -/
def Settled (σ : Store) (b : BookingId) : Prop :=
  ∃ r, σ.bookings.committed.find? b = some r ∧ r.status ≠ .pending

section settled

variable {σ σ' : Store} {i : ℕ} {b : BookingId}

/-- The row of a settled booking stays. Source: none: infrastructure. Kind: L -/
theorem Le.settled (hle : Le σ σ') {r : Booking} (hr : σ.bookings.committed.find? b = some r)
    (hne : r.status ≠ .pending) : σ'.bookings.committed.find? b = some r := by
  obtain ⟨r', hr', hg⟩ := hle.booking b r hr
  rw [hr', hg.settled hne]

/-- A settled booking stays settled. Source: none: infrastructure. Kind: L -/
theorem Settled.mono (hle : Le σ σ') (h : Settled σ b) : Settled σ' b := by
  obtain ⟨r, hr, hne⟩ := h
  exact ⟨r, hle.settled hr hne, hne⟩

/-- A commit settles a booking whose version it publishes. Source: none: infrastructure. Kind: L -/
theorem settled_of_commit (hl : LocksOk σ) (hle : Le σ σ') (hσ : σ'.bookings = σ.bookings.commit i)
    {r : Booking} (hr : σ.bookings.committed.find? b = some r)
    (hlock : r.status = .pending → ∃ w, σ.bookings.lock b = some (i, w)) : Settled σ' b := by
  by_cases hp : r.status = .pending
  · obtain ⟨w, hw⟩ := hlock hp
    obtain ⟨_, -, _, -, -, hwrite⟩ := hl.bookings b i w hw
    exact ⟨w, by rw [hσ, Versioned.find?_commit_of_own hr hw], hwrite.settles⟩
  · exact ⟨r, hle.settled hr hp, hp⟩

end settled

/-! ## `confirm_booking` -/

/-- What `confirm_booking(b, seat, payment)` has established at `pc`.
Source: migration `110_fn_confirm_booking`. Kind: D -/
structure ConfirmOk (σ : Store) (i : ℕ) (b : BookingId) (seat : SeatId) (payment : PaymentId)
    (pc : Pc) : Prop where
  /-- The first statement has seen the booking. -/
  known : pc = .confirmSeat ∨ pc = .confirmRow → ∃ r, σ.bookings.committed.find? b = some r
  /-- It returns a row or none. -/
  reply : ∀ r, pc = .ret r → ∃ row, r = .confirmed row
  /-- The booking is updated after the seat. -/
  seat_locked : (pc = .confirmRow ∨ ∃ b', pc = .ret (.confirmed (some b'))) →
    ∃ w, σ.seats.lock seat = some (i, w)
  /-- A returned row is a booking version. -/
  row_locked : ∀ b', pc = .ret (.confirmed (some b')) → ∃ w, σ.bookings.lock b = some (i, w)
  /-- A booking version comes with a returned row. -/
  row_unlocked : (∀ b', pc ≠ .ret (.confirmed (some b'))) → ∀ k w, σ.bookings.lock k ≠ some (i, w)
  /-- A seat version without a booking version: the booking is settled. -/
  row_lost : pc = .ret (.confirmed none) → ∀ k w, σ.seats.lock k = some (i, w) →
    ∃ r, σ.bookings.committed.find? b = some r ∧ r.status ≠ .pending
  /-- After the commit. -/
  confirmed : ∀ b', pc = .done (.confirmed (some b')) →
    ∃ r, σ.bookings.committed.find? b = some r ∧ r.status = .confirmed ∧ r.seatId = some seat ∧
      r.paymentId = some payment

section confirm

variable {σ σ' : Store} {a : Action} {i : ℕ} {b : BookingId} {seat : SeatId} {payment : PaymentId}

/-- The steps of the others keep it. Source: none: infrastructure. Kind: L -/
theorem ConfirmOk.of_ne {pc : Pc} (h : ConfirmOk σ i b seat payment pc) (hle : Le σ σ')
    (hs : Stepped σ a σ') (ha : a.actor ≠ some i) : ConfirmOk σ' i b seat payment pc where
  known hpc := by
    obtain ⟨r, hr⟩ := h.known hpc
    obtain ⟨r', hr', -⟩ := hle.booking b r hr
    exact ⟨r', hr'⟩
  reply := h.reply
  seat_locked hpc := by
    obtain ⟨w, hw⟩ := h.seat_locked hpc
    exact ⟨w, (hs.seat_lock_iff ha).mpr hw⟩
  row_locked b' hpc := by
    obtain ⟨w, hw⟩ := h.row_locked b' hpc
    exact ⟨w, (hs.booking_lock_iff ha).mpr hw⟩
  row_unlocked hpc k w hlock := h.row_unlocked hpc k w ((hs.booking_lock_iff ha).mp hlock)
  row_lost hpc k w hlock := by
    obtain ⟨r, hr, hne⟩ := h.row_lost hpc k w ((hs.seat_lock_iff ha).mp hlock)
    exact ⟨r, hle.settled hr hne, hne⟩
  confirmed b' hpc := by
    obtain ⟨r, hr, hst, hrest⟩ := h.confirmed b' hpc
    exact ⟨r, hle.settled hr (by rw [hst]; simp), hst, hrest⟩

/-- An execution without locks, before its first update or after its end without a row.
Source: none: infrastructure. Kind: L -/
theorem ConfirmOk.of_unlocked {pc : Pc}
    (hpc : pc ≠ .confirmSeat ∧ pc ≠ .confirmRow ∧
      ∀ b', pc ≠ .ret (.confirmed (some b')) ∧ pc ≠ .done (.confirmed (some b')))
    (hreply : ∀ r, pc = .ret r → ∃ row, r = .confirmed row)
    (hseats : ∀ k w, σ.seats.lock k ≠ some (i, w))
    (hbookings : ∀ k w, σ.bookings.lock k ≠ some (i, w)) : ConfirmOk σ i b seat payment pc := by
  obtain ⟨hseat, hrow, hret⟩ := hpc
  refine ⟨?_, hreply, ?_, fun b' h => absurd h (hret b').1, fun _ => hbookings,
    fun _ k w hlock => absurd hlock (hseats k w), fun b' h => absurd h (hret b').2⟩
  · rintro (h | h)
    · exact absurd h hseat
    · exact absurd h hrow
  · rintro (h | ⟨b', h⟩)
    · exact absurd h hrow
    · exact absurd h (hret b').1

/-- A `SELECT` of its own keeps it. Source: migration `110_fn_confirm_booking`. Kind: L -/
theorem ConfirmOk.of_select (hl : LocksOk σ) {e : Exec} {next : Pc}
    (h : ConfirmOk σ i b seat payment e.pc) (he : σ.execs[i]? = some e)
    (hr : Runs σ i e.now (.confirmBooking b seat payment) e.pc (.select next)) :
    ConfirmOk (σ.goto i next) i b seat payment next := by
  have hseat := hl.no_seat_lock he
  have hbooking := hl.no_booking_lock he
  generalize e.pc = pc at *
  cases hr with
  | confirmSettled hno => exact .of_unlocked (by simp) (by simp) (hseat rfl) (hbooking rfl)
  | holdLost hno => exact .of_unlocked (by simp) (by simp) (hseat rfl) (hbooking rfl)
  | confirmOpen hr =>
    exact ⟨fun _ => ⟨_, hr⟩, by simp, by simp, by simp, fun _ => hbooking rfl, by simp, by simp⟩
  | rowLost hno =>
    refine ⟨by simp, by simp, by simp, by simp, fun _ => h.row_unlocked (by simp),
      fun _ k w _ => ?_, by simp⟩
    obtain ⟨r, hr⟩ := h.known (.inr rfl)
    refine ⟨r, hr, fun hp => ?_⟩
    have hid : r.id = b := Table.key_of_find? hr
    have hc := hno r (Table.mem_of_find? hr)
    rw [confirmRowUpdate_cond_iff.mpr ⟨hid, hp⟩] at hc
    cases hc
  | releaseSnapshot hcall => cases hcall

/-- An `UPDATE` of its own keeps it. Source: migration `110_fn_confirm_booking`. Kind: L -/
theorem ConfirmOk.of_update (hl : LocksOk σ) {e : Exec} {us : Update Seat} {ub : Update Booking}
    {seats : Versioned ℕ Seat} {bookings : Versioned ℕ Booking} {next : Pc}
    (h : ConfirmOk σ i b seat payment e.pc) (he : σ.execs[i]? = some e)
    (hr : Runs σ i e.now (.confirmBooking b seat payment) e.pc (.update us ub next))
    (hseats : σ.seats.update i us = some seats)
    (hbookings : σ.bookings.update i ub = some bookings) :
    ConfirmOk ({ σ with seats := seats, bookings := bookings }.goto i next) i b seat payment
      next := by
  have hbooking := hl.no_booking_lock he
  generalize e.pc = pc at *
  cases hr with
  | @confirmSeat _ _ _ s hs hcond =>
    rw [Versioned.update_skip] at hbookings
    cases hbookings
    have hid : s.id = seat := (confirmSeatUpdate_cond_iff.mp hcond).1
    have hfind : σ.seats.committed.find? seat = some s := by
      rw [← hid]
      exact Table.find?_of_mem hs
    exact ⟨fun _ => h.known (.inl rfl), by simp,
      fun _ => ⟨_, Versioned.lock_update_of_cond hseats hfind hcond⟩, by simp,
      fun _ => hbooking rfl, by simp, by simp⟩
  | @confirmRow _ _ _ r hr hcond =>
    rw [Versioned.update_skip] at hseats
    cases hseats
    have hid : r.id = b := (confirmRowUpdate_cond_iff.mp hcond).1
    have hfind : σ.bookings.committed.find? b = some r := by
      rw [← hid]
      exact Table.find?_of_mem hr
    exact ⟨by simp, by simp, fun _ => h.seat_locked (.inl rfl),
      fun _ _ => ⟨_, Versioned.lock_update_of_cond hbookings hfind hcond⟩,
      fun hne => absurd rfl (hne b), by simp, by simp⟩
  | releaseSeatsOnly hcall | releaseSeatsThenRow hcall | releaseRow hcall => cases hcall

/-- Its commit keeps it. Source: migration `110_fn_confirm_booking`. Kind: L -/
theorem ConfirmOk.of_commit (hl : LocksOk σ) {e : Exec} {r : Reply}
    (hcall : e.call = .confirmBooking b seat payment) (h : ConfirmOk σ i b seat payment e.pc)
    (he : σ.execs[i]? = some e) (hpc : e.pc = .ret r) (hσ : σ'.bookings = σ.bookings.commit i) :
    ConfirmOk σ' i b seat payment (.done r) := by
  refine ⟨by simp, by simp, by simp, by simp, fun _ k w hlock => ?_, by simp, fun b' hr => ?_⟩
  · rw [hσ] at hlock
    exact (Versioned.lock_commit_iff.mp hlock).2 rfl
  · cases hr
    obtain ⟨w, hlock⟩ := h.row_locked b' hpc
    obtain ⟨r, hr, hw⟩ := hl.booking_write he hlock
    rw [hcall] at hw
    exact ⟨w, by rw [hσ, Versioned.find?_commit_of_own hr hlock], hw.of_confirmBooking⟩

/-- **`confirm_booking`.** Its facts survive every step. Source: migration
`110_fn_confirm_booking`. Kind: L -/
theorem Stepped.confirmOk (hl : LocksOk σ) (hs : Stepped σ a σ')
    (h : ∀ i e, σ.execs[i]? = some e → ∀ b seat payment,
      e.call = .confirmBooking b seat payment → ConfirmOk σ i b seat payment e.pc) :
    ∀ i e, σ'.execs[i]? = some e → ∀ b seat payment,
      e.call = .confirmBooking b seat payment → ConfirmOk σ' i b seat payment e.pc := by
  have hl' := hl.step hs
  refine hs.forall_execs (P := fun σ i e => ∀ b seat payment,
    e.call = .confirmBooking b seat payment → ConfirmOk σ i b seat payment e.pc) h ?_ ?_ ?_ ?_ ?_ ?_
  · intro i e ha he hP b seat payment hcall
    exact (hP b seat payment hcall).of_ne (hs.le hl) hs ha
  · intro i e he hpc b seat payment hcall
    have hfree := not_locking hpc
    exact .of_unlocked (by rcases hpc with h | h | h <;> simp [h])
      (by rcases hpc with h | h | h <;> simp [h]) (hl'.no_seat_lock he hfree)
      (hl'.no_booking_lock he hfree)
  · intro i e next _ _ he hP hr b seat payment hcall
    exact (hP b seat payment hcall).of_select hl he (hcall ▸ hr)
  · intro i e us ub next seats bookings _ _ he hP hr hseats hbookings b seat payment hcall
    exact (hP b seat payment hcall).of_update hl he (hcall ▸ hr) hseats hbookings
  · intro i e r he hP hpc _ hbookings _ b seat payment hcall
    exact ConfirmOk.of_commit (e := e) hl hcall (hP b seat payment hcall) he hpc hbookings
  · intro i e st he hP hr hst _ _ _ _ b seat payment hcall
    rw [show e.call = .confirmBooking b seat payment from hcall] at hr
    generalize e.pc = pc at hr
    cases hr <;> cases hst

/-- A `confirm_booking` that commits a seat leaves the booking settled. Source: migration
`110_fn_confirm_booking`. Kind: L -/
theorem ConfirmOk.settled_of_commit {pc : Pc} (h : ConfirmOk σ i b seat payment pc)
    (hl : LocksOk σ) (hs : Stepped σ (.commit i) σ') {reply : Reply} {k : SeatId} {w : Seat}
    (hpc : pc = .ret reply) (hlock : σ.seats.lock k = some (i, w)) : Settled σ' b := by
  obtain ⟨row, rfl⟩ := h.reply reply hpc
  cases row with
  | none =>
    obtain ⟨r, hr, hne⟩ := h.row_lost hpc k w hlock
    exact Settled.mono (hs.le hl) ⟨r, hr, hne⟩
  | some b' =>
    obtain ⟨w', hw'⟩ := h.row_locked b' hpc
    obtain ⟨r, hr, -⟩ := hl.bookings b i w' hw'
    exact Store.settled_of_commit hl (hs.le hl) hs.of_commit.2.1 hr fun _ => ⟨w', hw'⟩

end confirm

/-! ## References to bookings -/

/-- Each seat that names a booking names one that exists, and its train and the booking's are
related by `Q`; so does each open version. Source: migration `160_fk_seats_booking_id`. Kind: D -/
structure RefOk (Q : TrainId → TrainId → Prop) (σ : Store) : Prop where
  committed : ∀ k s b, σ.seats.committed.find? k = some s → s.bookingId = some b →
    ∃ r, σ.bookings.committed.find? b = some r ∧ Q r.trainId s.trainId
  open_ : ∀ k i w b, σ.seats.lock k = some (i, w) → w.bookingId = some b →
    ∃ r, σ.bookings.committed.find? b = some r ∧ Q r.trainId w.trainId

section references

variable {σ σ' : Store} {a : Action} {Q : TrainId → TrainId → Prop}

/-- A reference survives, and so does what is known of the trains. Source: none: infrastructure.
Kind: L -/
theorem Le.refers (hle : Le σ σ') {b : BookingId} {t : TrainId}
    (h : ∃ r, σ.bookings.committed.find? b = some r ∧ Q r.trainId t) :
    ∃ r, σ'.bookings.committed.find? b = some r ∧ Q r.trainId t := by
  obtain ⟨r, hr, hq⟩ := h
  obtain ⟨r', hr', hg⟩ := hle.booking b r hr
  exact ⟨r', hr', by rw [hg.trainId]; exact hq⟩

/-- A statement makes no version that names an unknown booking. Source: migration
`100_fn_allocate_seat`, `160_fk_seats_booking_id`. Kind: L -/
theorem Runs.refers {i : ℕ} {now : Time} {call : Call} {pc next : Pc} {us : Update Seat}
    {ub : Update Booking} (h : RefOk Q σ) (hr : Runs σ i now call pc (.update us ub next))
    (hQ : ∀ train b passenger hold r, call = .allocateSeat train b passenger hold →
      σ.bookings.committed.find? b = some r → Q r.trainId train)
    {k : SeatId} {s : Seat} {b : BookingId} (hs : σ.seats.committed.find? k = some s)
    (hc : us.cond s = true) (hb : (us.set s).bookingId = some b) :
    ∃ r, σ.bookings.committed.find? b = some r ∧ Q r.trainId (us.set s).trainId := by
  cases hr with
  | @take train b' passenger hold s' r hs' htrain hfree hr =>
    have hid : s = s' := Table.eq_of_key_eq (Table.mem_of_find? hs) hs' (by simpa [reserve] using hc)
    subst hid
    cases hb
    refine ⟨r, hr, ?_⟩
    rw [show ((reserve s.id b passenger (now + hold)).set s).trainId = train from htrain]
    exact hQ train b passenger hold r rfl hr
  | confirmSeat => exact h.committed k s b hs hb
  | releaseSeatsOnly | releaseSeatsThenRow | sweepRun => cases hb
  | confirmRow | releaseRow | failUnpublished => cases hc

/-- **References survive every step.** Source: migration `160_fk_seats_booking_id`. Kind: L -/
theorem RefOk.step (hl : LocksOk σ) (h : RefOk Q σ) (hs : Stepped σ a σ')
    (hQ : ∀ (i : ℕ) (e : Exec) train b passenger hold r, σ.execs[i]? = some e →
      e.call = .allocateSeat train b passenger hold →
      σ.bookings.committed.find? b = some r → Q r.trainId train) : RefOk Q σ' := by
  have hle := hs.le hl
  constructor
  · intro k s' b hs' hb
    obtain ⟨s, hold, rfl | ⟨i, e, r, -, -, -, hlock, -⟩⟩ := seat_old hl hs hs'
    · exact hle.refers (h.committed k s' b hold hb)
    · exact hle.refers (h.open_ k i s' b hlock hb)
  · intro k j w b hlock hb
    have hback : σ.seats.lock k = some (j, w) →
        ∃ r, σ'.bookings.committed.find? b = some r ∧ Q r.trainId w.trainId :=
      fun hlock => hle.refers (h.open_ k j w b hlock hb)
    cases hs with
    | update he hr hseats hbookings =>
      rcases Versioned.lock_of_update hseats hlock with ⟨-, s, hs, hc, rfl⟩ | hlock
      · exact hle.refers (hr.refers h (fun train b' passenger hold r hcall hr =>
          hQ _ _ train b' passenger hold r he hcall hr) hs hc hb)
      · exact hback hlock
    | commit => exact hback (Versioned.lock_commit_iff.mp hlock).1
    | raised | aborted => exact hback (Versioned.lock_rollback_iff.mp hlock).1
    | _ => exact hback hlock

end references

/-! ## What the caller knows -/

/-- What the callers of the pipeline know when they send a call: the bookings they name exist, an
allocation is for the booking's train, a charge is for the booking's price, a confirmation carries a
successful payment of the booking, and a booking is created under a registered key.
Source: `app/api/worker/allocate/route.ts`, `app/api/book/route.ts`,
`app/api/webhooks/qstash-failure/route.ts`. Kind: D -/
def CallOk (σ : Store) : Call → Prop
  | .getBookingById b | .releaseHold b _ | .releaseHoldRetryable b | .releaseHoldTerminal b _
  | .failUnpublished b => ∃ r, σ.bookings.committed.find? b = some r
  | .allocateSeat train b _ _ => ∃ r, σ.bookings.committed.find? b = some r ∧ r.trainId = train
  | .confirmBooking b _ payment =>
    ∃ r p, σ.bookings.committed.find? b = some r ∧ σ.payments.find? payment = some p ∧
      p.status = .succeeded ∧ p.idempotencyKey = r.idempotencyKey
  | .charge amount k =>
    ∃ b r, σ.bookings.committed.find? b = some r ∧ r.idempotencyKey = k ∧ r.pricePaise = amount
  | .createBooking args => ∃ row, σ.idempotencyKeys.find? args.idempotencyKey = some row
  | _ => True

/-- Every call in the store was sent by a caller that knew. Source: none: infrastructure. Kind: D -/
def Informed (σ : Store) : Prop := ∀ (i : ℕ) (e : Exec), σ.execs[i]? = some e → CallOk σ e.call

/-- A step that may send only calls whose caller knows. Source: none: infrastructure. Kind: D -/
def SendsOk (σ : Store) (a : Action) : Prop :=
  ∀ call client, a = .begin call client → CallOk σ call

section informed

variable {σ σ' : Store} {a : Action}

/-- What a caller knows stays true. Source: none: infrastructure. Kind: L -/
theorem CallOk.mono (hle : Le σ σ') {call : Call} (h : CallOk σ call) : CallOk σ' call := by
  have hknown : ∀ {b}, (∃ r, σ.bookings.committed.find? b = some r) →
      ∃ r, σ'.bookings.committed.find? b = some r := by
    rintro b ⟨r, hr⟩
    obtain ⟨r', hr', -⟩ := hle.booking b r hr
    exact ⟨r', hr'⟩
  cases call with
  | getBookingById b => exact hknown h
  | releaseHold b _ => exact hknown h
  | releaseHoldRetryable b => exact hknown h
  | releaseHoldTerminal b _ => exact hknown h
  | failUnpublished b => exact hknown h
  | allocateSeat train b _ _ =>
    obtain ⟨r, hr, ht⟩ := h
    obtain ⟨r', hr', hg⟩ := hle.booking b r hr
    exact ⟨r', hr', hg.trainId.trans ht⟩
  | confirmBooking b _ payment =>
    obtain ⟨r, p, hr, hp, hst, hk⟩ := h
    obtain ⟨r', hr', hg⟩ := hle.booking b r hr
    exact ⟨r', p, hr', hle.payment payment p hp, hst, hk.trans hg.idempotencyKey.symm⟩
  | charge amount k =>
    obtain ⟨b, r, hr, hk, hprice⟩ := h
    obtain ⟨r', hr', hg⟩ := hle.booking b r hr
    exact ⟨b, r', hr', hg.idempotencyKey.trans hk, hg.pricePaise.trans hprice⟩
  | createBooking args =>
    obtain ⟨row, hrow⟩ := h
    obtain ⟨row', hrow', -⟩ := hle.idempotencyKey _ row hrow
    exact ⟨row', hrow'⟩
  | _ => trivial

/-- Callers stay informed. Source: none: infrastructure. Kind: L -/
theorem Informed.step (hl : LocksOk σ) (h : Informed σ) (hs : Stepped σ a σ')
    (hsend : SendsOk σ a) : Informed σ' := by
  intro i e' he'
  rcases hs.exec_new he' with ⟨e, he⟩ | ⟨call, client, ha, -, rfl⟩
  · obtain ⟨e₁, he₁, hcall, -⟩ := hs.exec_old he
    obtain rfl := Option.eq_some_unique he' he₁
    rw [hcall]
    exact (h i e he).mono (hs.le hl)
  · exact (hsend call client ha).mono (hs.le hl)

end informed

/-! ## Failing a booking -/

/-- What a call that fails booking `b` has established at `pc`. Source: migration
`20260418000000_split_release_hold`, `app/api/book/route.ts` (publish-failure branch). Kind: D -/
structure FailOk (σ : Store) (i : ℕ) (b : BookingId) (pc : Pc) : Prop where
  /-- Before the commit: a `PENDING` booking has its version. -/
  locked : ∀ reply, pc = .ret reply → ∃ r, σ.bookings.committed.find? b = some r ∧
    (r.status = .pending → ∃ w, σ.bookings.lock b = some (i, w))
  /-- After the commit. -/
  settled : ∀ reply, pc = .done reply → ∃ r, σ.bookings.committed.find? b = some r ∧
    r.status ≠ .pending

section fail

variable {σ σ' : Store} {a : Action} {i : ℕ} {b : BookingId}

/-- The steps of the others keep it. Source: none: infrastructure. Kind: L -/
theorem FailOk.of_ne {pc : Pc} (h : FailOk σ i b pc) (hle : Le σ σ') (hs : Stepped σ a σ')
    (ha : a.actor ≠ some i) : FailOk σ' i b pc where
  locked reply hpc := by
    obtain ⟨r, hr, hlock⟩ := h.locked reply hpc
    obtain ⟨r', hr', hg⟩ := hle.booking b r hr
    refine ⟨r', hr', fun hp => ?_⟩
    obtain ⟨w, hw⟩ := hlock (by
      by_contra hne
      rw [hg.settled hne] at hp
      exact hne hp)
    exact ⟨w, (hs.booking_lock_iff ha).mpr hw⟩
  settled reply hpc := by
    obtain ⟨r, hr, hne⟩ := h.settled reply hpc
    exact ⟨r, hle.settled hr hne, hne⟩

/-- A failing call reads only the seats it is about to release. Source: migration
`20260418000000_split_release_hold`. Kind: L -/
theorem Runs.select_of_fails {now : Time} {call : Call} {pc next : Pc} {why : String}
    (h : Runs σ i now call pc (.select next)) (hcall : call.fails = some (b, why)) :
    ∃ snapshot, next = .releaseSeats snapshot := by
  cases h with
  | releaseSnapshot => exact ⟨_, rfl⟩
  | _ => cases hcall

/-- A failing call has no statement that commits by itself. Source: none: infrastructure. Kind: L -/
theorem Runs.fails_of_alone {now : Time} {call : Call} {pc : Pc} {st : Stmt}
    (h : Runs σ i now call pc st) (hst : transactional st = false) : call.fails = none := by
  cases h with
  | sweepLocked | chargePaid | chargeDeclined | keyNew | createBooking | writeResponse | dlqNew
  | markRetried => rfl
  | _ => cases hst

/-- An `UPDATE` of its own keeps it. Source: migration `20260418000000_split_release_hold`.
Kind: L -/
theorem FailOk.of_update {e : Exec} {us : Update Seat} {ub : Update Booking} {next : Pc}
    {seats : Versioned ℕ Seat} {bookings : Versioned ℕ Booking} {why : String}
    (hcall : e.call.fails = some (b, why)) (hknown : ∃ r, σ.bookings.committed.find? b = some r)
    (hr : Runs σ i e.now e.call e.pc (.update us ub next))
    (hbookings : σ.bookings.update i ub = some bookings) :
    FailOk ({ σ with seats := seats, bookings := bookings }.goto i next) i b next := by
  have hfailed : ∀ {why reply}, ub = failRowUpdate b why → next = .ret reply →
      FailOk ({ σ with seats := seats, bookings := bookings }.goto i next) i b next := by
    rintro why reply rfl rfl
    obtain ⟨r, hr⟩ := hknown
    refine ⟨fun _ _ => ⟨r, ?_, fun hp => ?_⟩, by simp⟩
    · rw [goto_bookings, Versioned.update_committed hbookings, hr]
    · have hid : r.id = b := Table.key_of_find? hr
      exact ⟨_, Versioned.lock_update_of_cond hbookings hr (by simp [failRowUpdate, hid, hp])⟩
  obtain ⟨call, client, now, pc⟩ := e
  cases hr with
  | releaseRow hrel =>
    rw [Call.fails_of_releases hrel] at hcall
    cases hcall
    exact hfailed rfl rfl
  | failUnpublished =>
    cases hcall
    exact hfailed rfl rfl
  | releaseSeatsThenRow => exact ⟨by simp, by simp⟩
  | releaseSeatsOnly hrel => cases call <;> simp_all [Call.releases, Call.fails]
  | take | confirmSeat | confirmRow | sweepRun => cases hcall

/-- Its commit keeps it. Source: migration `20260418000000_split_release_hold`. Kind: L -/
theorem FailOk.of_commit (hl : LocksOk σ) {e : Exec} {reply : Reply} (h : FailOk σ i b e.pc)
    (hs : Stepped σ a σ') (hpc : e.pc = .ret reply) (hσ : σ'.bookings = σ.bookings.commit i) :
    FailOk σ' i b (.done reply) := by
  refine ⟨by simp, fun _ _ => ?_⟩
  obtain ⟨r, hr, hlock⟩ := h.locked reply hpc
  exact settled_of_commit hl (hs.le hl) hσ hr hlock

/-- **The failing calls.** Their facts survive every step. Source: migration
`20260418000000_split_release_hold`. Kind: L -/
theorem Stepped.failOk (hl : LocksOk σ) (hinf : Informed σ) (hs : Stepped σ a σ')
    (h : ∀ i e, σ.execs[i]? = some e → ∀ b why, e.call.fails = some (b, why) → FailOk σ i b e.pc) :
    ∀ i e, σ'.execs[i]? = some e → ∀ b why, e.call.fails = some (b, why) →
      FailOk σ' i b e.pc := by
  have hknown : ∀ {i : ℕ} {e : Exec} {b why}, σ.execs[i]? = some e → e.call.fails = some (b, why) →
      ∃ r, σ.bookings.committed.find? b = some r := by
    intro i e b why he hcall
    have hok := hinf i e he
    cases hc : e.call <;> rw [hc] at hcall hok <;> cases hcall <;> exact hok
  refine hs.forall_execs (P := fun σ i e => ∀ b why, e.call.fails = some (b, why) →
    FailOk σ i b e.pc) h ?_ ?_ ?_ ?_ ?_ ?_
  · intro i e ha he hP b why hcall
    exact (hP b why hcall).of_ne (hs.le hl) hs ha
  · intro i e he hpc b why hcall
    exact ⟨fun reply h => absurd (.inl h) (not_returned hpc reply),
      fun reply h => absurd (.inr h) (not_returned hpc reply)⟩
  · intro i e next _ _ he hP hr b why hcall
    obtain ⟨snapshot, rfl⟩ := hr.select_of_fails hcall
    exact ⟨by simp, by simp⟩
  · intro i e us ub next seats bookings _ _ he hP hr _ hbookings b why hcall
    exact FailOk.of_update (e := e) hcall (hknown he hcall) hr hbookings
  · intro i e r he hP hpc _ hbookings hs b why hcall
    exact FailOk.of_commit (e := e) hl (hP b why hcall) hs hpc hbookings
  · intro i e st he hP hr hst _ _ _ _ b why hcall
    rw [show e.call.fails = none from hr.fails_of_alone hst] at hcall
    cases hcall

end fail

/-! ## `sweep_expired_holds` -/

/-- What a sweep has established: a seat it frees takes its `PENDING` booking with it.
Source: migration `130_fn_sweep_expired_holds`. Kind: D -/
def SweepOk (σ : Store) (i : ℕ) : Prop :=
  ∀ k w s b r, σ.seats.lock k = some (i, w) → σ.seats.committed.find? k = some s →
    s.bookingId = some b → σ.bookings.committed.find? b = some r → r.status = .pending →
    ∃ w', σ.bookings.lock b = some (i, w')

section sweep

variable {σ σ' : Store} {a : Action} {i : ℕ}

/-- A locked row is not changed by the others. Source: none: infrastructure. Kind: L -/
theorem Stepped.locked_seat (hl : LocksOk σ) (hs : Stepped σ a σ') (ha : a.actor ≠ some i)
    {k : SeatId} {w s' : Seat} (hlock : σ.seats.lock k = some (i, w))
    (hs' : σ'.seats.committed.find? k = some s') : σ.seats.committed.find? k = some s' := by
  obtain ⟨s, hold, rfl | ⟨j, e, r, rfl, -, -, hlock', -⟩⟩ := seat_old hl hs hs'
  · exact hold
  · rw [hlock] at hlock'
    cases hlock'
    exact absurd rfl ha

/-- **`sweep_expired_holds`.** Its fact survives every step. Source: migration
`130_fn_sweep_expired_holds`. Kind: L -/
theorem Stepped.sweepOk (hl : LocksOk σ) {Q : TrainId → TrainId → Prop} (href : RefOk Q σ)
    (hs : Stepped σ a σ')
    (h : ∀ i e, σ.execs[i]? = some e → e.call = .sweepExpiredHolds → SweepOk σ i) :
    ∀ i e, σ'.execs[i]? = some e → e.call = .sweepExpiredHolds → SweepOk σ' i := by
  have hl' := hl.step hs
  refine hs.forall_execs (P := fun σ i e => e.call = .sweepExpiredHolds → SweepOk σ i) h
    ?_ ?_ ?_ ?_ ?_ ?_
  · intro i e ha he hP hcall k w s b r' hlock hs' hb hr' hp
    have hlock := (hs.seat_lock_iff ha).mp hlock
    have hold := hs.locked_seat hl ha hlock hs'
    obtain ⟨r, hr, -⟩ := href.committed k s b hold hb
    obtain ⟨r₁, hr₁, hg⟩ := (hs.le hl).booking b r hr
    obtain rfl := Option.eq_some_unique hr' hr₁
    have hpending : r.status = .pending := by
      by_contra hne
      rw [hg.settled hne] at hp
      exact hne hp
    obtain ⟨w', hw'⟩ := hP hcall k w s b r hlock hold hb hr hpending
    exact ⟨w', (hs.booking_lock_iff ha).mpr hw'⟩
  · intro i e he hpc hcall k w s b r hlock
    have hfree := not_locking hpc
    exact absurd hlock (hl'.no_seat_lock he hfree k w)
  · intro i e next _ _ he hP hr hcall
    exact hP hcall
  · intro i e us ub next seats bookings _ _ he hP hr hseats hbookings hcall k w s b r hlock hs hb hr' hp
    rw [show e.call = .sweepExpiredHolds from hcall] at hr
    have hnone := hl.no_seat_lock he
    generalize e.pc = pc at hr hnone
    cases hr with
    | @sweepRun snapshot n =>
      rw [goto_seats, Versioned.update_committed hseats] at hs
      rw [goto_bookings, Versioned.update_committed hbookings] at hr'
      rcases Versioned.lock_of_update hseats hlock with ⟨-, s', hs', hc, -⟩ | hlock
      · obtain rfl := Option.eq_some_unique hs hs'
        refine ⟨_, Versioned.lock_update_of_cond hbookings hr' ?_⟩
        have hid : r.id = b := Table.key_of_find? hr'
        have hmem : s ∈ σ.seats.committed.select (sweepSeatsUpdate snapshot e.now).cond :=
          Table.mem_select.mpr ⟨Table.mem_of_find? hs, hc⟩
        simp only [sweepRowsUpdate, Bool.and_eq_true, beq_iff_eq, List.any_eq_true]
        exact ⟨hp, s, hmem, by rw [hb, hid]⟩
      · exact absurd hlock (hnone rfl k w)
    | releaseSeatsOnly hrel | releaseSeatsThenRow hrel | releaseRow hrel => cases hrel
  · intro i e r he hP hpc hseats _ _ hcall k w s b r' hlock
    rw [hseats] at hlock
    exact absurd rfl (Versioned.lock_commit_iff.mp hlock).2
  · intro i e st he hP hr hst _ hseats _ _ hcall k w s b r hlock
    rw [hseats] at hlock
    exact absurd hlock (hl.no_seat_lock he (hr.not_locking hst) k w)

end sweep

/-! ## Replies -/

/-- What a reply means, for the calls whose effect is visible when they reply.
Source: `lib/db/repositories`, `lib/payment/mock-service.ts` `charge`. Kind: D -/
def ReplyOk (σ : Store) : Call → Reply → Prop
  | .getBookingById b, .booking row =>
    ∃ r r', row = some r ∧ σ.bookings.committed.find? b = some r' ∧ Grows r r'
  | .charge _ k, .paid payment _ =>
    ∃ p, σ.payments.find? payment = some p ∧ p.status = .succeeded ∧ p.idempotencyKey = k
  | .charge _ k, .paymentError _ =>
    ∃ p ∈ σ.payments, p.status = .failed ∧ p.idempotencyKey = k
  | .idempotencyCheck k .., .idempotency .. => ∃ row, σ.idempotencyKeys.find? k = some row
  | .createBooking args, .created id =>
    bookingChecks args.passengerName args.passengerPhone = true ∧
    ∃ r, σ.bookings.committed.find? id = some r ∧ r.idempotencyKey = args.idempotencyKey ∧
      r.trainId = args.trainId ∧ r.passengerName = args.passengerName
  | .insertDlqJob m .., .dlqInserted _ => ∃ j ∈ σ.dlqJobs, j.qstashMessageId = m
  | .getDlqJobById _, .dlqJob (some row) => ∃ j ∈ σ.dlqJobs, j.payload = row.payload
  | _, _ => True

section replies

variable {σ σ' : Store} {a : Action}

/-- A payment stays. Source: none: infrastructure. Kind: L -/
theorem Le.mem_payments (hle : Le σ σ') {p : Payment} (h : p ∈ σ.payments) : p ∈ σ'.payments :=
  Table.mem_of_find? (hle.payment _ p (Table.find?_of_mem h))

/-- A dead-lettered job stays, with its message and its payload. Source: none: infrastructure.
Kind: L -/
theorem Le.mem_dlqJobs (hle : Le σ σ') {j : DlqJob} (h : j ∈ σ.dlqJobs) :
    ∃ j' ∈ σ'.dlqJobs, j'.qstashMessageId = j.qstashMessageId ∧ j'.payload = j.payload := by
  obtain ⟨j', hj', hrest⟩ := hle.dlqJob _ j (Table.find?_of_mem h)
  exact ⟨j', Table.mem_of_find? hj', hrest⟩

/-- What a reply means stays true. Source: none: infrastructure. Kind: L -/
theorem ReplyOk.mono (hle : Le σ σ') {call : Call} {r : Reply} (h : ReplyOk σ call r) :
    ReplyOk σ' call r := by
  unfold ReplyOk at *
  split at h
  · obtain ⟨r, r', hrow, hr', hg⟩ := h
    obtain ⟨r'', hr'', hg'⟩ := hle.booking _ r' hr'
    exact ⟨r, r'', hrow, hr'', hg.trans hg'⟩
  · obtain ⟨p, hp, hrest⟩ := h
    exact ⟨p, hle.payment _ p hp, hrest⟩
  · obtain ⟨p, hp, hrest⟩ := h
    exact ⟨p, hle.mem_payments hp, hrest⟩
  · obtain ⟨row, hrow⟩ := h
    obtain ⟨row', hrow', -⟩ := hle.idempotencyKey _ row hrow
    exact ⟨row', hrow'⟩
  · obtain ⟨hchecks, r, hr, hk, ht, hn⟩ := h
    obtain ⟨r', hr', hg⟩ := hle.booking _ r hr
    exact ⟨hchecks, r', hr', hg.idempotencyKey.trans hk, hg.trainId.trans ht,
      hg.passengerName.trans hn⟩
  · obtain ⟨j, hj, hm⟩ := h
    obtain ⟨j', hj', hm', -⟩ := hle.mem_dlqJobs hj
    exact ⟨j', hj', hm'.trans hm⟩
  · obtain ⟨j, hj, hp⟩ := h
    obtain ⟨j', hj', -, hp'⟩ := hle.mem_dlqJobs hj
    exact ⟨j', hj', hp'.trans hp⟩
  · trivial

/-- A reply a `SELECT` gives means what it says. Source: `lib/db/repositories`,
`lib/payment/mock-service.ts` `charge`. Kind: L -/
theorem Runs.reply_of_select {i : ℕ} {now : Time} {call : Call} {pc : Pc} {r : Reply}
    (h : Runs σ i now call pc (.select (.ret r))) (hok : CallOk σ call) : ReplyOk σ call r := by
  cases h with
  | @getBooking b =>
    obtain ⟨row, hrow⟩ := hok
    exact ⟨row, row, hrow, hrow, .refl row⟩
  | chargeReplayed hp hk hst => exact ⟨_, Table.find?_of_mem hp, hst, hk⟩
  | chargeRefused hp hk hst => exact ⟨_, hp, hst, hk⟩
  | keyKnown hrow => exact ⟨_, hrow⟩
  | dlqKnown hj hm => exact ⟨_, hj, hm⟩
  | @getDlqJob id =>
    cases hrow : σ.dlqJobs.find? id with
    | none => trivial
    | some row => exact ⟨row, Table.mem_of_find? hrow, rfl⟩
  | _ => trivial

/-- A reply to a statement that commits by itself means what it says. Source:
`lib/db/repositories`, `lib/payment/mock-service.ts` `charge`. Kind: L -/
theorem Runs.reply_of_alone {i : ℕ} {now : Time} {call : Call} {pc : Pc} {st : Stmt} {r : Reply}
    (h : Runs σ i now call pc st) (hst : transactional st = false) (hstored : Stored σ' st)
    (hr : nextOf st = .ret r) : ReplyOk σ' call r := by
  cases h with
  | createBooking hchecks =>
    cases hr
    exact ⟨hchecks, _, hstored, rfl, rfl, rfl⟩
  | chargePaid =>
    cases hr
    exact ⟨_, hstored, rfl, rfl⟩
  | chargeDeclined =>
    cases hr
    exact ⟨_, Table.mem_of_find? hstored, rfl, rfl⟩
  | dlqNew =>
    cases hr
    exact ⟨_, Table.mem_of_find? hstored, rfl⟩
  | sweepLocked => cases hr
  | keyNew =>
    cases hr
    exact ⟨_, hstored⟩
  | writeResponse | markRetried =>
    cases hr
    trivial
  | _ => cases hst

/-- A reply to an `UPDATE` of a transaction says nothing by itself. Source: none: infrastructure.
Kind: L -/
theorem Runs.reply_of_update {i : ℕ} {now : Time} {call : Call} {pc : Pc} {us : Update Seat}
    {ub : Update Booking} {r : Reply} (h : Runs σ i now call pc (.update us ub (.ret r))) :
    ReplyOk σ' call r := by
  cases h with
  | releaseSeatsOnly hcall | releaseRow hcall => cases call <;> trivial
  | take | confirmRow | sweepRun | failUnpublished => trivial

/-- A statement leaves a transaction to be committed. Source: none: infrastructure. Kind: L -/
theorem Runs.next_ne_done {i : ℕ} {now : Time} {call : Call} {pc : Pc} {st : Stmt}
    (h : Runs σ i now call pc st) (r : Reply) : nextOf st ≠ .done r := by
  cases h <;> simp [nextOf]

/-- **Replies mean what they say**, from the statement that gives them on. Source:
`lib/db/repositories`, `lib/payment/mock-service.ts` `charge`. Kind: L -/
theorem Stepped.replyOk (hl : LocksOk σ) (hinf : Informed σ) (hs : Stepped σ a σ')
    (h : ∀ (i : ℕ) (e : Exec), σ.execs[i]? = some e →
      ∀ r, e.pc = .ret r ∨ e.pc = .done r → ReplyOk σ e.call r) :
    ∀ (i : ℕ) (e : Exec), σ'.execs[i]? = some e →
      ∀ r, e.pc = .ret r ∨ e.pc = .done r → ReplyOk σ' e.call r := by
  refine hs.forall_execs (P := fun σ i e => ∀ r, e.pc = .ret r ∨ e.pc = .done r →
    ReplyOk σ e.call r) h ?_ ?_ ?_ ?_ ?_ ?_
  · intro i e ha he hP r hr
    exact (hP r hr).mono (hs.le hl)
  · intro i e he hpc r hr
    exact absurd hr (not_returned hpc r)
  · intro i e next _ _ he hP hr r hret
    rcases hret with hret | hret
    · cases hret
      exact hr.reply_of_select (hinf i e he)
    · exact absurd hret (hr.next_ne_done r)
  · intro i e us ub next seats bookings _ _ he hP hr _ _ r hret
    rcases hret with hret | hret
    · cases hret
      exact hr.reply_of_update
    · exact absurd hret (hr.next_ne_done r)
  · intro i e r he hP hpc _ _ hs r' hret
    rcases hret with hret | hret <;> cases hret
    exact (hP r (.inl hpc)).mono (hs.le hl)
  · intro i e st he hP hr hst hstored _ _ _ r hret
    rcases hret with hret | hret
    · exact hr.reply_of_alone hst hstored hret
    · exact absurd hret (hr.next_ne_done r)

end replies

/-! ## Unique keys -/

/-- The unique constraints on `idempotency_key` and the clock of transactions.
Source: migrations `050_payments`, `060_bookings`. Kind: D -/
structure UniqueOk (σ : Store) : Prop where
  bookings : ∀ b b' r r', σ.bookings.committed.find? b = some r →
    σ.bookings.committed.find? b' = some r' → r.idempotencyKey = r'.idempotencyKey → b = b'
  payments : ∀ p ∈ σ.payments, ∀ p' ∈ σ.payments, p.idempotencyKey = p'.idempotencyKey → p = p'
  clock : ∀ (i : ℕ) (e : Exec), σ.execs[i]? = some e → e.now ≤ σ.now

section unique

variable {σ σ' : Store} {a : Action}

/-- **The unique constraints survive every step.** Source: migrations `050_payments`,
`060_bookings`. Kind: L -/
theorem UniqueOk.step (hl : LocksOk σ) (h : UniqueOk σ) (hs : Stepped σ a σ') : UniqueOk σ' where
  bookings b b' r r' hr hr' hk := by
    have hgrown : ∀ {b r}, σ'.bookings.committed.find? b = some r →
        (∃ r₀, σ.bookings.committed.find? b = some r₀) →
        ∃ r₀, σ.bookings.committed.find? b = some r₀ ∧ r₀.idempotencyKey = r.idempotencyKey := by
      rintro b r hr ⟨r₀, hr₀⟩
      obtain ⟨r₁, hr₁, hg⟩ := (hs.le hl).booking b r₀ hr₀
      obtain rfl := Option.eq_some_unique hr hr₁
      exact ⟨r₀, hr₀, hg.idempotencyKey.symm⟩
    rcases booking_old hs hr with hold | ⟨honly, i, ch, e, args, -, -, -, -, hkey, rfl⟩ <;>
      rcases booking_old hs hr' with hold' | ⟨-, i', ch', e', args', -, -, -, -, hkey', rfl⟩
    · obtain ⟨r₀, hr₀, heq⟩ := hgrown hr hold
      obtain ⟨r₀', hr₀', heq'⟩ := hgrown hr' hold'
      exact h.bookings b b' r₀ r₀' hr₀ hr₀' (by rw [heq, heq', hk])
    · obtain ⟨r₀, hr₀, heq⟩ := hgrown hr hold
      exact absurd (heq.trans hk) (hkey' r₀ (Table.mem_of_find? hr₀))
    · obtain ⟨r₀, hr₀, heq⟩ := hgrown hr' hold'
      exact absurd (heq.trans hk.symm) (hkey r₀ (Table.mem_of_find? hr₀))
    · rcases honly b' _ hr' with hid | hold'
      · exact hid.symm
      · exact absurd rfl (hkey' _ (Table.mem_of_find? hold'))
  payments p hp p' hp' hk := by
    cases hs with
    | @insertPayment i ch e row next he hr hnew hkey =>
      rcases (Table.mem_insert (h := hnew)).mp hp with hmem | heq <;>
        rcases (Table.mem_insert (h := hnew)).mp hp' with hmem' | heq'
      · exact h.payments p hmem p' hmem' hk
      · exact absurd (heq' ▸ hk) (hkey p hmem)
      · exact absurd (heq ▸ hk.symm) (hkey p' hmem')
      · exact heq.trans heq'.symm
    | _ => exact h.payments p hp p' hp' hk
  clock i e' he' := by
    have hle := (hs.le hl).now
    rcases hs.exec_new he' with ⟨e, he⟩ | ⟨call, client, rfl, -, rfl⟩
    · obtain ⟨e₁, he₁, -, -, hnow⟩ := hs.exec_old he
      obtain rfl := Option.eq_some_unique he' he₁
      have hold := h.clock i e he
      rcases hnow with hnow | hnow
      · rw [hnow]
        exact hold.trans hle
      · rw [hnow]
        exact hle
    · exact hle

end unique

/-- Every booking has a row in `idempotency_keys`. Source: `app/api/book/route.ts` (steps 7 and 8).
Kind: D -/
def Registered (σ : Store) : Prop :=
  ∀ b r, σ.bookings.committed.find? b = some r →
    ∃ row, σ.idempotencyKeys.find? r.idempotencyKey = some row

/-- Bookings stay registered. Source: `app/api/book/route.ts` (steps 7 and 8). Kind: L -/
theorem Registered.step {σ σ' : Store} {a : Action} (hl : LocksOk σ) (hinf : Informed σ)
    (h : Registered σ) (hs : Stepped σ a σ') : Registered σ' := by
  have hle := hs.le hl
  intro b r' hr'
  have hlater : ∀ {k}, (∃ row, σ.idempotencyKeys.find? k = some row) →
      ∃ row, σ'.idempotencyKeys.find? k = some row := by
    rintro k ⟨row, hrow⟩
    obtain ⟨row', hrow', -⟩ := hle.idempotencyKey k row hrow
    exact ⟨row', hrow'⟩
  rcases booking_old hs hr' with ⟨r, hr⟩ | ⟨-, i, ch, e, args, -, he, hcall, -, -, rfl⟩
  · obtain ⟨r₁, hr₁, hg⟩ := hle.booking b r hr
    obtain rfl := Option.eq_some_unique hr' hr₁
    rw [hg.idempotencyKey]
    exact hlater (h b r hr)
  · have hok := hinf i e he
    rw [hcall] at hok
    exact hlater hok

/-! ## The invariants of the store -/

/-- What holds of the store whatever calls it receives. Source: none: infrastructure. Kind: D -/
structure Inv (σ : Store) : Prop where
  locks : LocksOk σ
  refs : RefOk (fun _ _ => True) σ
  unique : UniqueOk σ
  confirms : ∀ (i : ℕ) (e : Exec), σ.execs[i]? = some e → ∀ b seat payment,
    e.call = .confirmBooking b seat payment → ConfirmOk σ i b seat payment e.pc
  sweeps : ∀ (i : ℕ) (e : Exec), σ.execs[i]? = some e → e.call = .sweepExpiredHolds → SweepOk σ i

/-- What holds of the store when every caller knows what it sends.
Source: none: infrastructure. Kind: D -/
structure Trusted (σ : Store) : Prop extends Inv σ where
  informed : Informed σ
  trains : RefOk Eq σ
  keyed : Registered σ
  fails : ∀ (i : ℕ) (e : Exec), σ.execs[i]? = some e → ∀ b why,
    e.call.fails = some (b, why) → FailOk σ i b e.pc
  replies : ∀ (i : ℕ) (e : Exec), σ.execs[i]? = some e →
    ∀ r, e.pc = .ret r ∨ e.pc = .done r → ReplyOk σ e.call r

section invariant

variable {σ σ' : Store} {a : Action}

/-- Without executions nothing is said of them. Source: none: infrastructure. Kind: L -/
theorem Initial.no_exec (h : Initial σ) {i : ℕ} {e : Exec} : σ.execs[i]? ≠ some e := by
  rw [h.execs_empty]
  simp

/-- In an initial store no seat names a booking. Source: none: infrastructure. Kind: L -/
theorem Initial.refOk (h : Initial σ) (Q : TrainId → TrainId → Prop) : RefOk Q σ where
  committed k s b hs hb := by
    obtain ⟨-, hnone, -⟩ := h.seats_free s (Table.mem_of_find? hs)
    rw [hnone] at hb
    cases hb
  open_ k i w b hlock := by
    rw [h.seats_unlocked k] at hlock
    cases hlock

/-- An initial store satisfies the invariant. Source: none: infrastructure. Kind: L -/
theorem Initial.inv (h : Initial σ) : Inv σ where
  locks :=
    { seats := fun k i w hlock => by
        rw [h.seats_unlocked k] at hlock
        cases hlock
      bookings := fun k i w hlock => by
        rw [h.bookings_empty] at hlock
        cases hlock }
  refs := h.refOk _
  unique :=
    { bookings := fun b b' r r' hr => by
        rw [h.bookings_empty] at hr
        cases hr
      payments := fun p hp => by
        rw [h.payments_empty] at hp
        cases hp
      clock := fun _ _ he => absurd he h.no_exec }
  confirms _ _ he := absurd he h.no_exec
  sweeps _ _ he := absurd he h.no_exec

/-- An initial store is trusted. Source: none: infrastructure. Kind: L -/
theorem Initial.trusted (h : Initial σ) : Trusted σ where
  toInv := h.inv
  informed _ _ he := absurd he h.no_exec
  trains := h.refOk _
  keyed b r hr := by
    rw [h.bookings_empty] at hr
    cases hr
  fails _ _ he := absurd he h.no_exec
  replies _ _ he := absurd he h.no_exec

/-- **Every step keeps the invariant.** Source: none: infrastructure. Kind: L -/
theorem Inv.step (h : Inv σ) (hs : Stepped σ a σ') : Inv σ' where
  locks := h.locks.step hs
  refs := h.refs.step h.locks hs fun _ _ _ _ _ _ _ _ _ _ => trivial
  unique := h.unique.step h.locks hs
  confirms := hs.confirmOk h.locks h.confirms
  sweeps := hs.sweepOk h.locks h.refs h.sweeps

/-- **Every step of informed callers keeps the store trusted.** Source: none: infrastructure.
Kind: L -/
theorem Trusted.step (h : Trusted σ) (hs : Stepped σ a σ') (hsend : SendsOk σ a) : Trusted σ' where
  toInv := h.toInv.step hs
  informed := h.informed.step h.locks hs hsend
  trains := h.trains.step h.locks hs fun i e train b passenger hold r he hcall hr => by
    have hok := h.informed i e he
    rw [hcall] at hok
    obtain ⟨r', hr', ht⟩ := hok
    obtain rfl := Option.eq_some_unique hr hr'
    exact ht
  keyed := h.keyed.step h.locks h.informed hs
  fails := hs.failOk h.locks h.informed h.fails
  replies := hs.replyOk h.locks h.informed h.replies

/-- The invariant holds in every reachable store. Source: none: infrastructure. Kind: L -/
theorem inv_of_reach {C : Store → Action → Prop} (h : Reach step Initial C σ) : Inv σ :=
  h.invariant (fun _ h => h.inv) fun _ _ _ _ hinv _ hstep => hinv.step (step_cases hstep)

end invariant

end Store

end TrainsAndTracks
