import TrainsAndTracks.Found.Ledger
import TrainsAndTracks.Found.Progress
import TrainsAndTracks.Store.Outcomes
import TrainsAndTracks.Store.Serving

/-!
# Every transaction can end

Row locks are held to the end of a transaction, so a transaction may have to wait for another one. This
module says that waiting leads nowhere bad.

* `Orderly.ranked` — whoever waits, waits for a transaction that is further with its locks (`Pc.rank`): the
  stored functions lock seats before bookings, and `allocate_seat` skips rows that are locked.
* `calls_end` — whatever has begun ends, in whatever order the transactions take their steps: five steps
  each are enough, and the only way to stop is to have ended them all.

A statement here takes the locks of all its rows when it runs, or waits and takes none; `Store.RowByRow`
lets it take them one by one.
-/

namespace TrainsAndTracks

open Found

/-- How far a transaction is with its locks: it holds none, has locked seats, or has locked all its rows.
Source: migrations `110_fn_confirm_booking`, `20260418000000_split_release_hold`,
`130_fn_sweep_expired_holds` (order of the `UPDATE`s). Kind: D -/
def Pc.rank : Pc → Fin 3
  | .confirmRow | .releaseRow _ => 1
  | .ret _ => 2
  | _ => 0

/-- The steps an execution has left, at most. Source: the stored functions. Kind: D -/
def Pc.left : Pc → ℕ
  | .sent => 5
  | .start => 4
  | .confirmSeat | .releaseSeats _ | .sweepSnapshot => 3
  | .allocatePick | .confirmRow | .releaseRow _ | .sweepRun _ | .chargeInsert => 2
  | .ret _ => 1
  | .done _ | .failed => 0

/-- The replies of a call. Source: `lib/db/repositories` (return types), `lib/payment/mock-service.ts`
`charge`. Kind: D. Fidelity: exact -/
def Call.replies : Call → Reply → Bool
  | .getBookingById _, .booking _ => true
  | .allocateSeat .., .allocated _ => true
  | .confirmBooking .., .confirmed _ => true
  | .releaseHold .., .released _ | .releaseHoldRetryable _, .released _
  | .releaseHoldTerminal .., .released _ => true
  | .sweepExpiredHolds, .swept .. => true
  | .failUnpublished _, .unit => true
  | .idempotencyCheck .., .idempotency .. => true
  | .createBooking _, .created _ => true
  | .writeIdempotencyResponse .., .unit => true
  | .charge .., .paid .. | .charge .., .paymentError _ => true
  | .insertDlqJob .., .dlqInserted _ => true
  | .getDlqJobById _, .dlqJob _ => true
  | .markDlqRetried _, .unit => true
  | _, _ => false

/-- The points a call passes, and its replies. Source: the stored functions, `lib/payment/mock-service.ts`
`charge`. Kind: D. Fidelity: exact -/
def Call.visits (call : Call) : Pc → Prop
  | .allocatePick => ∃ train b passenger hold, call = .allocateSeat train b passenger hold
  | .confirmSeat | .confirmRow => ∃ b seat payment, call = .confirmBooking b seat payment
  | .releaseSeats _ => ∃ b why, call.releases = some (b, why)
  | .releaseRow _ => ∃ b why, call.releases = some (b, some why)
  | .sweepSnapshot | .sweepRun _ => call = .sweepExpiredHolds
  | .chargeInsert => ∃ amount k, call = .charge amount k
  | .ret r | .done r => call.replies r = true
  | .sent | .start | .failed => True

namespace Store

/-! ## What an execution is at -/

section points

variable {σ σ' : Store} {a : Action} {i : ℕ} {now : Time} {call : Call} {pc : Pc} {st : Stmt}

/-- A release returns a number of rows. Source: migrations `120_fn_release_hold`,
`20260418000000_split_release_hold`. Kind: L -/
theorem replies_of_releases {b : BookingId} {why : Option String} {n : ℕ}
    (h : call.releases = some (b, why)) : call.replies (.released n) = true := by
  cases call <;> first | rfl | cases h

/-- A statement leads to a point of its call. Source: the stored functions. Kind: L -/
theorem Runs.visits (h : Runs σ i now call pc st) : call.visits (nextOf st) := by
  cases h with
  | releaseSnapshot hcall => exact ⟨_, _, hcall⟩
  | releaseSeatsThenRow hcall => exact ⟨_, _, hcall⟩
  | releaseSeatsOnly hcall | releaseRow hcall => exact replies_of_releases hcall
  | holdMissing => exact ⟨_, _, _, _, rfl⟩
  | confirmOpen | confirmSeat => exact ⟨_, _, _, rfl⟩
  | chargeFresh => exact ⟨_, _, rfl⟩
  | allocateUnknown | unknownPayment | chargeZero | createRefused => trivial
  | _ => rfl

/-- A statement is a step towards the end. Source: the stored functions. Kind: L -/
theorem Runs.left_lt (h : Runs σ i now call pc st) : (nextOf st).left < pc.left := by
  cases h <;> simp [nextOf, Pc.left]

/-- **An execution is at a point of its call.** Source: the stored functions. Kind: L -/
theorem Stepped.visits (hs : Stepped σ a σ')
    (h : ∀ (i : ℕ) (e : Exec), σ.execs[i]? = some e → e.call.visits e.pc) :
    ∀ (i : ℕ) (e : Exec), σ'.execs[i]? = some e → e.call.visits e.pc := by
  refine hs.forall_execs (P := fun _ _ e => e.call.visits e.pc) h (fun i e _ _ he => he)
    (fun i e _ hpc => ?_) (fun i e next _ _ _ _ hr => hr.visits)
    (fun i e us ub next _ _ _ _ _ _ hr _ _ => hr.visits) (fun i e r _ hv hpc _ _ _ => ?_)
    (fun i e st _ _ hr _ _ _ _ _ => hr.visits)
  · rcases hpc with hpc | hpc | hpc <;> rw [hpc] <;> trivial
  · rw [hpc] at hv
    exact hv

/-- **Bookings are locked last**: an execution that has locked one has run its statements.
Source: migrations `110_fn_confirm_booking`, `20260418000000_split_release_hold`,
`130_fn_sweep_expired_holds`. Kind: D -/
def LocksLast (σ : Store) (i : ℕ) (e : Exec) : Prop :=
  ∀ b w, σ.bookings.lock b = some (i, w) → ∃ r, e.pc = .ret r

/-- Seats are updated before bookings. Source: migrations `110_fn_confirm_booking`,
`20260418000000_split_release_hold`, `130_fn_sweep_expired_holds`. Kind: L -/
theorem Runs.update_cases {us : Update Seat} {ub : Update Booking} {next : Pc}
    (h : Runs σ i now call pc (.update us ub next)) :
    (pc.rank = 0 ∨ us = .skip) ∧ ((∃ r, next = .ret r) ∨ ub = .skip) := by
  cases h with
  | take | releaseSeatsOnly => exact ⟨.inl rfl, .inl ⟨_, rfl⟩⟩
  | confirmSeat | releaseSeatsThenRow => exact ⟨.inl rfl, .inr rfl⟩
  | confirmRow | releaseRow | failUnpublished => exact ⟨.inr rfl, .inl ⟨_, rfl⟩⟩
  | sweepRun => exact ⟨.inl rfl, .inl ⟨_, rfl⟩⟩

/-- A statement that commits by itself ends its call, or locks no row. Source: the stored functions.
Kind: L -/
theorem Runs.alone (h : Runs σ i now call pc st) (hst : transactional st = false) :
    (∃ r, nextOf st = .ret r) ∨ locking (nextOf st) = false := by
  cases h <;> first | exact .inl ⟨_, rfl⟩ | exact .inr rfl | cases hst

/-- The locks stay last. Source: migrations `110_fn_confirm_booking`, `20260418000000_split_release_hold`,
`130_fn_sweep_expired_holds`. Kind: L -/
theorem Stepped.locksLast (hl : LocksOk σ) (hs : Stepped σ a σ')
    (h : ∀ (i : ℕ) (e : Exec), σ.execs[i]? = some e → LocksLast σ i e) :
    ∀ (i : ℕ) (e : Exec), σ'.execs[i]? = some e → LocksLast σ' i e := by
  have hl' := hl.step hs
  refine hs.forall_execs h (fun i e ha _ he b w hlock => he b w ((hs.booking_lock_iff ha).mp hlock))
    (fun i e he hpc b w hlock => ?_) (fun i e next _ _ he hlast hr b w hlock => ?_)
    (fun i e us ub next seats bookings _ _ he hlast hr _ hbookings b w hlock => ?_)
    (fun i e r he _ hpc _ hbookings _ b w hlock => ?_)
    (fun i e st he hlast hr hst _ _ _ he' b w hlock => ?_)
  · exact absurd hlock (hl'.no_booking_lock he (not_locking hpc) b w)
  · obtain ⟨r, hret⟩ := hlast b w hlock
    exact absurd hret (hr.ne_ret r)
  · rcases hr.update_cases.2 with ⟨r, rfl⟩ | rfl
    · exact ⟨r, rfl⟩
    · cases (Versioned.update_skip _ _).symm.trans hbookings
      obtain ⟨r, hret⟩ := hlast b w hlock
      exact absurd hret (hr.ne_ret r)
  · rw [hbookings] at hlock
    exact absurd rfl (Versioned.lock_commit_iff.mp hlock).2
  · obtain ⟨_, -, e', he'', hlocking, -⟩ := hl'.bookings b i w hlock
    obtain rfl := Option.eq_some_unique he' he''
    refine (hr.alone hst).resolve_right fun hno => ?_
    rw [hno] at hlocking
    cases hlocking

end points

/-! ## Who waits for whom -/

/-- The steps that get on with what has begun: no call is sent, none is aborted, and no time passes.
Source: none: infrastructure. Kind: D -/
def Action.works : Action → Bool
  | .start _ | .exec .. | .commit _ => true
  | .begin .. | .abort _ | .tick _ => false

/-- A call is sent. Source: none: infrastructure. Kind: D -/
def Action.begins : Action → Bool
  | .begin .. => true
  | _ => false

/-- Execution `i` waits for execution `j`: its next statement is for a row that `j` has locked.
Source: none: infrastructure (statement semantics). Kind: D -/
def Waits (σ : Store) (i j : ℕ) : Prop :=
  i ≠ j ∧ ∃ e ch us ub next, σ.execs[i]? = some e ∧
    σ.stmt i e.now ch e.call e.pc = some (.update us ub next) ∧
    ((∃ s ∈ σ.seats.committed, us.cond s = true ∧ ∃ w, σ.seats.lock s.id = some (j, w)) ∨
      ∃ r ∈ σ.bookings.committed, ub.cond r = true ∧ ∃ w, σ.bookings.lock r.id = some (j, w))

/-- The rank of an execution. Source: none: infrastructure. Kind: D -/
def rank (σ : Store) (i : ℕ) : Fin 3 := ((σ.execs[i]?).map fun e => e.pc.rank).getD 0

/-- What is known of every execution. Source: none: infrastructure. Kind: D -/
structure Orderly (σ : Store) : Prop where
  locks : LocksOk σ
  visits : ∀ (i : ℕ) (e : Exec), σ.execs[i]? = some e → e.call.visits e.pc
  last : ∀ (i : ℕ) (e : Exec), σ.execs[i]? = some e → LocksLast σ i e

section waiting

variable {σ σ' : Store} {a : Action} {i j : ℕ} {e : Exec}

/-- It holds of an initial store. Source: migrations `900_seed_trains`, `910_seed_seats`. Kind: L -/
theorem Initial.orderly (h : Initial σ) : Orderly σ where
  locks := h.inv.locks
  visits i e he := by
    rw [h.execs_empty] at he
    cases he
  last i e he := by
    rw [h.execs_empty] at he
    cases he

/-- Every step keeps it. Source: none: infrastructure. Kind: L -/
theorem Orderly.step (h : Orderly σ) (hs : Stepped σ a σ') : Orderly σ' :=
  ⟨h.locks.step hs, hs.visits h.visits, hs.locksLast h.locks h.last⟩

/-- It holds of every store that is reached. Source: none: infrastructure. Kind: L -/
theorem orderly_of_reach (h : Reach step Initial Always σ) : Orderly σ :=
  h.invariant (fun _ hinit => hinit.orderly) fun _ _ _ _ ho _ hst => ho.step (step_cases hst)

/-- The rank of an execution there is. Source: none: infrastructure. Kind: L -/
theorem rank_of_getElem? (he : σ.execs[i]? = some e) : σ.rank i = e.pc.rank := by
  simp [rank, he]

/-- A point without a rank holds no lock. Source: none: infrastructure. Kind: L -/
theorem one_le_rank {pc : Pc} (h : locking pc = true) : 1 ≤ pc.rank := by
  cases pc <;> simp_all [locking, Pc.rank]

/-- **Whoever waits, waits for an execution that is further with its locks.** Source: migrations
`110_fn_confirm_booking`, `20260418000000_split_release_hold`, `130_fn_sweep_expired_holds`. Kind: L -/
theorem Orderly.ranked (h : Orderly σ) : Ranked σ.Waits σ.rank := by
  rintro i j ⟨-, e, ch, us, ub, next, he, hst, hrow⟩
  have hr := runs_of_stmt hst
  rw [rank_of_getElem? he]
  rcases hrow with ⟨s, -, hcond, w, hlock⟩ | ⟨r, -, hcond, w, hlock⟩
  · obtain ⟨_, -, e', he', hlocking, -⟩ := h.locks.seats s.id j w hlock
    rw [rank_of_getElem? he']
    rcases hr.update_cases.1 with hzero | rfl
    · rw [hzero]
      exact one_le_rank hlocking
    · cases hcond
  · obtain ⟨_, -, e', he', -, -⟩ := h.locks.bookings r.id j w hlock
    obtain ⟨reply, hret⟩ := h.last j e' he' r.id w hlock
    rw [rank_of_getElem? he', hret]
    have hne := hr.ne_ret
    cases hpc : e.pc with
    | ret reply => exact absurd hpc (hne reply)
    | _ => simp [Pc.rank]

/-- A booking is paid and held, and two deliveries confirm it at once: the first has locked the seat.
Source: none: infrastructure. Kind: D -/
def contending : List Action :=
  oneCall 0 (.createBooking ⟨"k", "12951", "Asha", none, 126000⟩) 1 ++
  oneCall 1 (.charge 126000 "k") 2 ++ oneCall 2 (.allocateSeat "12951" 1 "Asha" 300) 2 ++
  [.begin (.confirmBooking 1 "12951-A1" 1) 3, .begin (.confirmBooking 1 "12951-A1" 1) 4,
    .start 3, .start 4, .exec 3 usualChoice, .exec 4 usualChoice, .exec 3 usualChoice]

end waiting

/-! ## Whoever does not wait gets on -/

/-- The row a statement inserts has a key of its own. Source: none: infrastructure (`gen_random_uuid()`).
Kind: D -/
def Insertable (σ : Store) : Stmt → Prop
  | .insertBooking row _ => σ.bookings.committed.find? row.id = none
  | .insertPayment row _ => σ.payments.find? row.id = none
  | .insertKey row _ => σ.idempotencyKeys.find? row.idempotencyKey = none
  | .insertDlqJob row _ => σ.dlqJobs.find? row.id = none
  | _ => True

section progress

variable {σ σ' : Store} {i : ℕ} {now : Time} {call : Call} {pc : Pc} {e : Exec}

/-- The first statement of a call. Source: the stored functions, `lib/db/repositories`,
`lib/payment/mock-service.ts` `charge`. Kind: L -/
theorem exists_stmt_start (σ : Store) (i : ℕ) (now : Time) (call : Call) :
    ∃ ch st, σ.stmt i now ch call .start = some st ∧ σ.Insertable st := by
  obtain ⟨booking, hbooking⟩ := σ.bookings.committed.exists_find?_eq_none
  obtain ⟨job, hjob⟩ := σ.dlqJobs.exists_find?_eq_none
  cases call with
  | allocateSeat train b passenger hold =>
    refine ⟨⟨0, none, ""⟩, ?_⟩
    simp only [stmt, allocateSeat]
    split <;> exact ⟨_, rfl, trivial⟩
  | confirmBooking b seat payment =>
    refine ⟨⟨0, none, ""⟩, ?_⟩
    simp only [stmt, confirmBooking]
    split
    · split <;> exact ⟨_, rfl, trivial⟩
    · exact ⟨_, rfl, trivial⟩
  | sweepExpiredHolds =>
    refine ⟨⟨0, none, ""⟩, ?_⟩
    simp only [stmt, sweepExpiredHolds]
    split <;> exact ⟨_, rfl, trivial⟩
  | idempotencyCheck k user hash =>
    refine ⟨⟨0, none, ""⟩, ?_⟩
    simp only [stmt, idempotencyCheck]
    split
    · exact ⟨_, rfl, trivial⟩
    · exact ⟨_, rfl, ‹_›⟩
  | createBooking args =>
    refine ⟨⟨booking, none, ""⟩, ?_⟩
    simp only [stmt, createBooking]
    split
    · exact ⟨_, rfl, hbooking⟩
    · exact ⟨_, rfl, trivial⟩
  | charge amount k =>
    refine ⟨⟨0, none, ""⟩, ?_⟩
    simp only [stmt, charge]
    split
    · exact ⟨_, rfl, trivial⟩
    · split <;> exact ⟨_, rfl, trivial⟩
  | insertDlqJob m payload reason attempts =>
    refine ⟨⟨job, none, ""⟩, ?_⟩
    simp only [stmt, insertDlqJob]
    split
    · exact ⟨_, rfl, trivial⟩
    · exact ⟨_, rfl, hjob⟩
  | _ => exact ⟨⟨0, none, ""⟩, _, rfl, trivial⟩

/-- The statements of a release after its snapshot. Source: migration
`20260418000000_split_release_hold`. Kind: L -/
theorem stmt_of_releases {b : BookingId} {why : Option String} (hcall : call.releases = some (b, why))
    (ch : Choice) : σ.stmt i now ch call pc = σ.release b why pc := by
  cases call <;> cases hcall <;> rfl

/-- **A call always has a next statement**, for some fresh `gen_random_uuid()`. Source: the stored
functions, `lib/db/repositories`, `lib/payment/mock-service.ts` `charge`. Kind: L -/
theorem exists_stmt (hvisit : call.visits pc) (hsent : pc ≠ .sent) (hret : ∀ r, pc ≠ .ret r)
    (hopen : ¬ atEnd pc) : ∃ ch st, σ.stmt i now ch call pc = some st ∧ σ.Insertable st := by
  cases pc with
  | sent => exact absurd rfl hsent
  | start => exact exists_stmt_start σ i now call
  | allocatePick =>
    obtain ⟨train, b, passenger, hold, rfl⟩ := hvisit
    refine ⟨⟨0, none, ""⟩, ?_⟩
    simp only [stmt, allocateSeat]
    split
    · exact ⟨_, rfl, trivial⟩
    · split <;> exact ⟨_, rfl, trivial⟩
  | confirmSeat =>
    obtain ⟨b, seat, payment, rfl⟩ := hvisit
    refine ⟨⟨0, none, ""⟩, ?_⟩
    simp only [stmt, confirmBooking]
    split <;> exact ⟨_, rfl, trivial⟩
  | confirmRow =>
    obtain ⟨b, seat, payment, rfl⟩ := hvisit
    refine ⟨⟨0, none, ""⟩, ?_⟩
    simp only [stmt, confirmBooking]
    split
    · exact ⟨_, rfl, trivial⟩
    · split <;> exact ⟨_, rfl, trivial⟩
  | releaseSeats snapshot =>
    obtain ⟨b, why, hcall⟩ := hvisit
    exact ⟨⟨0, none, ""⟩, _, stmt_of_releases hcall _, trivial⟩
  | releaseRow n =>
    obtain ⟨b, why, hcall⟩ := hvisit
    exact ⟨⟨0, none, ""⟩, _, stmt_of_releases hcall _, trivial⟩
  | sweepSnapshot | sweepRun =>
    cases hvisit
    exact ⟨⟨0, none, ""⟩, _, rfl, trivial⟩
  | chargeInsert =>
    obtain ⟨amount, k, rfl⟩ := hvisit
    obtain ⟨uuid, huuid⟩ := σ.payments.exists_find?_eq_none
    refine ⟨⟨uuid, none, ""⟩, ?_⟩
    simp only [stmt, charge]
    split
    · exact ⟨_, rfl, trivial⟩
    · exact ⟨_, rfl, huuid⟩
  | ret r => exact absurd rfl (hret r)
  | done | failed => exact absurd trivial hopen

/-- **An execution that waits for nobody runs its next statement.** Source: none: infrastructure
(statement semantics). Kind: L -/
theorem exists_exec {st : Stmt} {ch : Choice} (he : σ.execs[i]? = some e)
    (hst : σ.stmt i e.now ch e.call e.pc = some st) (hnew : σ.Insertable st)
    (hfree : ∀ j, ¬ σ.Waits i j) : ∃ σ', σ.step (.exec i ch) = some σ' := by
  have hexec : σ.step (.exec i ch) = σ.runStmt i st := by
    simp only [step, exec, he, hst, Option.bind_eq_bind, Option.bind_some]
  rw [hexec]
  cases st with
  | update us ub next =>
    cases hs : σ.seats.update i us with
    | none =>
      obtain ⟨s, hmem, hcond, j, w, hne, hlock⟩ := Versioned.exists_owner hs
      exact absurd ⟨hne.symm, e, ch, us, ub, next, he, hst, .inl ⟨s, hmem, hcond, w, hlock⟩⟩ (hfree j)
    | some seats =>
      cases hb : σ.bookings.update i ub with
      | none =>
        obtain ⟨r, hmem, hcond, j, w, hne, hlock⟩ := Versioned.exists_owner hb
        exact absurd ⟨hne.symm, e, ch, us, ub, next, he, hst, .inr ⟨r, hmem, hcond, w, hlock⟩⟩ (hfree j)
      | some bookings => exact ⟨_, by simp only [runStmt, hs, hb]; rfl⟩
  | insertBooking row next =>
    have hkey : σ.bookings.committed.find? (key row) = none := hnew
    simp only [runStmt, hkey, dif_pos]
    split <;> exact ⟨_, rfl⟩
  | insertPayment row next =>
    have hkey : σ.payments.find? (key row) = none := hnew
    simp only [runStmt, hkey, dif_pos]
    split <;> exact ⟨_, rfl⟩
  | insertKey row next =>
    have hkey : σ.idempotencyKeys.find? (key row) = none := hnew
    exact ⟨_, by simp only [runStmt, hkey, dif_pos]; rfl⟩
  | insertDlqJob row next =>
    have hkey : σ.dlqJobs.find? (key row) = none := hnew
    exact ⟨_, by simp only [runStmt, hkey, dif_pos]; rfl⟩
  | _ => exact ⟨_, rfl⟩

/-- An execution that waits for nobody takes a step. Source: none: infrastructure. Kind: L -/
theorem Orderly.exists_step (h : Orderly σ) (he : σ.execs[i]? = some e) (hopen : ¬ atEnd e.pc)
    (hfree : ∀ j, ¬ σ.Waits i j) : ∃ a, Action.works a = true ∧ ∃ σ', σ.step a = some σ' := by
  by_cases hsent : e.pc = .sent
  · obtain ⟨call, client, now, pc⟩ := e
    cases hsent
    exact ⟨.start i, rfl, _, show σ.start i = _ by simp only [start, he]; rfl⟩
  by_cases hret : ∃ r, e.pc = .ret r
  · obtain ⟨r, hret⟩ := hret
    obtain ⟨call, client, now, pc⟩ := e
    cases hret
    exact ⟨.commit i, rfl, _, show σ.commit i = _ by simp only [commit, he]; rfl⟩
  obtain ⟨ch, st, hst, hnew⟩ : ∃ ch st, σ.stmt i e.now ch e.call e.pc = some st ∧ σ.Insertable st :=
    exists_stmt (h.visits i e he) hsent (fun r hr => hret ⟨r, hr⟩) hopen
  exact ⟨.exec i ch, rfl, exists_exec he hst hnew hfree⟩

/-- Whoever is waited for is under way. Source: none: infrastructure. Kind: L -/
theorem Orderly.exists_open {j : ℕ} (h : Orderly σ) (hw : σ.Waits i j) :
    ∃ e, σ.execs[j]? = some e ∧ ¬ atEnd e.pc := by
  have hopen : ∀ {e : Exec}, locking e.pc = true → ¬ atEnd e.pc := by
    intro e hlocking hend
    cases hpc : e.pc <;> simp_all [locking, atEnd]
  obtain ⟨-, _, _, _, _, _, -, -, ⟨s, -, -, w, hlock⟩ | ⟨r, -, -, w, hlock⟩⟩ := hw
  · obtain ⟨_, -, e, he, hlocking, -⟩ := h.locks.seats s.id j w hlock
    exact ⟨e, he, hopen hlocking⟩
  · obtain ⟨_, -, e, he, hlocking, -⟩ := h.locks.bookings r.id j w hlock
    exact ⟨e, he, hopen hlocking⟩

end progress

/-! ## Whatever has begun ends -/

/-- The steps the executions have left, at most. Source: none: infrastructure. Kind: D -/
def left (σ : Store) : ℕ := (σ.execs.map fun e => e.pc.left).sum

section ending

variable {σ σ' τ : Store} {a : Action} {as : List Action}

/-- **A step that works takes one of them**, and a call that is sent adds five. Source: the stored functions.
Kind: L -/
theorem Stepped.left_le (hs : Stepped σ a σ') :
    σ'.left + (if a.works then 1 else 0) ≤ σ.left + if a.begins then 5 else 0 := by
  have hmoves : ∀ {i : ℕ} {e : Exec} {g : Exec → Exec}, σ.execs[i]? = some e →
      (g e).pc.left < e.pc.left → ((σ.execs.modify i g).map fun e => e.pc.left).sum + 1 ≤ σ.left := by
    intro i e g he hlt
    have hsum := sum_map_modify (f := fun e : Exec => e.pc.left) (g := g) he
    simp only [left]
    omega
  cases hs with
  | begin => simp [left, Store.begin, Pc.left, Action.works, Action.begins]
  | tick => exact le_rfl
  | aborted he =>
    have hsum := sum_map_modify (f := fun e : Exec => e.pc.left) (g := fun e => { e with pc := .failed }) he
    simp only [left, fail, goto, Action.works, Action.begins, Bool.false_eq_true, if_false, add_zero]
    simp only [Pc.left] at hsum ⊢
    omega
  | start he hpc => exact hmoves he (by simp [hpc, Pc.left])
  | commit he hpc => exact hmoves he (by simp [hpc, Pc.left])
  | raised he hpc hr => exact hmoves he (lt_of_le_of_lt (Nat.zero_le _) hr.left_lt)
  | select he hr | update he hr | lockAdvisory he hr | insertBooking he hr | insertPayment he hr
  | insertKey he hr | updateKeys he hr | insertDlqJob he hr | updateDlqJobs he hr =>
    exact hmoves he hr.left_lt

/-- An execution has at most five steps left. Source: the stored functions. Kind: L -/
theorem left_le_length (σ : Store) : σ.left ≤ 5 * σ.execs.length := by
  have hle : σ.left ≤ 5 * σ.execs.countP fun _ => true := by
    refine sum_map_le_countP fun e _ => ?_
    cases e.pc <;> simp [Pc.left]
  simpa using hle

/-- Who works has not ended. Source: the stored functions. Kind: L -/
theorem Stepped.exists_open (hs : Stepped σ a σ') (ha : a.works = true) : ∃ e ∈ σ.execs, ¬ atEnd e.pc := by
  have hopen : ∀ {e : Exec} {st : Stmt}, (nextOf st).left < e.pc.left → ¬ atEnd e.pc := by
    intro e st hlt hend
    cases hpc : e.pc <;> simp_all [atEnd, Pc.left]
  cases hs with
  | begin | tick | aborted => cases ha
  | start he hpc | commit he hpc => exact ⟨_, List.mem_of_getElem? he, by simp [hpc, atEnd]⟩
  | raised he hpc hr => exact ⟨_, List.mem_of_getElem? he, hopen hr.left_lt⟩
  | select he hr | update he hr | lockAdvisory he hr | insertBooking he hr | insertPayment he hr
  | insertKey he hr | updateKeys he hr | insertDlqJob he hr | updateDlqJobs he hr =>
    exact ⟨_, List.mem_of_getElem? he, hopen hr.left_lt⟩

/-- **Where nobody gets on, everybody has ended.** Source: the stored functions. Kind: L -/
theorem Orderly.ended (h : Orderly σ) (hstuck : ∀ a, a.works = true → σ.step a = none) {i : ℕ} {e : Exec}
    (he : σ.execs[i]? = some e) : atEnd e.pc := by
  by_contra hopen
  obtain ⟨j, hchain, hfree⟩ := h.ranked.exists_free i
  have hj : ∃ e, σ.execs[j]? = some e ∧ ¬ atEnd e.pc := by
    cases hchain with
    | refl => exact ⟨e, he, hopen⟩
    | tail _ hw => exact h.exists_open hw
  obtain ⟨e', he', hopen'⟩ := hj
  obtain ⟨a, ha, σ', hσ'⟩ := h.exists_step he' hopen' hfree
  rw [hstuck a ha] at hσ'
  cases hσ'

/-- **Every call ends.** From any store that is reached, whatever runs, is aborted and is sent anew, the
transactions take at most five steps for each call, in whatever order, and when none of them can run a
statement or commit all have ended. A statement takes its row locks at once. Source: migrations
`100_fn_allocate_seat`, `110_fn_confirm_booking`, `20260418000000_split_release_hold`,
`130_fn_sweep_expired_holds`, `lib/payment/mock-service.ts` `charge`. Kind: P -/
theorem calls_end (h : Reach step Initial Always σ) (hrun : run step σ as = some τ) :
    as.countP Action.works ≤ 5 * (σ.execs.length + as.countP Action.begins) ∧
      ((∀ a, a.works = true → τ.step a = none) → ∀ e ∈ τ.execs, atEnd e.pc) := by
  have hstep : ∀ σ a σ', Orderly σ → step σ a = some σ' → Orderly σ' :=
    fun _ _ _ ho hst => ho.step (step_cases hst)
  have hpaid : ∀ σ a σ', Orderly σ → step σ a = some σ' →
      σ'.left + (if a.works then 1 else 0) ≤ σ.left + if a.begins then 5 else 0 :=
    fun _ _ _ _ hst => (step_cases hst).left_le
  have hcount := countP_add_le_of_run hstep hpaid (orderly_of_reach h) hrun
  have hleft := left_le_length σ
  refine ⟨by omega, fun hstuck e he => ?_⟩
  have horderly : Orderly τ :=
    invariant_of_run (fun σ a σ' ho _ => hstep σ a σ' ho) (orderly_of_reach h) (fun _ _ => trivial) hrun
  obtain ⟨i, he⟩ := List.getElem?_of_mem he
  exact horderly.ended hstuck he

/-- The two deliveries go on to their ends. Source: none: infrastructure. Kind: D -/
def finishing : List Action := [.exec 3 usualChoice, .commit 3, .exec 4 usualChoice, .commit 4]

/-- They do so within the bound. Source: none: infrastructure. Kind: L -/
theorem calls_end_contending : ∃ σ τ : Store, run step σ finishing = some τ ∧
    finishing.countP Action.works ≤ 5 * (σ.execs.length + finishing.countP Action.begins) ∧
    ((∀ a, a.works = true → τ.step a = none) → ∀ e ∈ τ.execs, atEnd e.pc) := by
  have hrun : (run step twoSeats contending).map (fun σ => (run step σ finishing).isSome) = some true := by
    decide
  obtain ⟨σ, hreach, hsome⟩ := reach_of_run initial_twoSeats hrun
  obtain ⟨τ, hτ⟩ := Option.isSome_iff_exists.mp hsome
  exact ⟨σ, τ, hτ, calls_end hreach hτ⟩

end ending

end Store

end TrainsAndTracks
