import TrainsAndTracks.Store.Writes

/-!
# Calls that run alone

In a store in which nothing runs, a call that nobody disturbs runs from its sending to its commit, and what
it does is a function of the tables.

* `Idle` — no row is locked.
* `Served σ call c r σ'` — a call alone returns `r` and leaves the tables of `σ'`.
* `idle_of_drain` — every store gets there: the executions that are open may all fail.
-/

namespace TrainsAndTracks

open Found

namespace Store

/-- No row is locked. Source: none: infrastructure. Kind: D -/
structure Idle (σ : Store) : Prop where
  seats : σ.seats = .ofTable σ.seats.committed
  bookings : σ.bookings = .ofTable σ.bookings.committed

/-- A step of the executions that are there; a charge that is drawn succeeds. Source:
`lib/payment/mock-service.ts` `charge`. Kind: D -/
def Succeeds (_ : Store) : Action → Prop
  | .begin .. => False
  | .exec _ ch => ch.gateway = none
  | _ => True

/-- The store with one more execution. Source: none: infrastructure. Kind: D -/
def withExec (σ : Store) (e : Exec) : Store := { σ with execs := σ.execs ++ [e] }

/-- The store after one more call, which has returned `r`. Source: none: infrastructure. Kind: D -/
def after (σ : Store) (call : Call) (client : ℕ) (r : Reply) : Store :=
  { σ.withExec ⟨call, client, σ.now, .done r⟩ with
    advisory := σ.advisory.filter (· ≠ σ.execs.length) }

/-- Served alone, the call of `client` returns `r` and leaves the tables of `σ'`. Source: none:
infrastructure. Kind: D -/
def Served (σ : Store) (call : Call) (client : ℕ) (r : Reply) (σ' : Store) : Prop :=
  Steps step Succeeds (σ.begin call client) (σ'.after call client r)

/-! ## One statement at a time -/

section statements

variable {σ : Store} {e : Exec} {ch : Choice} {next : Pc}

/-- The last execution. Source: none: infrastructure. Kind: L -/
@[simp] theorem execs_withExec (σ : Store) (e : Exec) :
    (σ.withExec e).execs[σ.execs.length]? = some e := by simp [withExec]

/-- The last execution moves. Source: none: infrastructure. Kind: L -/
theorem execs_modify_withExec (σ : Store) (e : Exec) (g : Exec → Exec) :
    (σ.withExec e).execs.modify σ.execs.length g = σ.execs ++ [g e] := by
  simp [withExec, List.modify_eq_take_drop]

/-- A statement reads the tables. Source: none: infrastructure. Kind: L -/
theorem stmt_withExec (σ : Store) (e : Exec) (i : ℕ) (now : Time) (ch : Choice) (call : Call) (pc : Pc) :
    (σ.withExec e).stmt i now ch call pc = σ.stmt i now ch call pc := by
  cases call <;> rfl

/-- The last execution runs its statement. Source: none: infrastructure. Kind: L -/
theorem exec_withExec {st : Stmt} (h : σ.stmt σ.execs.length e.now ch e.call e.pc = some st) :
    (σ.withExec e).exec σ.execs.length ch = (σ.withExec e).runStmt σ.execs.length st := by
  rw [← stmt_withExec σ e] at h
  simp only [exec, execs_withExec, Option.bind_eq_bind, Option.bind_some, h]

/-- The transaction starts. Source: none: infrastructure. Kind: L -/
theorem starts (σ : Store) (call : Call) (client : ℕ) :
    StepUnder step Succeeds (σ.begin call client) (σ.withExec ⟨call, client, σ.now, .start⟩) := by
  refine ⟨.start σ.execs.length, trivial, ?_⟩
  have hexec : (σ.begin call client).execs[σ.execs.length]? = some ⟨call, client, σ.now, .sent⟩ :=
    execs_withExec σ _
  simp only [step, start, hexec]
  refine congrArg some ?_
  show ({ σ with execs := (σ.withExec _).execs.modify _ _ } : Store) = _
  rw [execs_modify_withExec]
  rfl

/-- A `SELECT`. Source: none: infrastructure. Kind: L -/
theorem selects (hch : ch.gateway = none)
    (h : σ.stmt σ.execs.length e.now ch e.call e.pc = some (.select next)) :
    StepUnder step Succeeds (σ.withExec e) (σ.withExec { e with pc := next }) := by
  refine ⟨.exec σ.execs.length ch, hch, (exec_withExec h).trans ?_⟩
  simp only [runStmt, goto, execs_modify_withExec]
  rfl

/-- An `UPDATE`. Source: none: infrastructure. Kind: L -/
theorem updates {us : Update Seat} {ub : Update Booking} {seats : Versioned ℕ Seat}
    {bookings : Versioned ℕ Booking} (hch : ch.gateway = none)
    (h : σ.stmt σ.execs.length e.now ch e.call e.pc = some (.update us ub next))
    (hseats : σ.seats.update σ.execs.length us = some seats)
    (hbookings : σ.bookings.update σ.execs.length ub = some bookings) :
    StepUnder step Succeeds (σ.withExec e)
      ({ σ with seats := seats, bookings := bookings }.withExec { e with pc := next }) := by
  refine ⟨.exec σ.execs.length ch, hch, (exec_withExec h).trans ?_⟩
  have hseats' : (σ.withExec e).seats.update σ.execs.length us = some seats := hseats
  have hbookings' : (σ.withExec e).bookings.update σ.execs.length ub = some bookings := hbookings
  simp only [runStmt, hseats', hbookings', goto]
  rw [execs_modify_withExec]
  rfl

/-- The `INSERT` of a payment. Source: none: infrastructure. Kind: L -/
theorem insertsPayment {row : Payment} (hch : ch.gateway = none)
    (h : σ.stmt σ.execs.length e.now ch e.call e.pc = some (.insertPayment row next))
    (hnew : σ.payments.find? (key row) = none)
    (hkey : ∀ p ∈ σ.payments, p.idempotencyKey ≠ row.idempotencyKey) :
    StepUnder step Succeeds (σ.withExec e)
      ({ σ with payments := σ.payments.insert row hnew }.withExec { e with pc := next }) := by
  refine ⟨.exec σ.execs.length ch, hch, (exec_withExec h).trans ?_⟩
  have hfree : ((σ.withExec e).payments.rows.any fun p => p.idempotencyKey == row.idempotencyKey) = false :=
    List.any_eq_false.mpr fun p hp => by simpa using hkey p hp
  have hnew' : (σ.withExec e).payments.find? (key row) = none := hnew
  simp only [runStmt, hnew', dif_pos, hfree, Bool.false_eq_true, if_false, goto]
  rw [execs_modify_withExec]
  rfl

/-- The `UPDATE` of a response. Source: none: infrastructure. Kind: L -/
theorem updatesKeys {u : Update IdempotencyRow} (hch : ch.gateway = none)
    (h : σ.stmt σ.execs.length e.now ch e.call e.pc = some (.updateKeys u next)) :
    StepUnder step Succeeds (σ.withExec e)
      ({ σ with idempotencyKeys := σ.idempotencyKeys.modify u.apply u.key_apply }.withExec
        { e with pc := next }) := by
  refine ⟨.exec σ.execs.length ch, hch, (exec_withExec h).trans ?_⟩
  simp only [runStmt, goto]
  rw [execs_modify_withExec]
  rfl

/-- The commit. Source: none: infrastructure. Kind: L -/
theorem commits {call : Call} {client : ℕ} {r : Reply} :
    StepUnder step Succeeds (σ.withExec ⟨call, client, σ.now, .ret r⟩)
      ({ σ with
        seats := σ.seats.commit σ.execs.length
        bookings := σ.bookings.commit σ.execs.length }.after call client r) := by
  refine ⟨.commit σ.execs.length, trivial, ?_⟩
  simp only [step, commit, execs_withExec, goto]
  rw [execs_modify_withExec]
  rfl

end statements

/-! ## One call at a time -/

section calls

variable {σ σ' : Store} {c : ℕ} {b : BookingId} {k : IdempotencyKey}

/-- A call is served when its statements lead to its return. Source: none: infrastructure. Kind: L -/
theorem served_of_steps {σ₁ : Store} {call : Call} {r : Reply}
    (h : Steps step Succeeds (σ.withExec ⟨call, c, σ.now, .start⟩)
      (σ₁.withExec ⟨call, c, σ₁.now, .ret r⟩))
    (hσ' : { σ₁ with
      seats := σ₁.seats.commit σ₁.execs.length
      bookings := σ₁.bookings.commit σ₁.execs.length } = σ') :
    Served σ call c r σ' := by
  subst hσ'
  exact ((Relation.ReflTransGen.single (starts σ call c)).trans h).tail commits

/-- Without locks a commit leaves the seats. Source: none: infrastructure. Kind: L -/
theorem Idle.commit_seats (h : Idle σ) (i : ℕ) : σ.seats.commit i = σ.seats := by
  rw [h.seats]
  exact Versioned.commit_ofTable _ i

/-- Without locks a commit leaves the bookings. Source: none: infrastructure. Kind: L -/
theorem Idle.commit_bookings (h : Idle σ) (i : ℕ) : σ.bookings.commit i = σ.bookings := by
  rw [h.bookings]
  exact Versioned.commit_ofTable _ i

/-- A statement on the seats, and its commit. Source: none: infrastructure. Kind: L -/
theorem Idle.update_seats (h : Idle σ) (i : ℕ) (u : Update Seat) :
    ∃ seats, σ.seats.update i u = some seats ∧
      seats.commit i = .ofTable (σ.seats.committed.modify u.apply u.key_apply) := by
  rw [h.seats]
  exact Versioned.exists_update_ofTable _ i u

/-- A statement on the bookings, and its commit. Source: none: infrastructure. Kind: L -/
theorem Idle.update_bookings (h : Idle σ) (i : ℕ) (u : Update Booking) :
    ∃ bookings, σ.bookings.update i u = some bookings ∧
      bookings.commit i = .ofTable (σ.bookings.committed.modify u.apply u.key_apply) := by
  rw [h.bookings]
  exact Versioned.exists_update_ofTable _ i u

/-- A call that reads. Source: none: infrastructure. Kind: L -/
theorem Idle.served_select {call : Call} {r : Reply} (h : Idle σ) {ch : Choice}
    (hch : ch.gateway = none)
    (hstmt : σ.stmt σ.execs.length σ.now ch call .start = some (.select (.ret r))) :
    Served σ call c r σ :=
  served_of_steps (.single (selects hch hstmt)) (by rw [h.commit_seats, h.commit_bookings])

/-- A call that has been served leaves no locks. Source: none: infrastructure. Kind: L -/
theorem Idle.after {call : Call} {r : Reply} (h : Idle σ) : Idle (σ.after call c r) :=
  ⟨h.seats, h.bookings⟩

/-- A draw that succeeds. Source: `lib/payment/mock-service.ts` `charge`. Kind: D -/
def drawn (uuid : ℕ) : Choice := ⟨uuid, none, ""⟩

/-- **A lookup** returns the booking. Source: `lib/db/repositories/bookings.ts` `getBookingById`.
Kind: L -/
theorem Idle.served_getBookingById (h : Idle σ) :
    Served σ (.getBookingById b) c (.booking (σ.bookings.committed.find? b)) σ :=
  h.served_select (show (drawn 0).gateway = none from rfl) rfl

/-- **An allocation** finds or takes a seat while the train has one, and the hold is live. Source:
migration `100_fn_allocate_seat`. Kind: L -/
theorem Idle.served_allocateSeat {train : TrainId} {hold : ℕ} {s : Seat} {r : Booking} (h : Idle σ)
    (passenger : String) (hhold : 0 < hold) (hr : σ.bookings.committed.find? b = some r)
    (hs : s ∈ σ.seats.committed) (htrain : s.trainId = train) (hfree : s.status = .available) :
    ∃ seat version S w,
      Served σ (.allocateSeat train b passenger hold) c (.allocated (some (seat, version)))
        { σ with seats := .ofTable S } ∧
      S.find? seat = some w ∧ w.bookingId = some b ∧ w.liveAt σ.now = true := by
  cases hlive : σ.liveHold b σ.now "" with
  | some w =>
    have hmem : w ∈ σ.seats.committed.select fun s => s.bookingId == some b && s.liveAt σ.now := by
      unfold liveHold at hlive
      simp only [Option.or_eq_some_iff] at hlive
      rcases hlive with hfound | ⟨-, hhead⟩
      · exact List.mem_of_find?_eq_some hfound
      · exact List.mem_of_head? hhead
    obtain ⟨hw, hcond⟩ := Table.mem_select.mp hmem
    simp only [Bool.and_eq_true, beq_iff_eq] at hcond
    refine ⟨w.id, w.version, σ.seats.committed, w, ?_, Table.find?_of_mem hw, hcond⟩
    rw [← h.seats]
    exact h.served_select (show (drawn 0).gateway = none from rfl)
      (by simp [stmt, allocateSeat, drawn, hlive])
  | none =>
    have hcandidate : s ∈ σ.seats.committed.select fun s =>
        s.trainId == train && s.status == .available && !σ.seats.lockedFor σ.execs.length s.id := by
      refine Table.mem_select.mpr ⟨hs, ?_⟩
      rw [h.seats]
      simp [htrain, hfree, Versioned.lockedFor, Versioned.ofTable]
    obtain ⟨w, hpick⟩ : ∃ w, σ.pickAvailable σ.execs.length train = some w := by
      refine Option.ne_none_iff_exists'.mp fun hnone => ?_
      rw [pickAvailable, List.argmin_eq_none] at hnone
      rw [hnone] at hcandidate
      cases hcandidate
    have hw : w ∈ σ.seats.committed := (Table.mem_select.mp (List.argmin_mem hpick)).1
    let u := reserve w.id b passenger (σ.now + hold)
    obtain ⟨seats, hseats, hcommit⟩ := h.update_seats σ.execs.length u
    have hpicked : σ.stmt σ.execs.length σ.now (drawn 0) (.allocateSeat train b passenger hold) .start =
        some (.select .allocatePick) := by
      simp [stmt, allocateSeat, drawn, hlive]
    have htaken : σ.stmt σ.execs.length σ.now (drawn 0) (.allocateSeat train b passenger hold)
        .allocatePick = some (.update u .skip (.ret (.allocated (some (w.id, w.version + 1))))) := by
      simp [stmt, allocateSeat, hpick, hr, u]
    refine ⟨w.id, w.version + 1, σ.seats.committed.modify u.apply u.key_apply, u.set w, ?_, ?_, rfl, ?_⟩
    · refine served_of_steps
        (.tail (.single (selects rfl hpicked)) (updates rfl htaken hseats (Versioned.update_skip _ _))) ?_
      simp only [hcommit, h.commit_bookings]
    · rw [Table.find?_modify, show σ.seats.committed.find? w.id = some w from Table.find?_of_mem hw,
        Option.map_some, Update.apply, if_pos (by simp [u, reserve])]
    · simp [Seat.liveAt, u, reserve, hhold]

/-- **A charge** succeeds when no other payment for its key has failed. Source:
`lib/payment/mock-service.ts` `charge`. Kind: L -/
theorem Idle.served_charge {amount : ℕ} (h : Idle σ) (hamount : amount ≠ 0)
    (hok : ∀ p ∈ σ.payments, p.idempotencyKey = k → p.status = .succeeded) :
    ∃ payment replayed P pay,
      Served σ (.charge amount k) c (.paid payment replayed) { σ with payments := P } ∧
      P.find? payment = some pay := by
  cases hfound : σ.payments.rows.find? fun p => p.idempotencyKey == k with
  | some p =>
    have hp : p ∈ σ.payments := List.mem_of_find?_eq_some hfound
    have hst := hok p hp (by simpa using List.find?_some hfound)
    exact ⟨p.id, true, σ.payments, p,
      h.served_select (show (drawn 0).gateway = none from rfl) (by simp [stmt, charge, hfound, hst]),
      Table.find?_of_mem hp⟩
  | none =>
    have hkey : ∀ p ∈ σ.payments, p.idempotencyKey ≠ k := fun p hp => by
      simpa using List.find?_eq_none.mp hfound p hp
    obtain ⟨uuid, hnew⟩ := σ.payments.exists_find?_eq_none
    let row : Payment := ⟨uuid, k, amount, .succeeded, none⟩
    have hread : σ.stmt σ.execs.length σ.now (drawn uuid) (.charge amount k) .start =
        some (.select .chargeInsert) := by
      simp [stmt, charge, hfound]
    have hdraw : σ.stmt σ.execs.length σ.now (drawn uuid) (.charge amount k) .chargeInsert =
        some (.insertPayment row (.ret (.paid uuid false))) := by
      simp [stmt, charge, hamount, drawn, row]
    refine ⟨uuid, false, σ.payments.insert row hnew, row,
      served_of_steps (.tail (.single (selects rfl hread)) (insertsPayment rfl hdraw hnew hkey)) ?_, ?_⟩
    · simp only [h.commit_seats, h.commit_bookings]
    · rw [Table.find?_insert]
      exact if_pos rfl

/-- **A confirmation** of a live hold confirms the booking. Source: migration `110_fn_confirm_booking`.
Kind: L -/
theorem Idle.served_confirmBooking {seat : SeatId} {payment : PaymentId} {r : Booking} {w : Seat}
    {pay : Payment} (h : Idle σ) (hr : σ.bookings.committed.find? b = some r) (hopen : r.status = .pending)
    (hw : σ.seats.committed.find? seat = some w) (hb : w.bookingId = some b)
    (hlive : w.liveAt σ.now = true) (hpay : σ.payments.find? payment = some pay) :
    ∃ S B r', Served σ (.confirmBooking b seat payment) c (.confirmed (some b))
        { σ with seats := .ofTable S, bookings := .ofTable B } ∧
      B.find? b = some r' ∧ r'.status = .confirmed := by
  let us := confirmSeatUpdate b seat σ.now
  let ub := confirmRowUpdate b seat payment σ.now
  have hws : us.cond w = true :=
    confirmSeatUpdate_cond_iff.mpr ⟨Table.key_of_find? hw, hb, hlive⟩
  have hrs : ub.cond r = true := confirmRowUpdate_cond_iff.mpr ⟨Table.key_of_find? hr, hopen⟩
  obtain ⟨seats, hseats, hcommit⟩ := h.update_seats σ.execs.length us
  obtain ⟨bookings, hbookings, hcommit'⟩ := h.update_bookings σ.execs.length ub
  have hread : σ.stmt σ.execs.length σ.now (drawn 0) (.confirmBooking b seat payment) .start =
      some (.select .confirmSeat) := by
    simp [stmt, confirmBooking, hr, hopen]
  have hseat : σ.stmt σ.execs.length σ.now (drawn 0) (.confirmBooking b seat payment) .confirmSeat =
      some (.update us .skip .confirmRow) := by
    have hmatch : (σ.seats.committed.select us.cond).isEmpty = false :=
      List.isEmpty_eq_false_iff_exists_mem.mpr ⟨w, Table.mem_select.mpr ⟨Table.mem_of_find? hw, hws⟩⟩
    simp [stmt, confirmBooking, us, hmatch]
  have hrow : ({ σ with seats := seats } : Store).stmt σ.execs.length σ.now (drawn 0)
      (.confirmBooking b seat payment) .confirmRow =
      some (.update .skip ub (.ret (.confirmed (some b)))) := by
    have hmatch : (σ.bookings.committed.select ub.cond).isEmpty = false :=
      List.isEmpty_eq_false_iff_exists_mem.mpr ⟨r, Table.mem_select.mpr ⟨Table.mem_of_find? hr, hrs⟩⟩
    simp [stmt, confirmBooking, ub, hmatch, hpay]
  refine ⟨σ.seats.committed.modify us.apply us.key_apply,
    σ.bookings.committed.modify ub.apply ub.key_apply, ub.set r, ?_, ?_, rfl⟩
  · refine served_of_steps (.tail (.tail (.single (selects rfl hread))
      (updates rfl hseat hseats (Versioned.update_skip _ _)))
      (updates rfl hrow (Versioned.update_skip _ _) hbookings)) ?_
    simp only [hcommit, hcommit']
  · rw [Table.find?_modify, hr, Option.map_some, Update.apply, if_pos hrs]

/-- **A response** is written. Source: migration `150_fn_write_idempotency_response`. Kind: L -/
theorem Idle.served_writeIdempotencyResponse (h : Idle σ) (status : ℕ) (body : CachedBody) :
    ∃ K, Served σ (.writeIdempotencyResponse k status body) c .unit { σ with idempotencyKeys := K } := by
  let u := writeResponseUpdate k status body
  have hwrite : σ.stmt σ.execs.length σ.now (drawn 0) (.writeIdempotencyResponse k status body) .start =
      some (.updateKeys u (.ret .unit)) := rfl
  refine ⟨σ.idempotencyKeys.modify u.apply u.key_apply,
    served_of_steps (.single (updatesKeys rfl hwrite)) ?_⟩
  simp only [h.commit_seats, h.commit_bookings]

end calls

/-! ## Letting the open executions fail -/

section drain

variable {σ σ' : Store}

/-- The same tables, clock and number of executions. Source: none: infrastructure. Kind: D -/
structure SameRows (σ σ' : Store) : Prop where
  seats : σ'.seats.committed = σ.seats.committed
  bookings : σ'.bookings.committed = σ.bookings.committed
  payments : σ'.payments = σ.payments
  now : σ'.now = σ.now
  length : σ'.execs.length = σ.execs.length

/-- Point `pc` is past the last statement. Source: none: infrastructure. Kind: D -/
def atEnd : Pc → Prop
  | .done _ | .failed => True
  | _ => False

/-- The first `n` executions can be over. Source: none: infrastructure. Kind: L -/
theorem drain (σ : Store) (n : ℕ) :
    ∃ σ', Steps step Succeeds σ σ' ∧ SameRows σ σ' ∧
      ∀ i < n, ∀ e, σ'.execs[i]? = some e → atEnd e.pc := by
  induction n with
  | zero => exact ⟨σ, .refl, ⟨rfl, rfl, rfl, rfl, rfl⟩, nofun⟩
  | succ n ih =>
    obtain ⟨σ₁, hsteps, hsame, hover⟩ := ih
    by_cases hn : ∀ e, σ₁.execs[n]? = some e → atEnd e.pc
    · refine ⟨σ₁, hsteps, hsame, fun i hi e he => ?_⟩
      rcases Nat.lt_succ_iff_lt_or_eq.mp hi with hlt | rfl
      · exact hover i hlt e he
      · exact hn e he
    · push Not at hn
      obtain ⟨e, he, hopen⟩ := hn
      have habort : σ₁.step (.abort n) = some (σ₁.fail n) := by
        obtain ⟨call, client, now, pc⟩ := e
        cases pc with
        | done r => exact absurd trivial hopen
        | _ => simp only [step, abort, he]
      refine ⟨σ₁.fail n, hsteps.tail ⟨.abort n, trivial, habort⟩, ?_, fun i hi e' he' => ?_⟩
      · exact ⟨hsame.seats, hsame.bookings, hsame.payments, hsame.now,
          (List.length_modify _ _ _).trans hsame.length⟩
      · simp only [fail, goto, List.getElem?_modify, Option.map_eq_map, Option.map_eq_some_iff] at he'
        obtain ⟨e₁, he₁, rfl⟩ := he'
        split
        · trivial
        · rename_i hne
          have hlt : i < n := Nat.lt_of_le_of_ne (Nat.lt_succ_iff.mp hi) (Ne.symm hne)
          exact hover i hlt e₁ he₁

/-- **A store in which nothing runs is idle.** Source: none: infrastructure. Kind: L -/
theorem idle_of_atEnd (hl : LocksOk σ) (h : ∀ e ∈ σ.execs, atEnd e.pc) : Idle σ := by
  have hnone : ∀ {W i}, ¬ σ.Writer W i := by
    rintro W i ⟨e, he, hlock, -⟩
    have hend := h e (List.mem_of_getElem? he)
    unfold atEnd at hend
    split at hend <;> simp_all [locking]
  constructor
  · refine Versioned.eq_ofTable fun k => Option.eq_none_iff_forall_ne_some.mpr fun ⟨i, w⟩ hlock => ?_
    obtain ⟨_, -, hw⟩ := hl.seats k i w hlock
    exact hnone hw
  · refine Versioned.eq_ofTable fun k => Option.eq_none_iff_forall_ne_some.mpr fun ⟨i, w⟩ hlock => ?_
    obtain ⟨_, -, hw⟩ := hl.bookings k i w hlock
    exact hnone hw

/-- **Every store can become idle** without changing a row: the executions that are open fail.
Source: none: infrastructure. Kind: L -/
theorem idle_of_drain (hl : LocksOk σ) :
    ∃ σ', Steps step Succeeds σ σ' ∧ SameRows σ σ' ∧ Idle σ' := by
  obtain ⟨σ', hsteps, hsame, hover⟩ := drain σ σ.execs.length
  have hl' : LocksOk σ' := hsteps.invariant (fun _ _ _ h _ hst => h.step (step_cases hst)) hl
  refine ⟨σ', hsteps, hsame, idle_of_atEnd hl' fun e he => ?_⟩
  obtain ⟨i, he⟩ := List.getElem?_of_mem he
  have hlt : i < σ.execs.length := by
    rw [← hsame.length]
    exact (List.getElem?_eq_some_iff.mp he).1
  exact hover i hlt e he

end drain

end Store

end TrainsAndTracks
