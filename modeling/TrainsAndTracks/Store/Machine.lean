import TrainsAndTracks.Found.Run
import TrainsAndTracks.Store.Functions

/-!
# The store as a machine

`Store.step` is one step of the database: a client sends a call, its transaction starts (`now()` is
fixed here), an execution runs its next statement, a returned execution commits, an open one is
aborted, or the clock advances. Executions interleave in any order; a call may start long after it
was sent. Row locks and the advisory lock are held to the commit or abort.

An aborted execution of a stored function leaves nothing of its transaction behind. Statements sent
on their own (the inserts, the writes of the response and of `retried_at`, the two halves of
`charge`) commit by themselves: their effect is visible when they run, and an abort after it is a
lost reply.
-/

namespace TrainsAndTracks

open Found

namespace Store

/-- Move execution `i` to the control point `pc`. Source: none: infrastructure. Kind: D -/
def goto (σ : Store) (i : ℕ) (pc : Pc) : Store :=
  { σ with execs := σ.execs.modify i fun e => { e with pc := pc } }

/-- Execution `i` fails: its transaction is rolled back. Source: none: infrastructure. Kind: D -/
def fail (σ : Store) (i : ℕ) : Store :=
  { σ with
    seats := σ.seats.rollback i
    bookings := σ.bookings.rollback i
    advisory := σ.advisory.filter (· ≠ i) }.goto i .failed

/-- Run one statement of execution `i`. A unique violation raises; a fresh `gen_random_uuid()` is
not one of the keys in use. `none`: the statement waits for a lock, or `uuid` is not fresh.
Source: none: infrastructure (statement semantics). Kind: D -/
def runStmt (σ : Store) (i : ℕ) : Stmt → Option Store
  | .select next => some (σ.goto i next)
  | .update us ub next =>
    match σ.seats.update i us, σ.bookings.update i ub with
    | some seats, some bookings => some ({ σ with seats := seats, bookings := bookings }.goto i next)
    | _, _ => none
  | .tryAdvisoryLock next => some ({ σ with advisory := some i }.goto i next)
  | .insertBooking row next =>
    if h : σ.bookings.committed.find? (key row) = none then
      if σ.bookings.committed.rows.any fun r => r.idempotencyKey == row.idempotencyKey then
        some (σ.fail i)
      else some ({ σ with bookings := σ.bookings.insert row h }.goto i next)
    else none
  | .insertPayment row next =>
    if h : σ.payments.find? (key row) = none then
      if σ.payments.rows.any fun p => p.idempotencyKey == row.idempotencyKey then
        some (σ.fail i)
      else some ({ σ with payments := σ.payments.insert row h }.goto i next)
    else none
  | .insertKey row next =>
    if h : σ.idempotencyKeys.find? (key row) = none then
      some ({ σ with idempotencyKeys := σ.idempotencyKeys.insert row h }.goto i next)
    else none
  | .updateKeys u next =>
    some ({ σ with idempotencyKeys := σ.idempotencyKeys.modify u.apply u.key_apply }.goto i next)
  | .insertDlqJob row next =>
    if h : σ.dlqJobs.find? (key row) = none then
      some ({ σ with dlqJobs := σ.dlqJobs.insert row h }.goto i next)
    else none
  | .updateDlqJobs u next =>
    some ({ σ with dlqJobs := σ.dlqJobs.modify u.apply u.key_apply }.goto i next)
  | .raise => some (σ.fail i)

/-- Execution `i` runs its next statement. Source: none: infrastructure. Kind: D -/
def exec (σ : Store) (i : ℕ) (ch : Choice) : Option Store := do
  let e ← σ.execs[i]?
  let st ← σ.stmt i e.now ch e.call e.pc
  σ.runStmt i st

/-- Execution `i` has returned and commits. Source: none: infrastructure. Kind: D -/
def commit (σ : Store) (i : ℕ) : Option Store :=
  match σ.execs[i]? with
  | some { pc := .ret r, .. } =>
    some ({ σ with
      seats := σ.seats.commit i
      bookings := σ.bookings.commit i
      advisory := σ.advisory.filter (· ≠ i) }.goto i (.done r))
  | _ => none

/-- Execution `i` fails before its commit (an error, a lost connection, a cancelled statement).
Source: none: infrastructure. Kind: D -/
def abort (σ : Store) (i : ℕ) : Option Store :=
  match σ.execs[i]? with
  | some { pc := .done _, .. } => none
  | some _ => some (σ.fail i)
  | none => none

/-- A step of the store. Source: none: infrastructure. Kind: D -/
inductive Action
  | begin (call : Call) (client : ℕ)
  | start (i : ℕ)
  | exec (i : ℕ) (ch : Choice)
  | commit (i : ℕ)
  | abort (i : ℕ)
  | tick (d : ℕ)

/-- A client sends a call. Source: none: infrastructure. Kind: D -/
def begin (σ : Store) (call : Call) (client : ℕ) : Store :=
  { σ with execs := σ.execs ++ [⟨call, client, σ.now, .sent⟩] }

/-- The transaction of execution `i` starts, which fixes its `now()`.
Source: none: infrastructure. Kind: D -/
def start (σ : Store) (i : ℕ) : Option Store :=
  match σ.execs[i]? with
  | some { pc := .sent, .. } =>
    some { σ with execs := σ.execs.modify i fun e => { e with now := σ.now, pc := .start } }
  | _ => none

/-- One step of the store. Source: none: infrastructure. Kind: D -/
def step (σ : Store) : Action → Option Store
  | .begin call client => some (σ.begin call client)
  | .start i => σ.start i
  | .exec i ch => σ.exec i ch
  | .commit i => σ.commit i
  | .abort i => σ.abort i
  | .tick d => some { σ with now := σ.now + d }

/-- The store before the first request: every seat of every train is free.
Source: migrations `900_seed_trains`, `910_seed_seats`. Kind: D. Fidelity: any trains and seats -/
structure Initial (σ : Store) : Prop where
  seats_free : ∀ s ∈ σ.seats.committed,
    s.status = .available ∧ s.bookingId = none ∧ s.heldBy = none ∧ s.heldUntil = none
  seats_unlocked : ∀ k, σ.seats.lock k = none
  bookings_empty : σ.bookings = .ofTable .empty
  payments_empty : σ.payments = .empty
  keys_empty : σ.idempotencyKeys = .empty
  dlq_empty : σ.dlqJobs = .empty
  advisory_free : σ.advisory = none
  execs_empty : σ.execs = []

/-- A store of free seats. Source: migrations `900_seed_trains`, `910_seed_seats`. Kind: D -/
def fresh (trains : List TrainId) (seats : Table Seat) : Store where
  trains := trains
  seats := .ofTable seats
  bookings := .ofTable .empty
  payments := .empty
  idempotencyKeys := .empty
  dlqJobs := .empty
  advisory := none
  execs := []
  now := 0

/-- It is initial. Source: migrations `900_seed_trains`, `910_seed_seats`. Kind: L -/
theorem initial_fresh (trains : List TrainId) {seats : Table Seat}
    (h : ∀ s ∈ seats.rows,
      s.status = .available ∧ s.bookingId = none ∧ s.heldBy = none ∧ s.heldUntil = none) :
    Initial (fresh trains seats) :=
  ⟨h, fun _ => rfl, rfl, rfl, rfl, rfl, rfl, rfl⟩

/-- A free seat. Source: migration `910_seed_seats`. Kind: D -/
def freeSeat (id : SeatId) (train : TrainId) : Seat := ⟨id, train, .available, none, none, none, 0⟩

/-- One train with two free seats, for single schedules. Source: none: infrastructure. Kind: D -/
def twoSeats : Store :=
  fresh ["12951"] ⟨[freeSeat "12951-A1" "12951", freeSeat "12951-A2" "12951"], by decide⟩

/-- It is initial. Source: none: infrastructure. Kind: L -/
theorem initial_twoSeats : Initial twoSeats := initial_fresh _ (by decide)

/-- What the world decides in single schedules. Source: none: infrastructure. Kind: D -/
def usualChoice : Choice := ⟨1, none, "12951-A1"⟩

/-- One call from its sending to its commit, with `n` statements. Source: none: infrastructure.
Kind: D -/
def oneCall (i : ℕ) (call : Call) (n : ℕ) : List Action :=
  [.begin call i, .start i] ++ List.replicate n (.exec i usualChoice) ++ [.commit i]

/-- A booking is created, paid, held and confirmed. Source: none: infrastructure. Kind: D -/
def ticketing : List Action :=
  oneCall 0 (.createBooking ⟨"k", "12951", "Asha", none, 126000⟩) 1 ++
  oneCall 1 (.charge 126000 "k") 2 ++ oneCall 2 (.allocateSeat "12951" 1 "Asha" 300) 2 ++
  oneCall 3 (.confirmBooking 1 "12951-A1" 1) 3

/-- Some seat is `CONFIRMED`. Source: none: infrastructure. Kind: D -/
def hasConfirmed (σ : Store) : Bool := σ.seats.committed.rows.any fun s => s.status == .confirmed

end Store

end TrainsAndTracks
