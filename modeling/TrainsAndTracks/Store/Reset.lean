import TrainsAndTracks.Store.Lifecycle

/-!
# The statements of a reset

`POST /api/admin/reset` sends five statements, each in a transaction of its own, into a store in which
other executions are under way.

* `resetSeats`, `resetBookings`, `resetPayments`, `resetKeys`, `resetDlqJobs` — the statements, with the
  locks they wait for, the constraints that refuse them and the number of rows they affect. A statement
  that deletes rows other executions may lock carries the ids its snapshot has matched.
* `seatRefuses`, `bookingRefuses` — the two constraints: `ON DELETE SET NULL` on a seat whose `CHECK` asks
  for a booking, and the foreign key from `bookings` to `payments`.
* `resetSeats_cases`, `resetBookings_cases`, `resetPayments_cases` — how they end; a statement that has
  affected no row has changed nothing (`resetSeats_zero` and so on).
-/

namespace TrainsAndTracks

open Found

namespace Store

/-! ## Statement 1 -/

/-- How a statement in a transaction of its own ends: it raises and leaves nothing, or it commits and has
affected `rows` rows. Source: none: infrastructure. Kind: D -/
inductive ResetOutcome
  | raised
  | committed (σ : Store) (rows : ℕ)

/-- `UPDATE seats SET status = 'AVAILABLE', … WHERE train_id = train`. Source:
`app/api/admin/reset/route.ts` (statement 1). Kind: D. Fidelity: exact -/
def resetSeatsUpdate (train : TrainId) : Update Seat where
  cond s := s.trainId == train
  set s := { s with
    status := .available, bookingId := none, heldBy := none, heldUntil := none, version := 0 }
  key_set _ := rfl

/-- Statement 1. It waits while a seat of the train is locked; no seat is ever added, so it needs no
snapshot. Source: `app/api/admin/reset/route.ts` (statement 1). Kind: D. Fidelity: exact -/
def resetSeats (σ : Store) (train : TrainId) : Option ResetOutcome :=
  let u := resetSeatsUpdate train
  if σ.seats.held u.cond then none
  else some (.committed { σ with seats := σ.seats.modify u } (σ.seats.committed.select u.cond).length)

/-! ## Statement 2 -/

/-- The bookings statement 2 deletes, among those its snapshot has matched. Source:
`app/api/admin/reset/route.ts` (statement 2). Kind: D. Fidelity: exact -/
def deletes (train : TrainId) (snapshot : List BookingId) (r : Booking) : Bool :=
  snapshot.contains r.id && r.trainId == train

/-- The seat names a booking that statement 2 deletes. Source: migration `160_fk_seats_booking_id`.
Kind: D. Fidelity: exact -/
def namesDeleted (σ : Store) (train : TrainId) (snapshot : List BookingId) (s : Seat) : Bool :=
  s.bookingId.any fun b => (σ.bookings.committed.find? b).any (deletes train snapshot)

/-- `ON DELETE SET NULL`. Source: migration `160_fk_seats_booking_id`. Kind: D. Fidelity: exact -/
def setNullUpdate (named : Seat → Bool) : Update Seat where
  cond := named
  set s := { s with bookingId := none }
  key_set _ := rfl

/-- The referential action of statement 2 violates the `CHECK` of `seats`. Source: migrations
`030_seats`, `160_fk_seats_booking_id`. Kind: D. Fidelity: exact -/
def seatRefuses (σ : Store) (train : TrainId) (snapshot : List BookingId) : Bool :=
  let u := setNullUpdate (σ.namesDeleted train snapshot)
  σ.seats.committed.rows.any fun s => u.cond s && !(u.set s).check

/-- Statement 2. It waits while a row it deletes is locked, while an open allocation names one (its
foreign-key check has locked the row) and while a seat that names one is locked. Source:
`app/api/admin/reset/route.ts` (statement 2), migration `160_fk_seats_booking_id`. Kind: D.
Fidelity: exact -/
def resetBookings (σ : Store) (train : TrainId) (snapshot : List BookingId) : Option ResetOutcome :=
  let del := deletes train snapshot
  let u := setNullUpdate (σ.namesDeleted train snapshot)
  if σ.bookings.held del || σ.seats.pending u.cond || σ.seats.held u.cond then none
  else if σ.seatRefuses train snapshot then some .raised
  else some (.committed { σ with seats := σ.seats.modify u, bookings := σ.bookings.delete del }
    (σ.bookings.committed.select del).length)

/-! ## Statements 3 to 5 -/

/-- The booking names a payment of the snapshot. Source: migration `060_bookings` (`payment_id`).
Kind: D. Fidelity: exact -/
def references (snapshot : List PaymentId) (r : Booking) : Bool := r.paymentId.any snapshot.contains

/-- Statement 3 violates the foreign key `bookings.payment_id → payments.id`. Source: migration
`060_bookings`. Kind: D. Fidelity: exact -/
def bookingRefuses (σ : Store) (snapshot : List PaymentId) : Bool :=
  σ.bookings.committed.rows.any (references snapshot)

/-- Statement 3, the payments of every train. It waits while an open confirmation names one (its
foreign-key check has locked the row). Source: `app/api/admin/reset/route.ts` (statement 3), migration
`060_bookings`. Kind: D. Fidelity: exact -/
def resetPayments (σ : Store) (snapshot : List PaymentId) : Option ResetOutcome :=
  let del := fun p : Payment => snapshot.contains p.id
  if σ.bookings.pending (references snapshot) then none
  else if σ.bookingRefuses snapshot then some .raised
  else some (.committed { σ with payments := σ.payments.delete del } (σ.payments.select del).length)

/-- Statement 4, the keys of the last hour. Source: `app/api/admin/reset/route.ts` (statement 4).
Kind: D. Fidelity: exact -/
def resetKeys (σ : Store) : ResetOutcome :=
  let del := fun r : IdempotencyRow => decide (σ.now < r.createdAt + 3600)
  .committed { σ with idempotencyKeys := σ.idempotencyKeys.delete del }
    (σ.idempotencyKeys.select del).length

/-- Statement 5, the jobs that are not resolved. Source: `app/api/admin/reset/route.ts` (statement 5).
Kind: D. Fidelity: exact -/
def resetDlqJobs (σ : Store) : ResetOutcome :=
  let del := fun j : DlqJob => j.resolvedAt.isNone
  .committed { σ with dlqJobs := σ.dlqJobs.delete del } (σ.dlqJobs.select del).length

/-! ## How the statements end -/

section outcomes

variable {σ σ' : Store} {train : TrainId} {out : ResetOutcome} {n : ℕ}

/-- Inversion of statement 1. Source: `app/api/admin/reset/route.ts` (statement 1). Kind: L -/
theorem resetSeats_cases (h : σ.resetSeats train = some out) :
    σ.seats.held (resetSeatsUpdate train).cond = false ∧
    out = .committed { σ with seats := σ.seats.modify (resetSeatsUpdate train) }
      (σ.seats.committed.select (resetSeatsUpdate train).cond).length := by
  simp only [resetSeats] at h
  split at h
  · cases h
  · rename_i hfree
    cases h
    exact ⟨by simpa using hfree, rfl⟩

/-- Inversion of statement 2. Source: `app/api/admin/reset/route.ts` (statement 2). Kind: L -/
theorem resetBookings_cases {snapshot : List BookingId}
    (h : σ.resetBookings train snapshot = some out) :
    (out = .raised ∧ σ.seatRefuses train snapshot = true) ∨
    (σ.bookings.held (deletes train snapshot) = false ∧
      σ.seats.pending (σ.namesDeleted train snapshot) = false ∧
      σ.seats.held (σ.namesDeleted train snapshot) = false ∧
      σ.seatRefuses train snapshot = false ∧
      out = .committed
        { σ with
          seats := σ.seats.modify (setNullUpdate (σ.namesDeleted train snapshot))
          bookings := σ.bookings.delete (deletes train snapshot) }
        (σ.bookings.committed.select (deletes train snapshot)).length) := by
  simp only [resetBookings] at h
  split at h
  · cases h
  · rename_i hfree
    simp only [Bool.or_eq_true, not_or, Bool.not_eq_true] at hfree
    obtain ⟨⟨hheld, hpending⟩, hseats⟩ := hfree
    split at h
    · rename_i hrefuses
      cases h
      exact .inl ⟨rfl, hrefuses⟩
    · rename_i haccepts
      cases h
      exact .inr ⟨hheld, hpending, hseats, by simpa using haccepts, rfl⟩

/-- Inversion of statement 3. Source: `app/api/admin/reset/route.ts` (statement 3). Kind: L -/
theorem resetPayments_cases {snapshot : List PaymentId} (h : σ.resetPayments snapshot = some out) :
    (out = .raised ∧ σ.bookingRefuses snapshot = true) ∨
    (σ.bookings.pending (references snapshot) = false ∧ σ.bookingRefuses snapshot = false ∧
      out = .committed { σ with payments := σ.payments.delete fun p => snapshot.contains p.id }
        (σ.payments.select fun p => snapshot.contains p.id).length) := by
  simp only [resetPayments] at h
  split at h
  · cases h
  · rename_i hfree
    split at h
    · rename_i hrefuses
      cases h
      exact .inl ⟨rfl, hrefuses⟩
    · rename_i haccepts
      cases h
      exact .inr ⟨by simpa using hfree, by simpa using haccepts, rfl⟩

/-- A statement that counts no row is for none. Source: none: infrastructure. Kind: L -/
theorem select_length_eq_zero {ρ κ : Type*} [Keyed ρ κ] [DecidableEq κ] {t : Table ρ} {p : ρ → Bool}
    (h : (t.select p).length = 0) : ∀ r ∈ t, p r = false :=
  select_isEmpty_iff.mp (List.isEmpty_iff_length_eq_zero.mpr h)

/-- Statement 1 has changed nothing when it has affected no row. Source:
`app/api/admin/reset/route.ts` (statement 1). Kind: L -/
theorem resetSeats_zero (h : σ.resetSeats train = some (.committed σ' 0)) : σ' = σ := by
  obtain ⟨-, hout⟩ := resetSeats_cases h
  simp only [ResetOutcome.committed.injEq] at hout
  obtain ⟨rfl, hzero⟩ := hout
  rw [Versioned.modify_eq_self (select_length_eq_zero hzero.symm)]

/-- Statement 2 has changed nothing when it has affected no row. Source:
`app/api/admin/reset/route.ts` (statement 2). Kind: L -/
theorem resetBookings_zero {snapshot : List BookingId}
    (h : σ.resetBookings train snapshot = some (.committed σ' 0)) : σ' = σ := by
  rcases resetBookings_cases h with ⟨hout, -⟩ | ⟨-, -, -, -, hout⟩
  · cases hout
  · simp only [ResetOutcome.committed.injEq] at hout
    obtain ⟨rfl, hzero⟩ := hout
    have hnone := select_length_eq_zero hzero.symm
    have hnames : ∀ s ∈ σ.seats.committed, σ.namesDeleted train snapshot s = false := by
      intro s _
      simp only [namesDeleted, Option.any_eq_false]
      exact fun b _ r hr => by simpa using hnone r (Table.mem_of_find? hr)
    rw [Versioned.delete_eq_self hnone, Versioned.modify_eq_self hnames]

/-- Statement 3 has changed nothing when it has affected no row. Source:
`app/api/admin/reset/route.ts` (statement 3). Kind: L -/
theorem resetPayments_zero {snapshot : List PaymentId}
    (h : σ.resetPayments snapshot = some (.committed σ' 0)) : σ' = σ := by
  rcases resetPayments_cases h with ⟨hout, -⟩ | ⟨-, -, hout⟩
  · cases hout
  · simp only [ResetOutcome.committed.injEq] at hout
    obtain ⟨rfl, hzero⟩ := hout
    rw [Table.delete_eq_self (select_length_eq_zero hzero.symm)]

/-- Statement 4 has changed nothing when it has affected no row. Source:
`app/api/admin/reset/route.ts` (statement 4). Kind: L -/
theorem resetKeys_zero (h : σ.resetKeys = .committed σ' 0) : σ' = σ := by
  simp only [resetKeys, ResetOutcome.committed.injEq] at h
  obtain ⟨rfl, hzero⟩ := h
  rw [Table.delete_eq_self (select_length_eq_zero hzero)]

/-- Statement 5 has changed nothing when it has affected no row. Source:
`app/api/admin/reset/route.ts` (statement 5). Kind: L -/
theorem resetDlqJobs_zero (h : σ.resetDlqJobs = .committed σ' 0) : σ' = σ := by
  simp only [resetDlqJobs, ResetOutcome.committed.injEq] at h
  obtain ⟨rfl, hzero⟩ := h
  rw [Table.delete_eq_self (select_length_eq_zero hzero)]

end outcomes

end Store

end TrainsAndTracks
