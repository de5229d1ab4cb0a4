import Mathlib.Algebra.Order.BigOperators.Group.Finset
import Mathlib.Data.Prod.Lex
import TrainsAndTracks.Found.SkipLocked
import TrainsAndTracks.Store.Statements

/-!
# `allocate_seat` under concurrency

The second statement of `allocate_seat`, taken apart: its subquery comes to the lowest row that is free at
that moment, locks it if it is free still and passes it over if not, the `UPDATE` makes a version of the
row, and the transaction commits.

* `Picks.step` — concurrent calls on one train, one of these steps at a time.
* `Standing` — where a seat stands: free, or with the one call that has locked, updated or taken it. It is
  the invariant of every run.
* `NoFalseSoldOut` — different calls return different seats, and with a free seat for each of them none is
  sold out and each takes one.
* `no_false_sold_out` — every run keeps to it, no call ever waits, and every run ends.
* `pickAvailable_of_locks` — without a failure the row that is locked is the one that the atomic statement
  of `Store.Functions` picks at that moment.
-/

namespace TrainsAndTracks

open Found

/-- The point an allocation has reached. Source: migration `100_fn_allocate_seat`. Kind: D -/
inductive PickPc
  | sent
  /-- Its transaction has started, and statement 1 is next. -/
  | started
  /-- Statement 1 has found no hold. -/
  | picking
  /-- The subquery has come to a row. -/
  | picked (k : SeatId)
  /-- It has locked the row. -/
  | locked (k : SeatId)
  /-- The function has returned a row or none, and its transaction has not committed. -/
  | ret (row : Option (SeatId × ℕ))
  | done (row : Option (SeatId × ℕ))
  | failed
  deriving DecidableEq, Repr

namespace PickPc

/-- The seat a call has to itself. Source: migration `100_fn_allocate_seat`. Kind: D -/
def seat : PickPc → Option SeatId
  | .locked k => some k
  | .ret row | .done row => row.map Prod.fst
  | _ => none

/-- What a call has returned. Source: migration `100_fn_allocate_seat`. Kind: D -/
def returned : PickPc → Option (Option (SeatId × ℕ))
  | .ret row | .done row => some row
  | _ => none

/-- The call has ended. Source: none: infrastructure. Kind: D -/
def ended : PickPc → Bool
  | .done _ | .failed => true
  | _ => false

end PickPc

/-- A call with its arguments, `now()` and the point it has reached. Source: migration
`100_fn_allocate_seat`. Kind: D. Fidelity: exact -/
structure PickCall where
  bookingId : BookingId
  passengerName : String
  hold : ℕ
  now : Time
  pc : PickPc

/-- The assignment a call makes to seat `k`. Source: migration `100_fn_allocate_seat` (statement 2).
Kind: D. Fidelity: exact -/
def PickCall.reserve (e : PickCall) (k : SeatId) : Update Seat :=
  Store.reserve k e.bookingId e.passengerName (e.now + e.hold)

/-- The seats, the bookings and the calls for seats of one train. A call is named by its position. Source:
migration `100_fn_allocate_seat`. Kind: D -/
structure Picks where
  trainId : TrainId
  seats : Versioned ℕ Seat
  bookings : Table Booking
  calls : List PickCall

namespace Picks

/-! ## Steps -/

/-- A step of call `i`. Source: none: infrastructure. Kind: D -/
inductive Action
  /-- Its transaction starts, which fixes `now()`. -/
  | start (i : ℕ) (now : Time)
  /-- Statement 1; `row` is what an unordered `LIMIT 1` returns. -/
  | guard (i : ℕ) (row : SeatId)
  | pick (i : ℕ)
  | lock (i : ℕ)
  | update (i : ℕ)
  | commit (i : ℕ)
  | abort (i : ℕ)
  deriving DecidableEq, Repr

/-- The call that takes the step. Source: none: infrastructure. Kind: D -/
def Action.call : Action → ℕ
  | .start i _ | .guard i _ | .pick i | .lock i | .update i | .commit i | .abort i => i

/-- `train_id = p_train_id AND status = 'AVAILABLE'`. Source: migration `100_fn_allocate_seat` (statement 2).
Kind: D. Fidelity: exact -/
def available (w : Picks) (s : Seat) : Bool := s.trainId == w.trainId && s.status == .available

/-- The re-delivery guard's `SELECT … LIMIT 1`. Source: migration `100_fn_allocate_seat` (statement 1).
Kind: D. Fidelity: exact -/
def liveHold (w : Picks) (b : BookingId) (now : Time) (row : SeatId) : Option Seat :=
  let holds := w.seats.committed.select fun s => s.bookingId == some b && s.liveAt now
  (holds.find? fun s => s.id == row).or holds.head?

/-- Call `i` goes on to `pc`. Source: none: infrastructure. Kind: D -/
def goto (w : Picks) (i : ℕ) (pc : PickPc) : Picks :=
  { w with calls := w.calls.modify i fun e => { e with pc := pc } }

/-- Call `i` fails: its transaction is rolled back. Source: none: infrastructure. Kind: D -/
def fail (w : Picks) (i : ℕ) : Picks := { w with seats := w.seats.rollback i }.goto i .failed

/-- What a step makes of the call `e` that takes it. Source: migration `100_fn_allocate_seat`. Kind: D.
Fidelity: exact -/
def move (w : Picks) (e : PickCall) : Action → PickPc → Option Picks
  | .start i now, .sent =>
    some { w with calls := w.calls.modify i fun e => { e with now := now, pc := .started } }
  | .guard i row, .started =>
    match w.liveHold e.bookingId e.now row with
    | some s => some (w.goto i (.ret (some (s.id, s.version))))
    | none => some (w.goto i .picking)
  | .pick i, .picking =>
    match w.seats.pickFree w.available with
    | some s => some (w.goto i (.picked s.id))
    | none => some (w.goto i (.ret none))
  | .lock i, .picked k =>
    -- `SKIP LOCKED`: the row is passed over unless it is free still
    match (w.seats.free w.available).find? fun s => s.id == k with
    | some s => (w.seats.update i (.lockRow s.id)).map fun seats =>
        { w with seats := seats }.goto i (.locked s.id)
    | none => some (w.goto i .picking)
  | .update i, .locked k =>
    match w.seats.committed.find? k with
    | some s =>
      -- the foreign key `seats.booking_id → bookings.id`
      if (w.bookings.find? e.bookingId).isNone then some (w.fail i)
      else (w.seats.update i (e.reserve k)).map fun seats =>
        { w with seats := seats }.goto i (.ret (some (s.id, s.version + 1)))
    | none => none
  | .commit i, .ret row => some ({ w with seats := w.seats.commit i }.goto i (.done row))
  | .abort i, pc => if pc.ended then none else some (w.fail i)
  | _, _ => none

/-- One step. Source: none: infrastructure. Kind: D -/
def step (w : Picks) (a : Action) : Option Picks :=
  (w.calls[a.call]?).bind fun e => w.move e a e.pc

/-- The calls have just been sent, for different bookings that hold no seat, and nothing else runs. Source:
migration `100_fn_allocate_seat`. Kind: D -/
structure Initial (w : Picks) : Prop where
  unlocked : ∀ k, w.seats.lock k = none
  sent : ∀ e ∈ w.calls, e.pc = .sent
  distinct : (w.calls.map PickCall.bookingId).Nodup
  unheld : ∀ e ∈ w.calls, ∀ s ∈ w.seats.committed, s.heldFor e.bookingId = false

/-! ## The contract -/

/-- The free seats of the train. Source: migration `100_fn_allocate_seat`. Kind: D -/
def free (w : Picks) : List Seat := w.seats.free w.available

/-- The seats that have become `RESERVED` since `w₀`. Source: migration `100_fn_allocate_seat`. Kind: D -/
def reservedSince (w₀ w : Picks) : List Seat :=
  w.seats.committed.select fun s => s.status == .reserved &&
    (w₀.seats.committed.find? s.id).all (·.status != .reserved)

/-- **No false sold-out.** Different calls return different seats; with a free seat for each call at the
start no call returns without one, and when all have committed, as many seats have become `RESERVED` as
there are calls, one for each booking. Source: migration `100_fn_allocate_seat` (header),
`infra/qstash/publisher.ts` (`parallelism`). Kind: D -/
structure NoFalseSoldOut (w₀ w : Picks) : Prop where
  distinct : ∀ (i j : ℕ) (e e' : PickCall) (k : SeatId) (v v' : ℕ), w.calls[i]? = some e →
    w.calls[j]? = some e' → e.pc.returned = some (some (k, v)) → e'.pc.returned = some (some (k, v')) →
    i = j
  served : w₀.calls.length ≤ w₀.free.length → ∀ e ∈ w.calls, e.pc.returned ≠ some none
  reserved : w₀.calls.length ≤ w₀.free.length → (∀ e ∈ w.calls, ∃ row, e.pc = .done row) →
    List.Perm ((reservedSince w₀ w).map Seat.bookingId) (w₀.calls.map fun e => some e.bookingId)

/-! ## What one step does -/

/-- What becomes of the call `e` that takes a step, and of the seats. Source: migration
`100_fn_allocate_seat`. Kind: D -/
inductive Moves (w w' : Picks) (i : ℕ) (e e' : PickCall) : Prop
  | starts {now : Time} (hpc : e.pc = .sent) (he' : e' = { e with now := now, pc := .started })
      (hseats : w'.seats = w.seats)
  | finds {s : Seat} (hpc : e.pc = .started) (hs : s ∈ w.seats.committed)
      (hheld : s.heldFor e.bookingId = true) (hseats : w'.seats = w.seats)
  | misses (hpc : e.pc = .started) (he' : e' = { e with pc := .picking }) (hseats : w'.seats = w.seats)
  | picks {s : Seat} (hpc : e.pc = .picking) (hpick : w.seats.pickFree w.available = some s)
      (he' : e' = { e with pc := .picked s.id }) (hseats : w'.seats = w.seats)
  | soldOut (hpc : e.pc = .picking) (hpick : w.seats.pickFree w.available = none)
      (he' : e' = { e with pc := .ret none }) (hseats : w'.seats = w.seats)
  | skips {k : SeatId} (hpc : e.pc = .picked k) (hno : ∀ s ∈ w.free, s.id ≠ k)
      (he' : e' = { e with pc := .picking }) (hseats : w'.seats = w.seats)
  | locks {s : Seat} (hpc : e.pc = .picked s.id) (hs : s ∈ w.free)
      (he' : e' = { e with pc := .locked s.id }) (hseats : w.seats.update i (.lockRow s.id) = some w'.seats)
  | updates {s : Seat} (hpc : e.pc = .locked s.id) (hs : w.seats.committed.find? s.id = some s)
      (he' : e' = { e with pc := .ret (some (s.id, s.version + 1)) })
      (hseats : w.seats.update i (e.reserve s.id) = some w'.seats)
  | commits {row : Option (SeatId × ℕ)} (hpc : e.pc = .ret row) (he' : e' = { e with pc := .done row })
      (hseats : w'.seats = w.seats.commit i)
  | fails (hpc : e.pc.ended = false) (he' : e' = { e with pc := .failed })
      (hseats : w'.seats = w.seats.rollback i)

/-- Call `i`, which was `e` and becomes `e'`, takes a step, and no other call does. Source: migration
`100_fn_allocate_seat`. Kind: D -/
structure Stepped (w w' : Picks) (i : ℕ) (e e' : PickCall) : Prop where
  call : w.calls[i]? = some e
  calls : ∀ j, w'.calls[j]? = if j = i then some e' else w.calls[j]?
  trainId : w'.trainId = w.trainId
  bookingId : e'.bookingId = e.bookingId
  moves : Moves w w' i e e'

section step

variable {w w' : Picks} {a : Action} {i j : ℕ} {e e' e₁ : PickCall} {k : SeatId} {s : Seat}

/-- The seats become `seats`, and call `i` goes on. Source: none: infrastructure. Kind: L -/
theorem stepped_goto {seats : Versioned ℕ Seat} {pc : PickPc} (he : w.calls[i]? = some e)
    (hmove : Moves w ({ w with seats := seats }.goto i pc) i e { e with pc := pc }) :
    Stepped w ({ w with seats := seats }.goto i pc) i e { e with pc := pc } :=
  ⟨he, getElem?_modify_of_some he _, rfl, rfl, hmove⟩

/-- What the guard finds is a hold of the booking. Source: migration `100_fn_allocate_seat` (statement 1).
Kind: L -/
theorem liveHold_eq_some {b : BookingId} {now : Time} {row : SeatId} (h : w.liveHold b now row = some s) :
    s ∈ w.seats.committed ∧ s.heldFor b = true := by
  have hmem : s ∈ w.seats.committed.select fun s => s.bookingId == some b && s.liveAt now := by
    rcases Option.or_eq_some_iff.mp h with hfind | ⟨-, hhead⟩
    · exact List.mem_of_find?_eq_some hfind
    · exact List.mem_of_head? hhead
  obtain ⟨hs, hp⟩ := Table.mem_select.mp hmem
  simp only [Bool.and_eq_true, beq_iff_eq] at hp
  exact ⟨hs, Seat.heldFor_iff.mpr ⟨(Seat.liveAt_iff.mp hp.2).1, hp.1⟩⟩

/-- **What a step can do.** Source: migration `100_fn_allocate_seat`. Kind: L -/
theorem step_cases (h : w.step a = some w') : ∃ e e', Stepped w w' a.call e e' := by
  obtain ⟨e, he, hmove⟩ := Option.bind_eq_some_iff.mp h
  refine ⟨e, ?_⟩
  unfold move at hmove
  split at hmove
  · rename_i i now hpc
    cases hmove
    exact ⟨_, he, getElem?_modify_of_some he _, rfl, rfl, .starts hpc rfl rfl⟩
  · rename_i i row hpc
    split at hmove
    · rename_i s hlive
      cases hmove
      obtain ⟨hs, hheld⟩ := liveHold_eq_some hlive
      exact ⟨_, stepped_goto he (.finds hpc hs hheld rfl)⟩
    · cases hmove
      exact ⟨_, stepped_goto he (.misses hpc rfl rfl)⟩
  · rename_i i hpc
    split at hmove
    · rename_i s hpick
      cases hmove
      exact ⟨_, stepped_goto he (.picks hpc hpick rfl rfl)⟩
    · rename_i hpick
      cases hmove
      exact ⟨_, stepped_goto he (.soldOut hpc hpick rfl rfl)⟩
  · rename_i i k hpc
    split at hmove
    · rename_i s hfind
      obtain ⟨seats, hseats, rfl⟩ := Option.map_eq_some_iff.mp hmove
      obtain rfl : s.id = k := beq_iff_eq.mp (List.find?_some (p := fun s : Seat => s.id == k) hfind)
      exact ⟨_, stepped_goto he (.locks hpc (List.mem_of_find?_eq_some hfind) rfl hseats)⟩
    · rename_i hfind
      cases hmove
      refine ⟨_, stepped_goto he (.skips hpc (fun s hs hid => ?_) rfl rfl)⟩
      exact List.find?_eq_none.mp hfind s hs (beq_iff_eq.mpr hid)
  · rename_i i k hpc
    split at hmove
    · rename_i s hfind
      split at hmove
      · cases hmove
        have hover : e.pc.ended = false := by rw [hpc]; rfl
        exact ⟨_, stepped_goto he (.fails hover rfl rfl)⟩
      · obtain ⟨seats, hseats, rfl⟩ := Option.map_eq_some_iff.mp hmove
        obtain rfl : s.id = k := Table.key_of_find? hfind
        exact ⟨_, stepped_goto he (.updates hpc hfind rfl hseats)⟩
    · cases hmove
  · rename_i i row hpc
    cases hmove
    exact ⟨_, stepped_goto he (.commits hpc rfl rfl)⟩
  · rename_i i _ hne
    split at hmove
    · cases hmove
    · rename_i hover
      cases hmove
      exact ⟨_, stepped_goto he (.fails (by simpa using hover) rfl rfl)⟩
  · cases hmove

end step

/-! ## Where the seats stand -/

/-- Call `i` is `e`, and no other call has seat `k`. Source: none: infrastructure. Kind: D -/
structure Owns (w : Picks) (k : SeatId) (i : ℕ) (e : PickCall) : Prop where
  call : w.calls[i]? = some e
  only : ∀ j e', w.calls[j]? = some e' → e'.pc.seat = some k → j = i

/-- Where the seat stands that was `s` at the start: it is as it was and no call has it, or one call has
locked it, has made a version of it, or has published this version. Source: migration
`100_fn_allocate_seat` (statement 2). Kind: D -/
inductive Standing (w : Picks) (s : Seat) : Prop
  | free (hnone : ∀ (j : ℕ) (e : PickCall), w.calls[j]? = some e → e.pc.seat ≠ some s.id)
      (hrow : w.seats.committed.find? s.id = some s) (hlock : w.seats.lock s.id = none)
  | locked {i : ℕ} {e : PickCall} (hown : w.Owns s.id i e) (hpc : e.pc = .locked s.id)
      (hfree : w.available s = true) (hrow : w.seats.committed.find? s.id = some s)
      (hlock : w.seats.lock s.id = some (i, s))
  | updated {i : ℕ} {e : PickCall} (hown : w.Owns s.id i e) (hpc : e.pc = .ret (some (s.id, s.version + 1)))
      (hfree : w.available s = true) (hrow : w.seats.committed.find? s.id = some s)
      (hlock : w.seats.lock s.id = some (i, (e.reserve s.id).set s))
  | taken {i : ℕ} {e : PickCall} (hown : w.Owns s.id i e) (hpc : e.pc = .done (some (s.id, s.version + 1)))
      (hfree : w.available s = true)
      (hrow : w.seats.committed.find? s.id = some ((e.reserve s.id).set s)) (hlock : w.seats.lock s.id = none)

/-- The calls are those of the start, and each seat stands somewhere. Source: migration
`100_fn_allocate_seat`. Kind: D -/
structure Inv (w₀ w : Picks) : Prop where
  trainId : w.trainId = w₀.trainId
  bookingIds : w.calls.map PickCall.bookingId = w₀.calls.map PickCall.bookingId
  keys : ∀ k, (w.seats.committed.find? k).isSome = (w₀.seats.committed.find? k).isSome
  seats : ∀ s ∈ w₀.seats.committed, w.Standing s
  /-- A seat that a call has is one of those at the start. -/
  known : ∀ (j : ℕ) (e : PickCall) (k : SeatId), w.calls[j]? = some e → e.pc.seat = some k →
    ∃ s, w₀.seats.committed.find? k = some s

section standing

variable {w₀ w w' : Picks} {i j : ℕ} {e e' e₁ : PickCall} {k : SeatId} {s : Seat}

/-- Whoever has locked a seat has it. Source: migration `100_fn_allocate_seat`. Kind: L -/
theorem Standing.owner {x : Seat} (h : w.Standing s) (hl : w.seats.lock s.id = some (i, x)) :
    ∃ e, w.calls[i]? = some e ∧ e.pc.seat = some s.id := by
  cases h with
  | free _ _ hlock | taken _ _ _ _ hlock =>
    rw [hlock] at hl
    cases hl
  | @locked i e hown hpc _ _ hlock | @updated i e hown hpc _ _ hlock =>
    rw [hlock] at hl
    cases hl
    exact ⟨e, hown.call, by rw [hpc]; rfl⟩

/-- A seat that a call has stands with this call. Source: migration `100_fn_allocate_seat`. Kind: L -/
theorem Standing.held (h : w.Standing s) (he : w.calls[i]? = some e) (hseat : e.pc.seat = some s.id) :
    (e.pc = .locked s.id ∧ w.available s = true ∧ w.seats.committed.find? s.id = some s ∧
      w.seats.lock s.id = some (i, s)) ∨
    (e.pc = .ret (some (s.id, s.version + 1)) ∧ w.available s = true ∧
      w.seats.committed.find? s.id = some s ∧
      w.seats.lock s.id = some (i, (e.reserve s.id).set s)) ∨
    (e.pc = .done (some (s.id, s.version + 1)) ∧ w.available s = true ∧
      w.seats.committed.find? s.id = some ((e.reserve s.id).set s) ∧ w.seats.lock s.id = none) := by
  cases h with
  | free hnone => exact absurd hseat (hnone i e he)
  | locked hown hpc hfree hrow hlock =>
    obtain rfl := hown.only i e he hseat
    obtain rfl := Option.eq_some_unique he hown.call
    exact .inl ⟨hpc, hfree, hrow, hlock⟩
  | updated hown hpc hfree hrow hlock =>
    obtain rfl := hown.only i e he hseat
    obtain rfl := Option.eq_some_unique he hown.call
    exact .inr (.inl ⟨hpc, hfree, hrow, hlock⟩)
  | taken hown hpc hfree hrow hlock =>
    obtain rfl := hown.only i e he hseat
    obtain rfl := Option.eq_some_unique he hown.call
    exact .inr (.inr ⟨hpc, hfree, hrow, hlock⟩)

/-- No other call has the seat. Source: migration `100_fn_allocate_seat`. Kind: L -/
theorem Standing.owns (h : w.Standing s) (he : w.calls[i]? = some e) (hseat : e.pc.seat = some s.id) :
    w.Owns s.id i e := by
  refine ⟨he, ?_⟩
  cases h with
  | free hnone => exact absurd hseat (hnone i e he)
  | locked hown | updated hown | taken hown =>
    obtain rfl := hown.only i e he hseat
    exact hown.only

/-- A seat that is free to be taken has no call. Source: migration `100_fn_allocate_seat`. Kind: L -/
theorem Standing.of_free (h : w.Standing s) {x : Seat} (hx : x ∈ w.free) (hid : x.id = s.id) :
    x = s ∧ ∀ (j : ℕ) (e : PickCall), w.calls[j]? = some e → e.pc.seat ≠ some s.id := by
  obtain ⟨hmem, havail, hunlocked⟩ := Versioned.mem_free.mp hx
  have hrow' : w.seats.committed.find? s.id = some x := by
    rw [← hid]
    exact Table.find?_of_mem hmem
  have hunlocked : w.seats.lock s.id = none := by
    rw [← hid]
    exact hunlocked
  cases h with
  | free hnone hrow => exact ⟨Option.eq_some_unique hrow' hrow, hnone⟩
  | locked _ _ _ _ hlock | updated _ _ _ _ hlock =>
    rw [hunlocked] at hlock
    cases hlock
  | @taken _ e _ _ _ hrow =>
    obtain rfl := Option.eq_some_unique hrow' hrow
    have hreserved : ((e.reserve s.id).set s).status = .reserved := rfl
    simp only [available, hreserved, Bool.and_eq_true, beq_iff_eq, reduceCtorEq, and_false] at havail

/-- A step of call `i` moves the other calls nowhere. Source: none: infrastructure. Kind: L -/
theorem Stepped.call_iff (hs : Stepped w w' i e e') (hseat : e.pc.seat ≠ some k)
    (hseat' : e'.pc.seat ≠ some k) (h₁ : e₁.pc.seat = some k) :
    w'.calls[j]? = some e₁ ↔ w.calls[j]? = some e₁ := by
  rw [hs.calls]
  by_cases hj : j = i
  · subst hj
    rw [if_pos rfl, hs.call]
    refine iff_of_false ?_ ?_
    · rintro h
      cases h
      exact hseat' h₁
    · rintro h
      cases h
      exact hseat h₁
  · rw [if_neg hj]

/-- The calls of a seat, after a step of a call that has not had it. Source: none: infrastructure. Kind: L -/
theorem Stepped.owns (hs : Stepped w w' i e e') (hseat : e.pc.seat ≠ some k)
    (hseat' : e'.pc.seat ≠ some k) (h : w.Owns k j e₁) (h₁ : e₁.pc.seat = some k) : w'.Owns k j e₁ :=
  ⟨(hs.call_iff hseat hseat' h₁).mpr h.call,
    fun j' e₂ he₂ h₂ => h.only j' e₂ ((hs.call_iff hseat hseat' h₂).mp he₂) h₂⟩

/-- Call `i` after its step, when nobody else has the seat. Source: none: infrastructure. Kind: L -/
theorem Stepped.owns_self (hs : Stepped w w' i e e')
    (honly : ∀ (j : ℕ) (e₁ : PickCall), w.calls[j]? = some e₁ → e₁.pc.seat = some k → j = i) :
    w'.Owns k i e' := by
  refine ⟨by rw [hs.calls, if_pos rfl], fun j e₁ he₁ h₁ => ?_⟩
  by_contra hj
  rw [hs.calls, if_neg hj] at he₁
  exact hj (honly j e₁ he₁ h₁)

/-- **A seat that the call does not have** is left as it is. Source: migration `100_fn_allocate_seat`.
Kind: L -/
theorem Stepped.seat_of_ne (hs : Stepped w w' i e e') (h : w.Standing s) (hseat : e.pc.seat ≠ some s.id)
    (hseat' : e'.pc.seat ≠ some s.id) :
    w'.seats.committed.find? s.id = w.seats.committed.find? s.id ∧
      w'.seats.lock s.id = w.seats.lock s.id := by
  have hown : ∀ x, w.seats.lock s.id ≠ some (i, x) := by
    intro x hl
    obtain ⟨e₁, he₁, h₁⟩ := h.owner hl
    obtain rfl := Option.eq_some_unique hs.call he₁
    exact hseat h₁
  have hunlock : w.seats.unlock i s.id = w.seats.lock s.id := by
    refine Option.ext fun own => ?_
    obtain ⟨j, x⟩ := own
    rw [Versioned.unlock_eq_some_iff]
    exact and_iff_left_of_imp fun hl hj => hown x (hj ▸ hl)
  cases hs.moves with
  | starts _ _ hseats | finds _ _ _ hseats | misses _ _ hseats | picks _ _ _ hseats | soldOut _ _ _ hseats
  | skips _ _ _ hseats =>
    rw [hseats]
    exact ⟨rfl, rfl⟩
  | @locks x _ hx he' hseats =>
    have hne : s.id ≠ x.id := by
      rintro hid
      subst he'
      exact hseat' (congrArg some hid.symm)
    have hrow := Table.find?_of_mem (Versioned.mem_free.mp hx).1
    refine ⟨by rw [Versioned.update_committed hseats], ?_⟩
    rw [Versioned.lock_update_oneRow (Update.oneRow_lockRow x.id) hrow hseats, if_neg hne]
  | @updates x hpc hrow _ hseats =>
    have hne : s.id ≠ x.id := by
      rintro hid
      rw [hpc] at hseat
      exact hseat (congrArg some hid.symm)
    refine ⟨by rw [Versioned.update_committed hseats], ?_⟩
    rw [Versioned.lock_update_oneRow (fun _ => beq_iff_eq) hrow hseats, if_neg hne]
  | commits _ _ hseats =>
    rw [hseats]
    exact ⟨Versioned.find?_commit_of_not_own hown, hunlock⟩
  | fails _ _ hseats =>
    rw [hseats]
    exact ⟨rfl, hunlock⟩

/-- It stands where it stood. Source: migration `100_fn_allocate_seat`. Kind: L -/
theorem Standing.of_ne (h : w.Standing s) (hs : Stepped w w' i e e') (hseat : e.pc.seat ≠ some s.id)
    (hseat' : e'.pc.seat ≠ some s.id) : w'.Standing s := by
  obtain ⟨hfind, hl⟩ := hs.seat_of_ne h hseat hseat'
  have havail : w'.available s = w.available s := by
    unfold available
    rw [hs.trainId]
  cases h with
  | free hnone hrow hlock =>
    refine .free (fun j e₁ he₁ h₁ => ?_) (hfind.trans hrow) (hl.trans hlock)
    exact hnone j e₁ ((hs.call_iff hseat hseat' h₁).mp he₁) h₁
  | locked hown hpc hfree hrow hlock =>
    exact .locked (hs.owns hseat hseat' hown (by rw [hpc]; rfl)) hpc (havail.trans hfree) (hfind.trans hrow)
      (hl.trans hlock)
  | updated hown hpc hfree hrow hlock =>
    exact .updated (hs.owns hseat hseat' hown (by rw [hpc]; rfl)) hpc (havail.trans hfree) (hfind.trans hrow)
      (hl.trans hlock)
  | taken hown hpc hfree hrow hlock =>
    exact .taken (hs.owns hseat hseat' hown (by rw [hpc]; rfl)) hpc (havail.trans hfree) (hfind.trans hrow)
      (hl.trans hlock)

/-- **A seat that the call has** goes with it. Source: migration `100_fn_allocate_seat` (statement 2).
Kind: L -/
theorem Standing.of_held (h : w.Standing s) (hs : Stepped w w' i e e') (hseat : e.pc.seat = some s.id) :
    w'.Standing s := by
  have hown := h.owns hs.call hseat
  have havail : w'.available s = w.available s := by
    unfold available
    rw [hs.trainId]
  have hcases := h.held hs.call hseat
  cases hs.moves with
  | starts hpc | finds hpc | misses hpc | picks hpc | soldOut hpc | skips hpc | locks hpc =>
    rw [hpc] at hseat
    cases hseat
  | @updates x hpc hx he' hseats =>
    rcases hcases with ⟨hlocked, hfree, hrow, -⟩ | ⟨hret, -⟩ | ⟨hdone, -⟩
    · rw [hpc] at hlocked
      have hid : x.id = s.id := PickPc.locked.inj hlocked
      rw [hid] at hx hseats
      obtain rfl := Option.eq_some_unique hx hrow
      subst he'
      refine .updated (hs.owns_self hown.only) rfl (havail.trans hfree) ?_ ?_
      · rw [Versioned.update_committed hseats]
        exact hrow
      · rw [Versioned.lock_update_oneRow (fun _ => beq_iff_eq) hrow hseats, if_pos rfl]
        rfl
    · rw [hpc] at hret
      cases hret
    · rw [hpc] at hdone
      cases hdone
  | commits hpc he' hseats =>
    rcases hcases with ⟨hlocked, -⟩ | ⟨hret, hfree, hrow, hlock⟩ | ⟨hdone, -⟩
    · rw [hpc] at hlocked
      cases hlocked
    · rw [hpc] at hret
      cases hret
      subst he'
      refine .taken (hs.owns_self hown.only) rfl (havail.trans hfree) ?_ ?_
      · rw [hseats]
        exact Versioned.find?_commit_of_own hrow hlock
      · rw [hseats]
        refine Option.eq_none_iff_forall_ne_some.mpr fun ⟨t, x⟩ hl => ?_
        obtain ⟨hl, hne⟩ := Versioned.lock_commit_iff.mp hl
        rw [hlock] at hl
        cases hl
        exact hne rfl
    · rw [hpc] at hdone
      cases hdone
  | fails hpc he' hseats =>
    have hpick : w.seats.committed.find? s.id = some s ∧ ∃ x, w.seats.lock s.id = some (i, x) := by
      rcases hcases with ⟨-, -, hrow, hlock⟩ | ⟨-, -, hrow, hlock⟩ | ⟨hdone, -⟩
      · exact ⟨hrow, _, hlock⟩
      · exact ⟨hrow, _, hlock⟩
      · rw [hdone] at hpc
        cases hpc
    obtain ⟨hrow, x, hlock⟩ := hpick
    refine .free (fun j e₁ he₁ h₁ => ?_) ?_ ?_
    · obtain rfl := (hs.owns_self hown.only).only j e₁ he₁ h₁
      rw [hs.calls, if_pos rfl] at he₁
      cases he₁
      rw [he'] at h₁
      cases h₁
    · rw [hseats]
      exact hrow
    · rw [hseats]
      refine Option.eq_none_iff_forall_ne_some.mpr fun ⟨t, y⟩ hl => ?_
      obtain ⟨hl, hne⟩ := Versioned.lock_rollback_iff.mp hl
      rw [hlock] at hl
      cases hl
      exact hne rfl

/-- **A seat that the call takes** was free. Source: migration `100_fn_allocate_seat` (statement 2).
Kind: L -/
theorem Standing.of_taken (h : w.Standing s) (hs : Stepped w w' i e e')
    (hguard : e.pc = .started → ∀ x ∈ w.seats.committed, x.heldFor e.bookingId = false)
    (hseat : e.pc.seat ≠ some s.id) (hseat' : e'.pc.seat = some s.id) : w'.Standing s := by
  have havail : w'.available s = w.available s := by
    unfold available
    rw [hs.trainId]
  cases hs.moves with
  | starts _ he' | misses _ he' | picks _ _ he' | soldOut _ _ he' | skips _ _ he' | fails _ he' =>
    rw [he'] at hseat'
    cases hseat'
  | finds hpc hx hheld =>
    rw [hguard hpc _ hx] at hheld
    cases hheld
  | @locks x hpc hx he' hseats =>
    rw [he'] at hseat'
    have hid : x.id = s.id := Option.some.inj hseat'
    obtain ⟨rfl, hnone⟩ := h.of_free hx hid
    obtain ⟨hmem, hfree, -⟩ := Versioned.mem_free.mp hx
    have hrow := Table.find?_of_mem hmem
    refine .locked (hs.owns_self fun j e₁ he₁ h₁ => absurd h₁ (hnone j e₁ he₁)) (by rw [he'])
      (havail.trans hfree) ?_ ?_
    · rw [Versioned.update_committed hseats]
      exact hrow
    · rw [Versioned.lock_update_oneRow (Update.oneRow_lockRow x.id) hrow hseats, if_pos rfl]
      rfl
  | updates hpc _ he' | commits hpc he' =>
    rw [he'] at hseat'
    rw [hpc] at hseat
    exact absurd hseat' hseat

/-- **Where a seat stands after a step.** Source: migration `100_fn_allocate_seat`. Kind: L -/
theorem Standing.step (h : w.Standing s) (hs : Stepped w w' i e e')
    (hguard : e.pc = .started → ∀ x ∈ w.seats.committed, x.heldFor e.bookingId = false) :
    w'.Standing s := by
  by_cases hseat : e.pc.seat = some s.id
  · exact h.of_held hs hseat
  · by_cases hseat' : e'.pc.seat = some s.id
    · exact h.of_taken hs hguard hseat hseat'
    · exact h.of_ne hs hseat hseat'

end standing

/-! ## Every run -/

section runs

variable {w₀ w w' : Picks} {a : Action} {i j : ℕ} {e e' e₁ : PickCall} {k : SeatId} {s : Seat}

/-- A seat there is stands somewhere. Source: none: infrastructure. Kind: L -/
theorem Inv.standing (h : Inv w₀ w) (hs : w.seats.committed.find? k = some s) :
    ∃ s₀ ∈ w₀.seats.committed, s₀.id = k ∧ w.Standing s₀ := by
  have hsome := h.keys k
  rw [hs] at hsome
  obtain ⟨s₀, hs₀⟩ := Option.isSome_iff_exists.mp hsome.symm
  exact ⟨s₀, Table.mem_of_find? hs₀, Table.key_of_find? hs₀, h.seats s₀ (Table.mem_of_find? hs₀)⟩

/-- Different calls are for different bookings. Source: `app/api/book/route.ts`. Kind: L -/
theorem Inv.eq_of_bookingId (h : Inv w₀ w) (hinit : Initial w₀) (he : w.calls[i]? = some e)
    (he₁ : w.calls[j]? = some e₁) (hb : e.bookingId = e₁.bookingId) : i = j := by
  have hnodup : (w.calls.map PickCall.bookingId).Nodup := by
    rw [h.bookingIds]
    exact hinit.distinct
  have hlt : i < (w.calls.map PickCall.bookingId).length := by
    rw [List.length_map]
    exact (List.getElem?_eq_some_iff.mp he).1
  refine (List.getElem?_inj hlt hnodup).mp ?_
  rw [List.getElem?_map, List.getElem?_map, he, he₁, Option.map_some, Option.map_some, hb]

/-- **The guard finds nothing.** Source: migration `100_fn_allocate_seat` (statement 1). Kind: L -/
theorem Inv.guard (h : Inv w₀ w) (hinit : Initial w₀) (he : w.calls[i]? = some e) (hpc : e.pc = .started) :
    ∀ x ∈ w.seats.committed, x.heldFor e.bookingId = false := by
  intro x hx
  have hfind := Table.find?_of_mem hx
  obtain ⟨s₀, hs₀, hid, hstanding⟩ := h.standing hfind
  -- a row that no call has published is one of those at the start
  have hold : w.seats.committed.find? s₀.id = some s₀ → x.heldFor e.bookingId = false := by
    intro hrow
    rw [hid] at hrow
    obtain rfl := Option.eq_some_unique hfind hrow
    have hmem : e.bookingId ∈ w₀.calls.map PickCall.bookingId := by
      rw [← h.bookingIds]
      exact List.mem_map.mpr ⟨e, List.mem_of_getElem? he, rfl⟩
    obtain ⟨e₀, he₀, hb⟩ := List.mem_map.mp hmem
    rw [← hb]
    exact hinit.unheld e₀ he₀ _ hs₀
  cases hstanding with
  | free _ hrow | locked _ _ _ hrow | updated _ _ _ hrow => exact hold hrow
  | @taken j e₁ hown hdone _ hrow =>
    have hfind : w.seats.committed.find? s₀.id = some x := by
      rw [hid]
      exact hfind
    obtain rfl := Option.eq_some_unique hfind hrow
    refine Bool.eq_false_iff.mpr fun hheld => ?_
    obtain ⟨-, hb⟩ := Seat.heldFor_iff.mp hheld
    have hb : e₁.bookingId = e.bookingId := Option.some.inj hb
    obtain rfl := h.eq_of_bookingId hinit hown.call he hb
    obtain rfl := Option.eq_some_unique hown.call he
    rw [hpc] at hdone
    cases hdone

/-- At the start every seat is as it is. Source: none: infrastructure. Kind: L -/
theorem Inv.start (hinit : Initial w₀) : Inv w₀ w₀ where
  trainId := rfl
  bookingIds := rfl
  keys _ := rfl
  seats s hs := by
    refine .free (fun j e he hseat => ?_) (Table.find?_of_mem hs) (hinit.unlocked s.id)
    rw [hinit.sent e (List.mem_of_getElem? he)] at hseat
    cases hseat
  known j e k he hseat := by
    rw [hinit.sent e (List.mem_of_getElem? he)] at hseat
    cases hseat

/-- The bookings of the calls stay. Source: none: infrastructure. Kind: L -/
theorem Stepped.bookingIds (hs : Stepped w w' i e e') :
    w'.calls.map PickCall.bookingId = w.calls.map PickCall.bookingId := by
  refine List.ext_getElem? fun j => ?_
  rw [List.getElem?_map, List.getElem?_map, hs.calls]
  by_cases hj : j = i
  · rw [if_pos hj, hj, hs.call, Option.map_some, Option.map_some, hs.bookingId]
  · rw [if_neg hj]

/-- The seats stay. Source: none: infrastructure. Kind: L -/
theorem Stepped.keys (hs : Stepped w w' i e e') (k : SeatId) :
    (w'.seats.committed.find? k).isSome = (w.seats.committed.find? k).isSome := by
  cases hs.moves with
  | starts _ _ hseats | finds _ _ _ hseats | misses _ _ hseats | picks _ _ _ hseats | soldOut _ _ _ hseats
  | skips _ _ _ hseats => rw [hseats]
  | locks _ _ _ hseats | updates _ _ _ hseats => rw [Versioned.update_committed hseats]
  | commits _ _ hseats => rw [hseats, Versioned.find?_commit, Option.isSome_map]
  | fails _ _ hseats =>
    rw [hseats]
    rfl

/-- **Every step keeps the invariant.** Source: migration `100_fn_allocate_seat`. Kind: L -/
theorem Inv.step (h : Inv w₀ w) (hinit : Initial w₀) (hs : Stepped w w' i e e') : Inv w₀ w' where
  trainId := hs.trainId.trans h.trainId
  bookingIds := hs.bookingIds.trans h.bookingIds
  keys k := (hs.keys k).trans (h.keys k)
  seats s hmem := (h.seats s hmem).step hs fun hpc => h.guard hinit hs.call hpc
  known j e₁ k he₁ hseat := by
    rw [hs.calls] at he₁
    split at he₁
    · cases he₁
      by_cases hold : e.pc.seat = some k
      · exact h.known i e k hs.call hold
      · cases hs.moves with
        | starts _ he' | misses _ he' | picks _ _ he' | soldOut _ _ he' | skips _ _ he' | fails _ he' =>
          rw [he'] at hseat
          cases hseat
        | finds hpc hx hheld =>
          rw [h.guard hinit hs.call hpc _ hx] at hheld
          cases hheld
        | @locks x _ hx he' _ =>
          rw [he'] at hseat
          obtain rfl : x.id = k := Option.some.inj hseat
          obtain ⟨s₀, hs₀, hid, -⟩ := h.standing (Table.find?_of_mem (Versioned.mem_free.mp hx).1)
          have hfind := Table.find?_of_mem hs₀
          rw [show key s₀ = x.id from hid] at hfind
          exact ⟨s₀, hfind⟩
        | updates hpc _ he' | commits hpc he' =>
          rw [he'] at hseat
          rw [hpc] at hold
          exact absurd hseat hold
    · exact h.known j e₁ k he₁ hseat

/-- **The invariant of every run.** Source: migration `100_fn_allocate_seat`. Kind: L -/
theorem inv_of_steps (hinit : Initial w₀) (h : Steps step Always w₀ w) : Inv w₀ w := by
  refine h.invariant (fun w a w' hinv _ hst => ?_) (.start hinit)
  obtain ⟨e, e', hs⟩ := step_cases hst
  exact hinv.step hinit hs

/-! ## Counting -/

/-- A call that has returned a row has its seat. Source: none: infrastructure. Kind: L -/
theorem seat_of_returned {pc : PickPc} {v : ℕ} (h : pc.returned = some (some (k, v))) :
    pc.seat = some k := by
  cases pc with
  | ret row | done row =>
    obtain rfl : row = some (k, v) := Option.some.inj h
    rfl
  | _ => cases h

/-- **What is not free is with a call.** Source: migration `100_fn_allocate_seat`. Kind: L -/
theorem Inv.length_free_le (h : Inv w₀ w) :
    w₀.free.length ≤ w.free.length + (w.calls.filterMap fun e => e.pc.seat).length := by
  have havail : w.available = w₀.available := by
    funext s
    unfold available
    rw [h.trainId]
  unfold free
  rw [havail]
  refine Versioned.length_free_le fun s hs => ?_
  obtain ⟨hmem, hfree, -⟩ := Versioned.mem_free.mp hs
  have htaken : ∀ (i : ℕ) (e : PickCall), w.calls[i]? = some e → e.pc.seat = some s.id →
      key s ∈ w.calls.filterMap fun e => e.pc.seat := fun i e he hseat =>
    List.mem_filterMap.mpr ⟨e, List.mem_of_getElem? he, hseat⟩
  cases h.seats s hmem with
  | free _ hrow hlock =>
    exact .inl ⟨s, Versioned.mem_free.mpr ⟨Table.mem_of_find? hrow, hfree, hlock⟩, rfl⟩
  | locked hown hpc | updated hown hpc | taken hown hpc =>
    exact .inr (htaken _ _ hown.call (by rw [hpc]; rfl))

/-- The calls stay. Source: none: infrastructure. Kind: L -/
theorem Inv.length_calls (h : Inv w₀ w) : w.calls.length = w₀.calls.length := by
  have hlength := congrArg List.length h.bookingIds
  rwa [List.length_map, List.length_map] at hlength

/-- **There is a free seat for a call without one**, if there was one for each call. Source: migration
`100_fn_allocate_seat`. Kind: L -/
theorem Inv.exists_free (h : Inv w₀ w) (hk : w₀.calls.length ≤ w₀.free.length) (he : e ∈ w.calls)
    (hseat : e.pc.seat = none) : ∃ s, s ∈ w.free := by
  have hfewer : (w.calls.filterMap fun e => e.pc.seat).length < w.calls.length :=
    List.length_filterMap_lt_length_iff_exists.mpr ⟨e, he, hseat⟩
  have hcount := h.length_free_le
  have hcalls := h.length_calls
  exact List.exists_mem_of_length_pos (by omega)

/-- No call is sold out. Source: migration `100_fn_allocate_seat`. Kind: L -/
theorem not_soldOut (hinit : Initial w₀) (hk : w₀.calls.length ≤ w₀.free.length)
    (h : Steps step Always w₀ w) : ∀ e ∈ w.calls, e.pc.returned ≠ some none := by
  let P : Picks → Prop := fun w => Inv w₀ w ∧ ∀ e ∈ w.calls, e.pc.returned ≠ some none
  have hP : P w := by
    refine h.invariant (P := P) (fun w a w' hw _ hst => ?_) ⟨.start hinit, fun e he => ?_⟩
    · obtain ⟨hinv, hserved⟩ := hw
      obtain ⟨e, e', hs⟩ := step_cases hst
      refine ⟨hinv.step hinit hs, fun e₁ he₁ => ?_⟩
      obtain ⟨j, he₁⟩ := List.getElem?_of_mem he₁
      rw [hs.calls] at he₁
      split at he₁
      · cases he₁
        cases hs.moves with
        | starts _ he' | misses _ he' | picks _ _ he' | skips _ _ he' | locks _ _ he' | updates _ _ he'
        | fails _ he' =>
          rw [he']
          nofun
        | finds hpc hx hheld =>
          rw [hinv.guard hinit hs.call hpc _ hx] at hheld
          cases hheld
        | soldOut hpc hpick =>
          obtain ⟨s, hs⟩ := hinv.exists_free hk (List.mem_of_getElem? hs.call) (by rw [hpc]; rfl)
          have hempty : w.free = [] := List.argmin_eq_none.mp hpick
          rw [hempty] at hs
          exact absurd hs List.not_mem_nil
        | commits hpc he' =>
          have hold := hserved e (List.mem_of_getElem? hs.call)
          rw [hpc] at hold
          rw [he']
          exact hold
      · exact hserved e₁ (List.mem_of_getElem? he₁)
    · rw [hinit.sent e he]
      nofun
  exact hP.2

/-! ## What becomes `RESERVED` -/

/-- **A seat has become `RESERVED`** exactly when a call that is done has taken it. Source: migration
`100_fn_allocate_seat` (statement 2). Kind: L -/
theorem Inv.mem_reservedSince (h : Inv w₀ w) : s ∈ reservedSince w₀ w ↔ ∃ (i : ℕ) (e : PickCall) (s₀ : Seat),
    w.calls[i]? = some e ∧ e.pc = .done (some (s₀.id, s₀.version + 1)) ∧ s₀ ∈ w₀.seats.committed ∧
      s = (e.reserve s₀.id).set s₀ := by
  unfold reservedSince
  rw [Table.mem_select, Bool.and_eq_true, beq_iff_eq]
  constructor
  · rintro ⟨hmem, hstatus, hnew⟩
    have hfind : w.seats.committed.find? s.id = some s := Table.find?_of_mem hmem
    obtain ⟨s₀, hs₀, hid, hstanding⟩ := h.standing hfind
    rw [← hid] at hfind hnew
    have hstart : w₀.seats.committed.find? s₀.id = some s₀ := Table.find?_of_mem hs₀
    rw [hstart] at hnew
    cases hstanding with
    | free _ hrow | locked _ _ _ hrow | updated _ _ _ hrow =>
      obtain rfl := Option.eq_some_unique hfind hrow
      simp [hstatus] at hnew
    | taken hown hpc _ hrow => exact ⟨_, _, s₀, hown.call, hpc, hs₀, Option.eq_some_unique hfind hrow⟩
  · rintro ⟨i, e, s₀, he, hpc, hs₀, rfl⟩
    rcases (h.seats s₀ hs₀).held he (by rw [hpc]; rfl) with ⟨hlocked, -⟩ | ⟨hret, -⟩ | ⟨-, hfree, hrow, -⟩
    · rw [hpc] at hlocked
      cases hlocked
    · rw [hpc] at hret
      cases hret
    · refine ⟨Table.mem_of_find? hrow, rfl, ?_⟩
      have hstart : w₀.seats.committed.find? s₀.id = some s₀ := Table.find?_of_mem hs₀
      have havailable : s₀.status = .available := by
        simp only [available, Bool.and_eq_true, beq_iff_eq] at hfree
        exact hfree.2
      show (w₀.seats.committed.find? s₀.id).all _ = true
      rw [hstart]
      simp [havailable]

/-- **One seat for each booking**, when every call has taken one. Source: migration `100_fn_allocate_seat`.
Kind: L -/
theorem Inv.perm_reservedSince (h : Inv w₀ w) (hinit : Initial w₀)
    (hdone : ∀ e ∈ w.calls, ∃ k v, e.pc = .done (some (k, v))) :
    List.Perm ((reservedSince w₀ w).map Seat.bookingId) (w₀.calls.map fun e => some e.bookingId) := by
  have hrows : (reservedSince w₀ w).Nodup := (List.Nodup.of_map _ w.seats.committed.keys_nodup).filter _
  have hleft : ((reservedSince w₀ w).map Seat.bookingId).Nodup := by
    refine List.Nodup.map_on (fun s hs s' hs' hb => ?_) hrows
    obtain ⟨i, e, s₀, he, hpc, -, rfl⟩ := h.mem_reservedSince.mp hs
    obtain ⟨j, e', s₁, he', hpc', -, rfl⟩ := h.mem_reservedSince.mp hs'
    have hb : e.bookingId = e'.bookingId := Option.some.inj hb
    obtain rfl := h.eq_of_bookingId hinit he he' hb
    obtain rfl := Option.eq_some_unique he he'
    rw [hpc] at hpc'
    have hid : s₀.id = s₁.id := by
      injection hpc' with hpair
      injection hpair with hpair
      exact (Prod.mk.inj hpair).1
    exact Table.eq_of_key_eq (Table.mem_select.mp hs).1 (Table.mem_select.mp hs').1 hid
  have hright : (w₀.calls.map fun e => some e.bookingId).Nodup := by
    have hsome := hinit.distinct.map (Option.some_injective BookingId)
    rwa [List.map_map] at hsome
  refine (List.perm_ext_iff_of_nodup hleft hright).mpr fun b => ?_
  have hcalls : (w₀.calls.map fun e => some e.bookingId) = w.calls.map fun e => some e.bookingId := by
    have hmap := congrArg (List.map some) h.bookingIds
    rw [List.map_map, List.map_map] at hmap
    exact hmap.symm
  rw [hcalls, List.mem_map, List.mem_map]
  constructor
  · rintro ⟨s, hs, rfl⟩
    obtain ⟨i, e, s₀, he, -, -, rfl⟩ := h.mem_reservedSince.mp hs
    exact ⟨e, List.mem_of_getElem? he, rfl⟩
  · rintro ⟨e, he, rfl⟩
    obtain ⟨k, v, hpc⟩ := hdone e he
    obtain ⟨i, he⟩ := List.getElem?_of_mem he
    obtain ⟨s₀, hs₀⟩ := h.known i e k he (by rw [hpc]; rfl)
    have hid : s₀.id = k := Table.key_of_find? hs₀
    have hmem := Table.mem_of_find? hs₀
    rcases (h.seats s₀ hmem).held he (by rw [hpc, hid]; rfl) with ⟨hlocked, -⟩ | ⟨hret, -⟩ | ⟨htaken, -⟩
    · rw [hpc] at hlocked
      cases hlocked
    · rw [hpc] at hret
      cases hret
    · exact ⟨_, h.mem_reservedSince.mpr ⟨i, e, s₀, he, htaken, hmem, rfl⟩, rfl⟩

/-! ## Progress -/

/-- **No call waits**: a call that is not over can take a step of its own. Source: migration
`100_fn_allocate_seat` (`SKIP LOCKED`). Kind: L -/
theorem Inv.ready (h : Inv w₀ w) (he : w.calls[i]? = some e) (hover : e.pc.ended = false) :
    ∃ a : Action, a.call = i ∧ a ≠ .abort i ∧ (w.step a).isSome = true := by
  obtain ⟨b, passenger, hold, now, pc⟩ := e
  cases pc with
  | sent =>
    refine ⟨.start i 0, rfl, by simp, ?_⟩
    simp only [Picks.step, Action.call, he, Option.bind_some, move, Option.isSome_some]
  | started =>
    refine ⟨.guard i "", rfl, by simp, ?_⟩
    simp only [Picks.step, Action.call, he, Option.bind_some, move]
    split <;> rfl
  | picking =>
    refine ⟨.pick i, rfl, by simp, ?_⟩
    simp only [Picks.step, Action.call, he, Option.bind_some, move]
    split <;> rfl
  | picked k =>
    refine ⟨.lock i, rfl, by simp, ?_⟩
    simp only [Picks.step, Action.call, he, Option.bind_some, move]
    split
    · rename_i s hfind
      obtain ⟨-, -, hunlocked⟩ := Versioned.mem_free.mp (List.mem_of_find?_eq_some hfind)
      have hlocked : w.seats.lockedFor i s.id = false := by
        unfold Versioned.lockedFor
        rw [show w.seats.lock s.id = none from hunlocked]
        rfl
      obtain ⟨seats, hseats⟩ := Versioned.exists_update_oneRow (Update.oneRow_lockRow s.id) i hlocked
      rw [hseats]
      rfl
    · rfl
  | locked k =>
    refine ⟨.update i, rfl, by simp, ?_⟩
    simp only [Picks.step, Action.call, he, Option.bind_some, move]
    obtain ⟨s, hs⟩ := h.known i _ k he rfl
    obtain rfl : s.id = k := Table.key_of_find? hs
    rcases (h.seats s (Table.mem_of_find? hs)).held he rfl with ⟨-, -, hrow, hlock⟩ | ⟨hret, -⟩ | ⟨hdone, -⟩
    · rw [hrow]
      dsimp only
      split
      · rfl
      · have hlocked : w.seats.lockedFor i s.id = false := by
          unfold Versioned.lockedFor
          rw [hlock]
          simp
        obtain ⟨seats, hseats⟩ := Versioned.exists_update_oneRow
          (u := PickCall.reserve ⟨b, passenger, hold, now, .locked s.id⟩ s.id) (fun _ => beq_iff_eq) i hlocked
        rw [hseats]
        rfl
    · cases hret
    · cases hdone
  | ret row =>
    refine ⟨.commit i, rfl, by simp, ?_⟩
    simp only [Picks.step, Action.call, he, Option.bind_some, move, Option.isSome_some]
  | done row => cases hover
  | failed => cases hover

/-- How far a call is from its end, in steps. A row it has picked and that is free no longer costs it another
round. Source: migration `100_fn_allocate_seat`. Kind: D -/
def weight (w : Picks) : PickPc → ℕ
  | .sent => 2 * w.free.length + 7
  | .started => 2 * w.free.length + 6
  | .picking => 2 * w.free.length + 4
  | .picked k => if w.free.any (·.id == k) then 2 * w.free.length + 3 else 2 * w.free.length + 5
  | .locked _ => 2
  | .ret _ => 1
  | .done _ | .failed => 0

/-- The calls that are not over, and how far they are from it. Source: none: infrastructure. Kind: D -/
def variant (w : Picks) : ℕ ×ₗ ℕ :=
  toLex (∑ j ∈ Finset.range w.calls.length, (w.calls[j]?).elim 0 fun e => if e.pc.ended then 0 else 1,
    ∑ j ∈ Finset.range w.calls.length, (w.calls[j]?).elim 0 fun e => w.weight e.pc)

/-- The other calls come no farther from their ends. Source: migration `100_fn_allocate_seat`. Kind: L -/
theorem weight_le (h : w'.free = w.free ∨ w'.free.length < w.free.length) (pc : PickPc) :
    w'.weight pc ≤ w.weight pc := by
  rcases h with heq | hlt
  · have hweight : w'.weight pc = w.weight pc := by
      unfold weight
      rw [heq]
    exact hweight.le
  · cases pc with
    | picked k =>
      unfold weight
      dsimp only
      split <;> split <;> omega
    | sent | started | picking =>
      simp only [weight]
      omega
    | locked | ret | done | failed => exact Nat.le_refl _

/-- The free seats after a step that ends no call: the same, or fewer. Source: migration
`100_fn_allocate_seat`. Kind: L -/
theorem Stepped.free_cases (hs : Stepped w w' i e e') (h : Inv w₀ w) (hover : e'.pc.ended = false) :
    w'.free = w.free ∨ w'.free.length < w.free.length := by
  have havail : w'.available = w.available := by
    funext s
    unfold available
    rw [hs.trainId]
  unfold free
  rw [havail]
  cases hs.moves with
  | starts _ _ hseats | finds _ _ _ hseats | misses _ _ hseats | picks _ _ _ hseats | soldOut _ _ _ hseats
  | skips _ _ _ hseats =>
    rw [hseats]
    exact .inl rfl
  | @locks s _ hmem _ hseats =>
    have hrow := Table.find?_of_mem (Versioned.mem_free.mp hmem).1
    have hlock := Versioned.lock_update_oneRow (Update.oneRow_lockRow s.id) hrow hseats
    refine .inr (Versioned.length_free_lt (fun x hx => ?_) hmem ?_)
    · obtain ⟨hx, hfree, hunlocked⟩ := Versioned.mem_free.mp hx
      rw [Versioned.update_committed hseats] at hx
      rw [hlock] at hunlocked
      split at hunlocked
      · cases hunlocked
      · exact Versioned.mem_free.mpr ⟨hx, hfree, hunlocked⟩
    · rw [hlock, if_pos (show key s = s.id from rfl)]
      nofun
  | @updates s hpc hrow _ hseats =>
    refine .inl (Versioned.free_congr (Versioned.update_committed hseats) fun k => ?_)
    rw [Versioned.lock_update_oneRow (fun _ => beq_iff_eq) hrow hseats]
    split
    · rename_i hk
      subst hk
      obtain ⟨s₀, hs₀, hid, hstanding⟩ := h.standing hrow
      rcases hstanding.held hs.call (by rw [hpc, hid]; rfl) with ⟨-, -, -, hlock⟩ | ⟨hret, -⟩ | ⟨hdone, -⟩
      · rw [← hid, hlock]
        rfl
      · rw [hpc] at hret
        cases hret
      · rw [hpc] at hdone
        cases hdone
    · rfl
  | commits _ he' | fails _ he' =>
    rw [he'] at hover
    cases hover

/-- The call itself comes closer to its end. Source: migration `100_fn_allocate_seat`. Kind: L -/
theorem Stepped.weight_lt (hs : Stepped w w' i e e') (h : Inv w₀ w) (hinit : Initial w₀)
    (hover : e'.pc.ended = false) : w'.weight e'.pc < w.weight e.pc := by
  have hle : w'.weight e'.pc ≤ w.weight e'.pc := weight_le (hs.free_cases h hover) e'.pc
  refine hle.trans_lt ?_
  cases hs.moves with
  | starts hpc he' | misses hpc he' | soldOut hpc _ he' =>
    rw [hpc, he']
    simp only [weight]
    omega
  | finds hpc hx hheld =>
    rw [h.guard hinit hs.call hpc _ hx] at hheld
    cases hheld
  | @picks s hpc hpick he' =>
    have hmem : w.free.any (·.id == s.id) = true :=
      List.any_eq_true.mpr ⟨s, (Versioned.pickFree_eq_some hpick).1, beq_self_eq_true s.id⟩
    rw [hpc, he']
    simp only [weight, hmem, if_true]
    omega
  | @skips k hpc hno he' =>
    have hgone : w.free.any (·.id == k) = false :=
      List.any_eq_false.mpr fun s hs hid => hno s hs (beq_iff_eq.mp hid)
    rw [hpc, he']
    simp only [weight, hgone]
    simp
  | locks hpc _ he' =>
    rw [hpc, he']
    simp only [weight]
    split <;> omega
  | updates hpc _ he' =>
    rw [hpc, he']
    exact Nat.lt_succ_self 1
  | commits _ he' | fails _ he' =>
    rw [he'] at hover
    cases hover

/-- **Each step comes closer to the end.** Source: migration `100_fn_allocate_seat`. Kind: L -/
theorem Stepped.variant_lt (hs : Stepped w w' i e e') (h : Inv w₀ w) (hinit : Initial w₀) :
    w'.variant < w.variant := by
  have hlength : w'.calls.length = w.calls.length := by
    have hmap := congrArg List.length hs.bookingIds
    rwa [List.length_map, List.length_map] at hmap
  have hi : i ∈ Finset.range w.calls.length :=
    Finset.mem_range.mpr (List.getElem?_eq_some_iff.mp hs.call).1
  have hself : w'.calls[i]? = some e' := by rw [hs.calls, if_pos rfl]
  have hother : ∀ j, j ≠ i → w'.calls[j]? = w.calls[j]? := fun j hj => by rw [hs.calls, if_neg hj]
  have hopen : e.pc.ended = false := by
    cases hs.moves with
    | fails hpc => exact hpc
    | starts hpc | finds hpc | misses hpc | picks hpc | soldOut hpc | skips hpc | locks hpc | updates hpc
    | commits hpc =>
      rw [hpc]
      rfl
  unfold variant
  rw [hlength, Prod.Lex.toLex_lt_toLex]
  dsimp only
  cases hover : e'.pc.ended with
  | true =>
    -- a call ends
    refine .inl (Finset.sum_lt_sum (fun j _ => ?_) ⟨i, hi, ?_⟩)
    · by_cases hj : j = i
      · rw [hj, hself, hs.call]
        simp [hover]
      · rw [hother j hj]
    · rw [hself, hs.call]
      simp [hover, hopen]
  | false =>
    refine .inr ⟨Finset.sum_congr rfl fun j _ => ?_, Finset.sum_lt_sum (fun j _ => ?_) ⟨i, hi, ?_⟩⟩
    · by_cases hj : j = i
      · rw [hj, hself, hs.call]
        simp [hover, hopen]
      · rw [hother j hj]
    · by_cases hj : j = i
      · rw [hj, hself, hs.call]
        exact (hs.weight_lt h hinit hover).le
      · rw [hother j hj]
        cases w.calls[j]? with
        | none => exact Nat.le_refl _
        | some e₁ => exact weight_le (hs.free_cases h hover) e₁.pc
    · rw [hself, hs.call]
      exact hs.weight_lt h hinit hover

/-- **No false sold-out.** Let calls for different bookings that hold no seat run on one train, their guards,
picks, locks, updates, commits and aborts in any order. Then the calls that return a row return different
seats; with as many free seats as calls at the start none returns without a row, and when all have committed
exactly one seat for each booking has become `RESERVED`. No call ever waits, and the run ends. Source:
migration `100_fn_allocate_seat`, `infra/qstash/publisher.ts` (`parallelism`). Kind: P -/
theorem no_false_sold_out (hinit : Initial w₀) (h : Steps step Always w₀ w) : NoFalseSoldOut w₀ w ∧
    (∀ (i : ℕ) (e : PickCall), w.calls[i]? = some e → e.pc.ended = false →
      ∃ a : Action, a.call = i ∧ a ≠ .abort i ∧ (w.step a).isSome = true) ∧
    ¬ Endless step Always w := by
  have hinv := inv_of_steps hinit h
  refine ⟨⟨?_, fun hk => not_soldOut hinit hk h, fun hk hdone => ?_⟩,
    fun i e he hover => hinv.ready he hover, ?_⟩
  · intro i j e e' k v v' he he' hret hret'
    obtain ⟨s, hs⟩ := hinv.known i e k he (seat_of_returned hret)
    obtain rfl : s.id = k := Table.key_of_find? hs
    exact ((hinv.seats s (Table.mem_of_find? hs)).owns he' (seat_of_returned hret')).only i e he
      (seat_of_returned hret)
  · refine hinv.perm_reservedSince hinit fun e he => ?_
    obtain ⟨row, hpc⟩ := hdone e he
    cases row with
    | none => exact absurd (by rw [hpc]; rfl) (not_soldOut hinit hk h e he)
    | some seat => exact ⟨seat.1, seat.2, hpc⟩
  · refine not_endless (P := Inv w₀) variant (fun w a w' hw _ hst => ?_)
      (fun w a w' hw _ hst => ?_) hinv
    · obtain ⟨e, e', hs⟩ := step_cases hst
      exact hw.step hinit hs
    · obtain ⟨e, e', hs⟩ := step_cases hst
      exact hs.variant_lt hw hinit

end runs

/-! ## A race -/

/-- A booking that waits for its delivery. Source: migration `060_bookings`. Kind: D -/
def pendingBooking (b : BookingId) (k : IdempotencyKey) : Booking where
  id := b
  idempotencyKey := k
  trainId := "12951"
  passengerName := "Asha"
  passengerPhone := none
  status := .pending
  failureReason := none
  seatId := none
  paymentId := none
  pricePaise := 126000
  createdAt := 0
  confirmedAt := none

/-- Two calls and two free seats. Source: none: infrastructure. Kind: D -/
def twoCalls : Picks where
  trainId := "12951"
  seats := .ofTable ⟨[Store.freeSeat "12951-B1" "12951", Store.freeSeat "12951-B2" "12951"], by decide⟩
  bookings := ⟨[pendingBooking 1 "k1", pendingBooking 2 "k2"], by decide⟩
  calls := [⟨1, "Asha", 300, 0, .sent⟩, ⟨2, "Ravi", 300, 0, .sent⟩]

/-- They are as at the start. Source: none: infrastructure. Kind: L -/
theorem initial_twoCalls : Initial twoCalls where
  unlocked _ := rfl
  sent := by decide
  distinct := by decide
  unheld := by decide

/-- Both calls come to the first seat; the second one finds it locked and goes on to the next. Source: none:
infrastructure. Kind: D -/
def racing : List Action :=
  [.start 0 0, .start 1 0, .guard 0 "", .guard 1 "", .pick 0, .pick 1, .lock 0, .lock 1, .pick 1, .lock 1,
    .update 1, .commit 1, .update 0, .commit 0]

/-- Both bookings get a seat. Source: none: infrastructure. Kind: L -/
theorem no_false_sold_out_racing : ∃ w, Steps step Always twoCalls w ∧
    List.Perm ((reservedSince twoCalls w).map Seat.bookingId) [some 1, some 2] := by
  have hrun : (run step twoCalls racing).map (fun w => w.calls.all fun e => match e.pc with
      | .done _ => true
      | _ => false) = some true := by decide +kernel
  obtain ⟨w, hw, hdone⟩ := Option.map_eq_some_iff.mp hrun
  have hsteps := steps_of_run hw
  refine ⟨w, hsteps, (no_false_sold_out initial_twoCalls hsteps).1.reserved (by decide) fun e he => ?_⟩
  have hover := List.all_eq_true.mp hdone e he
  split at hover
  · exact ⟨_, ‹_›⟩
  · cases hover

/-! ## The atomic statement -/

section atomic

variable {w₀ w w' : Picks} {i : ℕ} {e e' : PickCall} {k : SeatId} {s : Seat}

/-- A step after which no call has failed. Source: none: infrastructure. Kind: D -/
def NoFailure (w : Picks) (a : Action) : Prop :=
  ∀ w', w.step a = some w' → ∀ e ∈ w'.calls, e.pc ≠ .failed

/-- What a call has picked is no higher than any free seat. Source: migration `100_fn_allocate_seat`
(`ORDER BY s.id`). Kind: D -/
def Lowest (w : Picks) : Prop :=
  ∀ (i : ℕ) (e : PickCall) (k : SeatId), w.calls[i]? = some e → e.pc = .picked k → ∀ s ∈ w.free, k ≤ s.id

/-- A call that does not fail keeps its seat. Source: migration `100_fn_allocate_seat`. Kind: L -/
theorem Stepped.seat_kept (hs : Stepped w w' i e e') (hok : e'.pc ≠ .failed) (hseat : e.pc.seat = some k) :
    e'.pc.seat = some k := by
  cases hs.moves with
  | starts hpc | finds hpc | misses hpc | picks hpc | soldOut hpc | skips hpc | locks hpc =>
    rw [hpc] at hseat
    cases hseat
  | updates hpc _ he' | commits hpc he' =>
    rw [hpc] at hseat
    rw [he']
    exact hseat
  | fails _ he' =>
    rw [he'] at hok
    exact absurd rfl hok

/-- Without a failure no seat comes free. Source: migration `100_fn_allocate_seat`. Kind: L -/
theorem Stepped.mem_free (hs : Stepped w w' i e e') (hinit : Initial w₀) (h : Inv w₀ w)
    (hok : e'.pc ≠ .failed) (hmem : s ∈ w'.free) : s ∈ w.free := by
  have hinv := h.step hinit hs
  obtain ⟨hrow, hfree, hlock⟩ := Versioned.mem_free.mp hmem
  obtain ⟨s₀, hs₀, hid, hstanding⟩ := hinv.standing (Table.find?_of_mem hrow)
  obtain ⟨rfl, hnone⟩ := hstanding.of_free hmem hid.symm
  have hself : w'.calls[i]? = some e' := by rw [hs.calls, if_pos rfl]
  have hseat' := hnone i e' hself
  obtain ⟨hfind, hl⟩ := hs.seat_of_ne (h.seats s hs₀) (fun hseat => hseat' (hs.seat_kept hok hseat)) hseat'
  refine Versioned.mem_free.mpr ⟨Table.mem_of_find? (hfind.symm.trans (Table.find?_of_mem hrow)), ?_,
    hl.symm.trans hlock⟩
  unfold available at hfree ⊢
  rw [← hs.trainId]
  exact hfree

/-- What was picked stays the lowest. Source: migration `100_fn_allocate_seat` (`ORDER BY s.id`). Kind: L -/
theorem lowest_of_steps (hinit : Initial w₀) (h : Steps step NoFailure w₀ w) : Lowest w := by
  let P : Picks → Prop := fun w => Inv w₀ w ∧ Lowest w
  have hP : P w := by
    refine h.invariant (P := P) (fun w a w' hw hok hst => ?_) ⟨.start hinit, fun i e k he hpc => ?_⟩
    · obtain ⟨hinv, hlow⟩ := hw
      obtain ⟨e, e', hs⟩ := step_cases hst
      refine ⟨hinv.step hinit hs, fun j e₁ k he₁ hpicked s hmem => ?_⟩
      have hself : w'.calls[a.call]? = some e' := by rw [hs.calls, if_pos rfl]
      have hmem := hs.mem_free hinit hinv (hok w' hst e' (List.mem_of_getElem? hself)) hmem
      rw [hs.calls] at he₁
      split at he₁
      · cases he₁
        cases hs.moves with
        | picks _ hpick he' =>
          rw [he'] at hpicked
          cases hpicked
          exact (Versioned.pickFree_eq_some hpick).2 s hmem
        | finds hpc hx hheld =>
          rw [hinv.guard hinit hs.call hpc _ hx] at hheld
          cases hheld
        | starts _ he' | misses _ he' | soldOut _ _ he' | skips _ _ he' | locks _ _ he' | updates _ _ he'
        | commits _ he' | fails _ he' =>
          rw [he'] at hpicked
          cases hpicked
      · exact hlow j e₁ k he₁ hpicked s hmem
    · rw [hinit.sent e (List.mem_of_getElem? he)] at hpc
      cases hpc
  exact hP.2

/-- **The row that is locked** is the row that the atomic statement picks in the same tables, if no call has
failed. Source: migration `100_fn_allocate_seat` (statement 2). Kind: P -/
theorem pickAvailable_of_locks {σ : Store} (hinit : Initial w₀) (h : Steps step NoFailure w₀ w)
    (hσ : σ.seats = w.seats) (hst : w.step (.lock i) = some w') (he' : w'.calls[i]? = some e')
    (hpc' : e'.pc = .locked k) :
    ∃ s, σ.pickAvailable i w.trainId = some s ∧ s.id = k := by
  have hinv := inv_of_steps hinit
    (Relation.ReflTransGen.mono (fun _ _ ⟨a, _, ha⟩ => ⟨a, trivial, ha⟩) w₀ w h)
  obtain ⟨e, e₁, hs⟩ := step_cases hst
  have hself : w'.calls[i]? = some e₁ := (hs.calls i).trans (if_pos rfl)
  obtain rfl := Option.eq_some_unique he' hself
  have hpicked : ∃ s ∈ w.free, s.id = k ∧ e.pc = .picked k := by
    cases hs.moves with
    | @locks s hpc hmem heq =>
      rw [heq] at hpc'
      obtain rfl := PickPc.locked.inj hpc'
      exact ⟨s, hmem, rfl, hpc⟩
    | finds hpc hx hheld =>
      rw [hinv.guard hinit hs.call hpc _ hx] at hheld
      cases hheld
    | starts _ heq | misses _ heq | picks _ _ heq | soldOut _ _ heq | skips _ _ heq | updates _ _ heq
    | commits _ heq | fails _ heq =>
      rw [heq] at hpc'
      cases hpc'
  obtain ⟨s, hmem, rfl, hpc⟩ := hpicked
  refine ⟨s, ?_, rfl⟩
  -- a call that has locked nothing passes over what is locked
  have hselect : (σ.seats.committed.select fun x =>
      x.trainId == w.trainId && x.status == .available && !σ.seats.lockedFor i x.id) = w.free := by
    rw [hσ]
    refine List.filter_congr fun x hx => ?_
    have hlocked : (!w.seats.lockedFor i x.id) = (w.seats.lock (key x)).isNone := by
      cases hl : w.seats.lock (key x) with
      | none =>
        unfold Versioned.lockedFor
        rw [show w.seats.lock x.id = none from hl]
        rfl
      | some own =>
        obtain ⟨s₀, -, hid, hstanding⟩ := hinv.standing (Table.find?_of_mem hx)
        have hne : own.1 ≠ i := by
          rintro rfl
          obtain ⟨e₂, he₂, hseat⟩ := hstanding.owner (by rw [hid]; exact hl)
          obtain rfl := Option.eq_some_unique hs.call he₂
          rw [hpc] at hseat
          cases hseat
        unfold Versioned.lockedFor
        rw [show w.seats.lock x.id = some own from hl]
        simp [hne]
    rw [hlocked]
    rfl
  unfold Store.pickAvailable
  rw [hselect]
  exact Versioned.pickFree_of_le hmem fun x hx => lowest_of_steps hinit h i e s.id hs.call hpc x hx

end atomic

end Picks

end TrainsAndTracks
