import TrainsAndTracks.Pipeline.Refunds
import TrainsAndTracks.Store.Allocation

/-!
# Redelivery

What a second delivery of a message does.

* `two_seats`, `one_seat` — a delivery that crashes after `allocate_seat` leaves a hold; once it has
  expired the next delivery takes a second seat. In runs whose guards see every seat of their booking
  as a live hold this does not happen.
* `acked_pending`, `consumed_once` — a delivery that receives no row from `confirm_booking` answers 200,
  also when its booking is still `PENDING`. In runs in which it never is, an acknowledged message is
  consumed: whatever is delivered later finds the booking settled and does nothing but look it up.

`Idle` is the invariant behind the second: it holds once the booking is settled, for all handlers that
have not started yet, and every step of any handler keeps it.
-/

namespace TrainsAndTracks

open Found

open Store (Settled)

/-- The points of a delivery that finds its booking settled. Source:
`app/api/worker/allocate/route.ts` (step 3). Kind: D -/
def WorkerPc.idle : WorkerPc → Bool
  | .chaosGate | .getBooking | .respond _ => true
  | _ => false

namespace Sys

/-! ## One seat a booking -/

/-- Handler 1 allocates and crashes, the hold expires, and handler 2 allocates.
Source: none: infrastructure. Kind: D -/
def reallocating : List Action :=
  accepting ++ [.deliver 0 0, .chaos 1 none] ++ callReturns 1 3 1 ++ callCommits 1 4 2 ++ [.crash 1] ++
    [.store (.tick 400), .deliver 0 1, .chaos 2 none] ++ callReturns 2 5 1 ++ callCommits 2 6 2

/-- Two seats name the first booking. Source: none: infrastructure. Kind: D -/
def holdsTwo (s : Sys) : Bool :=
  s.store.seats.committed.rows.all (·.bookingId == some 1)

/-- **The guard does not see an expired hold.** In some reachable pipeline two seats name one booking.
Source: migration `100_fn_allocate_seat`. Kind: P -/
theorem two_seats : ¬ ∀ s, Reachable config s → s.store.OneSeat := by
  intro h
  have hrun : (run (step config) opening reallocating).map
      (fun s => s.holdsTwo && s.store.seats.committed.rows.map Seat.id == ["12951-A1", "12951-A2"]) =
      some true := by decide +kernel
  obtain ⟨s, hreach, hp⟩ := reach_of_run initial_opening hrun
  simp only [holdsTwo, Bool.and_eq_true, List.all_eq_true, beq_iff_eq] at hp
  obtain ⟨hnames, hids⟩ := hp
  have hseat : ∀ k ∈ ["12951-A1", "12951-A2"], ∃ seat ∈ s.store.seats.committed,
      seat.id = k ∧ seat.bookingId = some 1 := by
    intro k hk
    rw [← hids, List.mem_map] at hk
    obtain ⟨seat, hmem, hid⟩ := hk
    exact ⟨seat, hmem, hid, hnames seat hmem⟩
  obtain ⟨seat, hmem, hid, hb⟩ := hseat "12951-A1" (by simp)
  obtain ⟨seat', hmem', hid', hb'⟩ := hseat "12951-A2" (by simp)
  have heq := h s hreach seat hmem seat' hmem' 1 hb hb'
  rw [heq, hid'] at hid
  exact absurd hid (by decide)

/-- **One seat a booking.** In every run of the pipeline in which each guard of `allocate_seat` finds,
for its booking, no seat that is not a live hold and no other allocation under way, no two seats name
one booking. Source: migration `100_fn_allocate_seat`. Kind: P -/
theorem one_seat {cfg : Config} {s : Sys}
    (h : Reach (step cfg) Initial (OnStore Store.GuardSees) s) : s.store.OneSeat :=
  Store.one_seat_of_guardSees (reach_store (fun _ _ _ => trivial) h)

/-- Handler 1 allocates and crashes; handler 2 is given the same seat and confirms it.
Source: none: infrastructure. Kind: D -/
def redelivering : List Action :=
  accepting ++ [.deliver 0 0, .chaos 1 none] ++ callReturns 1 3 1 ++ callCommits 1 4 2 ++ [.crash 1] ++
    [.deliver 0 1, .chaos 2 none] ++ callReturns 2 5 1 ++ callReturns 2 6 1 ++ callReturns 2 7 2 ++
    callReturns 2 8 3 ++ callReturns 2 9 1 ++ [.answer 2]

/-- The guard sees the hold of the first delivery, and there is one seat for the ticket.
Source: none: infrastructure. Kind: L -/
theorem one_seat_redelivering : ∃ s : Sys, s.hasTicket = true ∧ s.store.OneSeat := by
  have hrun : (run (guarded (step config) (OnStore Store.GuardSees)) opening redelivering).map
      hasTicket = some true := by decide +kernel
  obtain ⟨s, hreach, hticket⟩ := reach_of_guarded initial_opening hrun
  exact ⟨s, hticket, one_seat hreach⟩

/-! ## Deliveries after the acknowledgement -/

/-- A step of handler `c`, or of an execution it has sent. Source: none: infrastructure. Kind: D -/
def stepOf (s : Sys) (c : ℕ) : Action → Bool
  | .store b => (b.actor.bind (s.store.execs[·]?)).any (·.client == c)
  | a => a.client == some c

/-- The tables of the worker and the refunds are as they were. Source: `docs/API_CONTRACT.md` 6.1.
Kind: D -/
structure Untouched (s s' : Sys) : Prop where
  bookings : s'.store.bookings.committed = s.store.bookings.committed
  seats : s'.store.seats.committed = s.store.seats.committed
  payments : s'.store.payments = s.store.payments
  idempotencyKeys : s'.store.idempotencyKeys = s.store.idempotencyKeys
  refunds : s'.refunds = s.refunds

/-- Handler `c` is a delivery about booking `b` that is none of the first `n` handlers.
Source: none: infrastructure. Kind: D -/
def Later (s : Sys) (n : ℕ) (b : BookingId) (c : ℕ) : Prop :=
  n ≤ c ∧ ∃ d pc ph, s.clients[c]? = some ⟨.worker d pc, ph⟩ ∧ d.job.bookingId = b

/-- Booking `b` is settled, and the later deliveries about it only look it up.
Source: `docs/API_CONTRACT.md` 6.1. Kind: D -/
structure Idle (n : ℕ) (b : BookingId) (s : Sys) : Prop where
  settled : Settled s.store b
  points : ∀ (c : ℕ) d pc ph, n ≤ c → s.clients[c]? = some ⟨.worker d pc, ph⟩ →
    d.job.bookingId = b → pc.idle = true
  calls : ∀ (i : ℕ) (e : Exec), s.store.execs[i]? = some e → s.Later n b e.client →
    e.call = .getBookingById b
  replies : ∀ (i : ℕ) (e : Exec), s.store.execs[i]? = some e → s.Later n b e.client → ∀ row,
    e.pc = .ret (.booking (some row)) ∨ e.pc = .done (.booking (some row)) → row.status ≠ .pending

section later

variable {cfg : Config} {s s' : Sys} {a : Action} {n c : ℕ} {b : BookingId}

/-- A later delivery that was there before a step was one. Source: none: infrastructure. Kind: L -/
theorem Later.old (hs : Stepped cfg s a s') (h : s'.Later n b c) (hc : c < s.clients.length) :
    s.Later n b c := by
  obtain ⟨hn, d, pc', ph', hcl', hb⟩ := h
  rcases hs.worker_cases hcl' with ⟨hcl, -⟩ | ⟨pc, ph, hcl, -⟩ | ⟨heq, -⟩
  · exact ⟨hn, d, pc', ph', hcl, hb⟩
  · exact ⟨hn, d, pc, ph, hcl, hb⟩
  · exact absurd heq hc.ne

/-- Later deliveries stay idle. Source: `app/api/worker/allocate/route.ts` (step 3). Kind: L -/
theorem Idle.points_step (hinv : Inv cfg s) (h : Idle n b s) (hs : Stepped cfg s a s') :
    ∀ (c : ℕ) d pc ph, n ≤ c → s'.clients[c]? = some ⟨.worker d pc, ph⟩ →
      d.job.bookingId = b → pc.idle = true := by
  intro c d pc' ph' hn hcl' hb
  rcases hs.worker_cases hcl' with ⟨hcl, -⟩ | ⟨pc, ph, hcl, hmove⟩ | ⟨-, rfl⟩
  · exact h.points c d pc' ph' hn hcl hb
  · have hpc := h.points c d pc ph hn hcl hb
    cases hmove with
    | issue | again | answer | crash => exact hpc
    | @receive _ i left e r _ he hdone hreply =>
      cases hreply with
      | noBooking | terminal => rfl
      | pending hst =>
        obtain ⟨e₁, he₁, -, hclient⟩ := hinv.waits c _ i left hcl
        obtain rfl := Option.eq_some_unique he he₁
        have hlater : s.Later n b e.client := by
          rw [hclient]
          exact ⟨hn, d, _, _, hcl, hb⟩
        exact absurd hst (h.replies i e he hlater _ (.inr hdone))
      | _ => cases hpc
    | throw =>
      cases pc with
      | getBooking => rfl
      | chaosGate | respond => rfl
      | _ => cases hpc
    | parsed =>
      unfold WorkerPc.parse
      split <;> rfl
    | chaos => rfl
    | refund => cases hpc
  · rfl

/-- Later deliveries only look the booking up. Source: `app/api/worker/allocate/route.ts` (step 3).
Kind: L -/
theorem Idle.calls_step (hinv : Inv cfg s) (h : Idle n b s) (hs : Stepped cfg s a s') :
    ∀ (i : ℕ) (e : Exec), s'.store.execs[i]? = some e → s'.Later n b e.client →
      e.call = .getBookingById b := by
  intro i e' he' hlater'
  have hlater := hlater'.old hs (hinv.sender_lt hs he')
  rcases hs.store_cases with heq | ⟨b', hb', hcause⟩
  · rw [heq] at he'
    exact h.calls i e' he' hlater
  · have hstep := Store.step_cases hb'
    rcases hstep.exec_new he' with ⟨e, he⟩ | ⟨call, client, rfl, -, rfl⟩
    · obtain ⟨e₁, he₁, hcall, hclient, -⟩ := hstep.exec_old he
      obtain rfl := Option.eq_some_unique he' he₁
      rw [hclient] at hlater
      rw [hcall]
      exact h.calls i e he hlater
    · rcases hcause with ⟨-, hno⟩ | ⟨c, cl, call', -, heq, hcl, hcall⟩
      · exact absurd rfl (hno call client)
      · cases heq
        obtain ⟨hn, d, pc, ph, hcl₁, rfl⟩ := hlater
        obtain ⟨hcl, -⟩ := running_eq_some.mp hcl
        obtain rfl := Option.eq_some_unique hcl hcl₁
        have hpc := h.points client d pc ph hn hcl rfl
        cases pc with
        | getBooking => exact (Option.some.inj hcall).symm
        | chaosGate | respond => cases hcall
        | _ => cases hpc

/-- The row a lookup returns is the booking's. Source: `lib/db/repositories/bookings.ts`
`getBookingById`. Kind: L -/
theorem found_of_lookup {σ : Store} {i : ℕ} {now : Time} {pc : Pc} {row : Booking}
    (h : Store.Runs σ i now (.getBookingById b) pc (.select (.ret (.booking (some row))))) :
    σ.bookings.committed.find? b = some row := by
  generalize hst : Stmt.select (.ret (.booking (some row))) = st at h
  cases h with
  | getBooking =>
    simp only [Stmt.select.injEq, Pc.ret.injEq, Reply.booking.injEq] at hst
    exact hst.symm
  | releaseSnapshot | releaseSeatsOnly | releaseSeatsThenRow | releaseRow => cases hst

/-- Later deliveries find the booking settled. Source: `app/api/worker/allocate/route.ts` (step 3).
Kind: L -/
theorem Idle.replies_step (hinv : Inv cfg s) (h : Idle n b s) (hs : Stepped cfg s a s') :
    ∀ (i : ℕ) (e : Exec), s'.store.execs[i]? = some e → s'.Later n b e.client → ∀ row,
      e.pc = .ret (.booking (some row)) ∨ e.pc = .done (.booking (some row)) →
      row.status ≠ .pending := by
  intro i e' he' hlater'
  have hlater := hlater'.old hs (hinv.sender_lt hs he')
  revert hlater
  rcases hs.store_cases with heq | ⟨b', hb', -⟩
  · rw [heq] at he'
    exact h.replies i e' he'
  · refine (Store.step_cases hb').forall_execs (P := fun _ _ e => s.Later n b e.client → ∀ row,
      e.pc = .ret (.booking (some row)) ∨ e.pc = .done (.booking (some row)) →
      row.status ≠ .pending) h.replies ?_ ?_ ?_ ?_ ?_ ?_ i e' he'
    · intro i e _ _ hP
      exact hP
    · intro i e _ hpc _ row hret
      exact absurd hret (Store.not_returned hpc _)
    · intro i e next _ _ he _ hr hlater row hret
      have hcall := h.calls i e he hlater
      obtain ⟨call, client, now, pc⟩ := e
      cases hcall
      rcases hret with hret | hret
      · cases hret
        obtain ⟨r, hr₀, hne⟩ := h.settled
        obtain rfl := Option.eq_some_unique (found_of_lookup hr) hr₀
        exact hne
      · exact absurd hret (hr.next_ne_done _)
    · intro i e us ub next seats bookings _ _ he _ hr _ _ hlater row hret
      have hcall := h.calls i e he hlater
      obtain ⟨call, client, now, pc⟩ := e
      cases hcall
      cases hr with
      | releaseSeatsOnly hrel | releaseSeatsThenRow hrel | releaseRow hrel => cases hrel
    · intro i e r _ hP hpc _ _ _ hlater row hret
      rcases hret with hret | hret <;> cases hret
      exact hP hlater row (.inl hpc)
    · intro i e st he _ hr hst _ _ _ _ hlater row hret
      have hcall := h.calls i e he hlater
      obtain ⟨call, client, now, pc⟩ := e
      cases hcall
      cases hr <;> cases hst

/-- **The later deliveries of a settled booking stay idle.** Source:
`app/api/worker/allocate/route.ts` (step 3). Kind: L -/
theorem Idle.step (hinv : Inv cfg s) (h : Idle n b s) (hs : Stepped cfg s a s') :
    Idle n b s' where
  settled := h.settled.mono (hs.le hinv.store.locks).store
  points := h.points_step hinv hs
  calls := h.calls_step hinv hs
  replies := h.replies_step hinv hs

/-- A lookup writes nothing. Source: `lib/db/repositories/bookings.ts` `getBookingById`. Kind: L -/
theorem tables_of_lookup {σ σ' : Store} {x : Store.Action} {i : ℕ} {e : Exec}
    (hl : Store.LocksOk σ) (hs : Store.Stepped σ x σ') (hx : x.actor = some i)
    (he : σ.execs[i]? = some e) (hcall : e.call = .getBookingById b) :
    σ'.bookings.committed = σ.bookings.committed ∧ σ'.seats.committed = σ.seats.committed ∧
      σ'.payments = σ.payments ∧ σ'.idempotencyKeys = σ.idempotencyKeys := by
  have hseats : ∀ k w, σ.seats.lock k ≠ some (i, w) := by
    intro k w hlock
    obtain ⟨r, -, hw⟩ := hl.seat_write he hlock
    rw [hcall] at hw
    cases hw with
    | reserve h | confirm h | release h | sweep h => cases h
  have hbookings : ∀ k w, σ.bookings.lock k ≠ some (i, w) := by
    intro k w hlock
    obtain ⟨r, -, hw⟩ := hl.booking_write he hlock
    rw [hcall] at hw
    cases hw with
    | confirm h | fail h | expire h => cases h
  obtain ⟨call, client, now, pc⟩ := e
  cases hcall
  cases hs with
  | begin | tick => cases hx
  | start | raised | aborted | select => exact ⟨rfl, rfl, rfl, rfl⟩
  | commit =>
    cases hx
    exact ⟨Versioned.commit_committed_of_unlocked hbookings,
      Versioned.commit_committed_of_unlocked hseats, rfl, rfl⟩
  | update hi hr =>
    cases hx
    obtain rfl := Option.eq_some_unique he hi
    cases hr with
    | releaseSeatsOnly hrel | releaseSeatsThenRow hrel | releaseRow hrel => cases hrel
  | lockAdvisory hi hr | insertBooking hi hr | insertPayment hi hr | insertKey hi hr
  | updateKeys hi hr | insertDlqJob hi hr | updateDlqJobs hi hr =>
    cases hx
    obtain rfl := Option.eq_some_unique he hi
    cases hr

/-- **A step of a later delivery touches nothing.** Source: `docs/API_CONTRACT.md` 6.1. Kind: L -/
theorem Idle.untouched (hinv : Inv cfg s) (h : Idle n b s) (hs : Stepped cfg s a s')
    (hc : s.Later n b c) (ha : s.stepOf c a = true) : Untouched s s' := by
  have hstays : s'.store.bookings.committed = s.store.bookings.committed ∧
      s'.store.seats.committed = s.store.seats.committed ∧
      s'.store.payments = s.store.payments ∧
      s'.store.idempotencyKeys = s.store.idempotencyKeys := by
    rcases hs.store_cases with heq | ⟨x, hx, ⟨rfl, -⟩ | ⟨_, _, call, -, rfl, -⟩⟩
    · rw [heq]
      exact ⟨rfl, rfl, rfl, rfl⟩
    · simp only [stepOf, Option.any_eq_true, Option.bind_eq_some_iff, beq_iff_eq] at ha
      obtain ⟨e, ⟨i, hi, he⟩, hclient⟩ := ha
      exact tables_of_lookup hinv.store.locks (Store.step_cases hx) hi he
        (h.calls i e he (hclient ▸ hc))
    · rw [← Option.some.inj hx]
      exact ⟨rfl, rfl, rfl, rfl⟩
  refine ⟨hstays.1, hstays.2.1, hstays.2.2.1, hstays.2.2.2, ?_⟩
  rcases hs.refund_cases with heq | ⟨c', d, p, ph, rfl, hcl, -⟩
  · exact heq
  · obtain rfl : c' = c := by simpa [stepOf, Action.client] using ha
    obtain ⟨hn, d', pc, ph', hcl', hb⟩ := hc
    have hcl := (running_eq_some.mp hcl).1
    cases h.points c' d _ ph hn hcl (by rw [hcl] at hcl'; cases hcl'; exact hb)

end later

/-! ## Effectively once -/

/-- Handler `c` has done nothing but look bookings up, and its next step touches nothing.
Source: `docs/API_CONTRACT.md` 6.1. Kind: D -/
structure Inert (cfg : Config) (s : Sys) (c : ℕ) : Prop where
  calls : ∀ (i : ℕ) (e : Exec), s.store.execs[i]? = some e → e.client = c →
    ∃ b, e.call = .getBookingById b
  refund : s.step cfg (.refund c) = none
  steps : ∀ a s', s.stepOf c a = true → s.step cfg a = some s' → Untouched s s'

/-- Effectively-once consumption: a delivery that answers 200 or 489 leaves its booking settled, and
the later deliveries of its message are inert for good. Source: `docs/API_CONTRACT.md` 6.1.
Kind: D -/
def ConsumedOnce (cfg : Config) (s : Sys) : Prop :=
  ∀ (c : ℕ) d r ph s', s.clients[c]? = some ⟨.worker d (.respond r), ph⟩ →
    r.status = 200 ∨ r.status = 489 → s.step cfg (.answer c) = some s' →
    Settled s'.store d.job.bookingId ∧
    ∀ t, Steps (step cfg) Always s' t → ∀ (c' : ℕ) d' pc ph', s'.clients.length ≤ c' →
      t.clients[c']? = some ⟨.worker d' pc, ph'⟩ → d'.message = d.message → t.Inert cfg c'

/-- The hold expires during the charge, `confirm_booking` returns no row, and the delivery refunds and
caches `EXPIRED` before any sweep. Source: none: infrastructure. Kind: D -/
def outrunning : List Action :=
  accepting ++ [.deliver 0 0, .chaos 1 none] ++ callReturns 1 3 1 ++ callReturns 1 4 2 ++
    [.store (.tick 400)] ++ callReturns 1 5 2 ++ callReturns 1 6 2 ++ [.refund 1] ++ callReturns 1 7 1

/-- Handler 1 is about to answer 200 and its booking stays `PENDING`. Source: none: infrastructure.
Kind: D -/
def acksPending (s : Sys) : Bool :=
  match s.clients[(1 : ℕ)]? with
  | some ⟨.worker d (.respond r), _⟩ =>
    r.status == 200 && (s.step config (.answer 1)).any fun s' =>
      (s'.store.bookings.committed.find? d.job.bookingId).any (·.status == .pending)
  | _ => false

/-- **An expired hold that is not swept falls between the guards.** In some reachable pipeline a
delivery answers 200 and its booking is `PENDING`. Source: `app/api/worker/allocate/route.ts`
(step 7). Kind: P -/
theorem acked_pending : ¬ ∀ s, Reachable config s → s.ConsumedOnce config := by
  intro h
  have hrun : (run (step config) opening outrunning).map acksPending = some true := by
    decide +kernel
  obtain ⟨s, hreach, hp⟩ := reach_of_run initial_opening hrun
  unfold acksPending at hp
  split at hp
  · rename_i d r ph hcl
    simp only [Bool.and_eq_true, beq_iff_eq, Option.any_eq_true] at hp
    obtain ⟨hst, s', hstep, row, hrow, hpending⟩ := hp
    obtain ⟨⟨row', hrow', hne⟩, -⟩ := h s hreach 1 d r ph s' hcl (.inl hst) hstep
    obtain rfl := Option.eq_some_unique hrow hrow'
    exact hne hpending
  · cases hp

instance (σ : Store) (b : BookingId) : Decidable (Settled σ b) :=
  decidable_of_iff ((σ.bookings.committed.find? b).any (·.status ≠ .pending) = true) (by
    simp [Settled, Option.any_eq_true])

section once

variable {cfg : Config} {s s' : Sys} {c : ℕ}

/-- Deliveries give up settled bookings only, when a missing row is received for those only.
Source: `app/api/worker/allocate/route.ts` (step 7). Kind: L -/
theorem settled_of_gaveUp (h : Reach (step cfg) Initial (OnNull Settled) s) :
    ∀ b, s.GaveUp b → Settled s.store b := by
  refine h.invariant (P := fun s => ∀ b, s.GaveUp b → Settled s.store b)
    (fun s hinit b hgave => absurd hgave (hinit.not_gaveUp b)) fun s a s' hreach hP hC hstep => ?_
  have hinv := inv_of_reach hreach
  have hs := step_cases hstep
  exact gaveUp_step hinv hs hC hP fun b _ hsettled =>
    hsettled.mono (hs.le hinv.store.locks).store

/-- Nothing that has not started has moved. Source: none: infrastructure. Kind: L -/
theorem idle_of_settled {b : BookingId} (h : Settled s.store b) :
    Idle s.clients.length b s := by
  have hno : ∀ (c : ℕ) cl, s.clients.length ≤ c → s.clients[c]? ≠ some cl := by
    intro c cl hle hcl
    rw [List.getElem?_eq_none hle] at hcl
    cases hcl
  have hlater : ∀ c, ¬ s.Later s.clients.length b c := by
    rintro c ⟨hle, d, pc, ph, hcl, -⟩
    exact hno c _ hle hcl
  exact ⟨h, fun c d pc ph hle hcl => absurd hcl (hno c _ hle),
    fun i e _ hc => absurd hc (hlater _), fun i e _ hc => absurd hc (hlater _)⟩

/-- An idle delivery is inert. Source: `docs/API_CONTRACT.md` 6.1. Kind: L -/
theorem Idle.inert {n : ℕ} {b : BookingId} (hinv : Inv cfg s) (h : Idle n b s)
    (hc : s.Later n b c) : s.Inert cfg c where
  calls i e he hclient := ⟨b, h.calls i e he (hclient ▸ hc)⟩
  refund := by
    obtain ⟨hn, d, pc, ph, hcl, hb⟩ := hc
    have hpc := h.points c d pc ph hn hcl hb
    cases hstep : s.step cfg (.refund c) with
    | none => rfl
    | some s' =>
      generalize ha : Action.refund c = a at hstep
      cases step_cases hstep with
      | refund hcl' =>
        cases ha
        rw [(running_eq_some.mp hcl').1] at hcl
        cases hcl
        cases hpc
      | start ht => cases ht <;> cases ha
      | go _ hgoes => exact absurd ha.symm (hgoes.ne_refund c)
      | _ => cases ha
  steps a s' ha hstep := h.untouched hinv (step_cases hstep) hc ha

/-- **Effectively-once consumption.** In every run in which a delivery that receives no row from
`confirm_booking` finds its booking settled, a delivery that answers 200 or 489 leaves its booking
settled, and every later delivery of its message, in any continuation of the run, only looks the
booking up. Source: `app/api/worker/allocate/route.ts`, `docs/API_CONTRACT.md` 6.1. Kind: P -/
theorem consumed_once (h : Reach (step cfg) Initial (OnNull Settled) s) : s.ConsumedOnce cfg := by
  intro c d r ph s' hcl hst hstep
  have hinv := inv_of_reach h
  have hs := step_cases hstep
  have hinv' := hinv.step hs
  have hle := hs.le hinv.store.locks
  obtain ⟨-, hcarries, hok⟩ := hinv.tasks c _ hcl
  have hsettled : Settled s'.store d.job.bookingId := by
    refine Settled.mono hle.store ?_
    rcases hok hst with hsettled | hexpired
    · exact hsettled
    · exact settled_of_gaveUp h _ ⟨c, d, _, ph, hcl, rfl, beq_iff_eq.mpr hexpired⟩
  refine ⟨hsettled, fun t hsteps c' d' pc ph' hc' hcl' hm => ?_⟩
  have key : Inv cfg t ∧ t.Carries d.message d.job ∧
      Idle s'.clients.length d.job.bookingId t := by
    refine Steps.invariant (P := fun t => Inv cfg t ∧ t.Carries d.message d.job ∧
      Idle s'.clients.length d.job.bookingId t) (fun t a u hP _ hstep => ?_) hsteps
      ⟨hinv', hcarries.mono hle, idle_of_settled hsettled⟩
    have hs := step_cases hstep
    exact ⟨hP.1.step hs, hP.2.1.mono (hs.le hP.1.store.locks), hP.2.2.step hP.1 hs⟩
  obtain ⟨hinvt, ⟨msg, hmsg, hpay⟩, hidle⟩ := key
  have hb : d'.job.bookingId = d.job.bookingId := by
    obtain ⟨-, ⟨msg', hmsg', hpay'⟩, -⟩ := hinvt.tasks c' _ hcl'
    rw [hm, hmsg] at hmsg'
    cases hmsg'
    rw [← hpay, ← hpay']
  exact hidle.inert hinvt ⟨hc', d', pc, ph', hcl', hb⟩

/-- A delivery is about to answer. Source: none: infrastructure. Kind: D -/
def answering (s : Sys) : Bool :=
  match s.clients[(1 : ℕ)]? with
  | some ⟨.worker _ (.respond r), .ready _⟩ => r.status == 200
  | _ => false

/-- The sweep settles the booking first, and the delivery acknowledges. Source: none: infrastructure.
Kind: L -/
theorem consumed_once_expiring : ∃ s : Sys, s.answering = true ∧ s.ConsumedOnce config := by
  have hrun : (run (guarded (step config) (OnNull Settled)) opening
      (expiring ++ callReturns 1 8 1)).map answering = some true := by decide +kernel
  obtain ⟨s, hreach, hanswer⟩ := reach_of_guarded initial_opening hrun
  exact ⟨s, hanswer, consumed_once hreach⟩

end once

end Sys

end TrainsAndTracks
