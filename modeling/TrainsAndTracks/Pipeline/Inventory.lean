import TrainsAndTracks.Store.Inventory
import TrainsAndTracks.Pipeline.Tickets

/-!
# The inventory in the pipeline

Two statements about seats that are not sold: no live hold belongs to a booking that has ended, and a
train that has turned a customer away for good has no free seat again. Both fail for the same reason, a
decision taken on what one transaction sees and acted upon in another.

* `terminal_hold`, `holds_open` — an allocation that commits after its booking has failed, and the runs
  whose commits leave the holds open.
* `Sold` — every seat of the train is `CONFIRMED`, which no step takes back.
* `TurnsAwaySold` — a train is found sold out only when it is.
* `returning_seat`, `sold_out_permanent` — the seat of another customer that comes back after the refusal,
  and the runs in which the refusals are right.
-/

namespace TrainsAndTracks

open Found

open Store (JobOk)

/-! ## Live holds of bookings that have ended -/

namespace Sys

/-- The broker takes the message and the ingress does not learn so. The delivery reads the booking while
it is `PENDING`, the ingress fails it, and the allocation commits. Source: none: infrastructure. Kind: D -/
def straggling : List Action :=
  [.post asha, .gate 0 true true] ++ callReturns 0 0 1 ++ callReturns 0 1 1 ++ [.publish 0 true false] ++
    [.deliver 0 0, .chaos 1 none] ++ callReturns 1 2 1 ++ callReturns 0 3 1 ++ callCommits 1 4 2

/-- A live hold is a hold of a booking that is `FAILED`. Source: none: infrastructure. Kind: D -/
def holdsForFailed (s : Sys) : Bool :=
  s.store.seats.committed.rows.any fun seat => seat.liveAt s.store.now && seat.bookingId.any fun b =>
    (s.store.bookings.committed.find? b).any fun r => r.status == .failed

/-- **An allocation outlives its booking.** In some reachable pipeline a seat is held, and the hold is
live, for a booking that is `FAILED`. Source: migration `100_fn_allocate_seat`,
`app/api/worker/allocate/route.ts` (steps 3 and 4). Kind: P -/
theorem terminal_hold : ¬ ∀ s, Reachable config s → s.store.HoldsOpen := by
  intro h
  have hrun : (run (step config) opening straggling).map holdsForFailed = some true := by
    decide +kernel
  obtain ⟨s, hreach, hp⟩ := reach_of_run initial_opening hrun
  simp only [holdsForFailed, List.any_eq_true, Bool.and_eq_true, Option.any_eq_true, beq_iff_eq] at hp
  obtain ⟨seat, hmem, hlive, b, hb, r, hr, hst⟩ := hp
  obtain ⟨b', r', hb', hr', hst'⟩ := h s hreach seat hmem hlive
  obtain rfl := Option.eq_some_unique hb hb'
  obtain rfl := Option.eq_some_unique hr hr'
  rw [hst] at hst'
  cases hst'

/-- **Live holds are holds of open bookings.** In every run whose commits publish a hold for a `PENDING`
booking only, and end a booking without a live hold only, the seats of the same transaction apart, every
live hold is a hold of a `PENDING` booking. Source: migrations `100_fn_allocate_seat`,
`20260418000000_split_release_hold`, `130_fn_sweep_expired_holds`. Kind: P -/
theorem holds_open {cfg : Config} {s : Sys} (h : Reach (step cfg) Initial (OnStore Store.LeavesOpen) s) :
    s.store.HoldsOpen :=
  Store.holdsOpen_of_reach (reach_store (fun _ _ _ => trivial) h)

/-- Some hold is live. Source: none: infrastructure. Kind: D -/
def hasLiveHold (s : Sys) : Bool :=
  s.store.seats.committed.rows.any fun seat => seat.liveAt s.store.now

/-- The delivery holds a seat for its booking. Source: none: infrastructure. Kind: D -/
def holding : List Action :=
  accepting ++ [.deliver 0 0, .chaos 1 none] ++ callReturns 1 3 1 ++ callCommits 1 4 2

/-- A run with a hold that leaves the holds open. Source: none: infrastructure. Kind: L -/
theorem holds_open_holding : ∃ s : Sys, s.hasLiveHold = true ∧ s.store.HoldsOpen := by
  have hrun : (run (guarded (step config) (OnStore Store.LeavesOpen)) opening holding).map hasLiveHold =
      some true := by decide +kernel
  obtain ⟨s, hreach, hlive⟩ := reach_of_guarded initial_opening hrun
  exact ⟨s, hlive, holds_open hreach⟩

end Sys

/-! ## Trains that are sold -/

namespace Store

/-- Every seat of the train is `CONFIRMED`. Source: migration `030_seats`. Kind: D -/
def Sold (σ : Store) (train : TrainId) : Prop :=
  ∀ s ∈ σ.seats.committed, s.trainId = train → s.status = .confirmed

/-- The train for which execution `i` of `allocate_seat`, at its second statement, finds no row. Source:
migration `100_fn_allocate_seat`, statement 2. Kind: D -/
def turnedAway (σ : Store) (i : ℕ) : Option TrainId :=
  match σ.execs[i]? with
  | some ⟨.allocateSeat train .., _, _, .allocatePick⟩ =>
    if (σ.pickAvailable i train).isNone then some train else none
  | _ => none

/-- `allocate_seat` finds no row only when every seat of the train is `CONFIRMED`. Source: migration
`100_fn_allocate_seat`, statement 2. Kind: D -/
def TurnsAwaySold (σ : Store) : Action → Prop
  | .exec i _ => ∀ train ∈ σ.turnedAway i, ∀ s ∈ σ.seats.committed.rows, s.trainId = train →
    s.status = .confirmed
  | _ => True

instance (σ : Store) (a : Action) : Decidable (TurnsAwaySold σ a) :=
  match a with
  | .exec i _ => inferInstanceAs (Decidable (∀ train ∈ σ.turnedAway i,
    ∀ s ∈ σ.seats.committed.rows, s.trainId = train → s.status = .confirmed))
  | .begin .. | .start _ | .commit _ | .abort _ | .tick _ => .isTrue trivial

/-- A refusal for good: whoever is told that the train is sold out, and whatever is about to fail a
booking as sold out, is right. Source: migration `100_fn_allocate_seat`,
`20260418000000_split_release_hold`. Kind: D -/
def SoldReplies (σ : Store) : Prop :=
  ∀ (i : ℕ) (e : Exec), σ.execs[i]? = some e → ∀ train b passenger hold,
    e.call = .allocateSeat train b passenger hold →
    e.pc = .ret (.allocated none) ∨ e.pc = .done (.allocated none) → σ.Sold train

/-- The call fails a booking as sold out only when its train is sold. Source:
`app/api/worker/allocate/route.ts` (step 5). Kind: D -/
def SoldCall (σ : Store) (call : Call) : Prop :=
  ∀ b, call.fails = some (b, "sold_out") →
    ∃ r, σ.bookings.committed.find? b = some r ∧ σ.Sold r.trainId

/-- A booking that has failed as sold out is a booking of a train that is sold. Source:
`app/api/worker/allocate/route.ts` (step 5). Kind: D -/
def SoldBookings (σ : Store) : Prop :=
  ∀ b r, σ.bookings.committed.find? b = some r → r.failureReason = some "sold_out" → σ.Sold r.trainId

section sold

variable {σ σ' : Store} {a : Action} {train : TrainId}

/-- **A sold train stays sold.** Source: `lib/allocation/hold-state-machine.ts` (header). Kind: L -/
theorem Sold.step (hl : LocksOk σ) (h : σ.Sold train) (hs : Stepped σ a σ') : σ'.Sold train := by
  intro s' hmem htrain
  obtain ⟨s, hold, rfl | ⟨_, _, _, -, -, -, -, hw⟩⟩ := seat_old hl hs (Table.find?_of_mem hmem)
  · exact h s' (Table.mem_of_find? hold) htrain
  · have hmoves := hw.moves
    have hst := h s (Table.mem_of_find? hold) (hmoves.trainId.symm.trans htrain)
    exact absurd hmoves (Seat.not_moves_of_confirmed hst s')

/-- Whoever is told that the train is sold out is right, after a step that turns away from sold trains
only. Source: migration `100_fn_allocate_seat`, statement 2. Kind: L -/
theorem SoldReplies.step (hl : LocksOk σ) (h : σ.SoldReplies) (hs : Stepped σ a σ')
    (hC : TurnsAwaySold σ a) : σ'.SoldReplies := by
  refine hs.forall_execs (P := fun σ _ e => ∀ train b passenger hold,
    e.call = .allocateSeat train b passenger hold →
    e.pc = .ret (.allocated none) ∨ e.pc = .done (.allocated none) → σ.Sold train)
    (fun i e he => h i e he) ?_ ?_ ?_ ?_ ?_ ?_
  · intro i e _ _ hP train b passenger hold hcall hpc
    exact (hP train b passenger hold hcall hpc).step hl hs
  · intro i e _ hpc train b passenger hold _ hret
    exact absurd hret (not_returned hpc _)
  · intro i e next ch ha he _ hr train b passenger hold hcall hret
    rcases hret with hret | hret
    · obtain ⟨call, client, now, pc⟩ := e
      cases hcall
      cases hret
      cases hr with
      | soldOut hno =>
        subst ha
        exact hC train (by simp [turnedAway, he, hno])
    · exact absurd hret (hr.next_ne_done _)
  · intro i e us ub next seats bookings ch _ _ _ hr _ _ train b passenger hold hcall hret
    rcases hret with hret | hret
    · obtain ⟨call, client, now, pc⟩ := e
      cases hcall
      cases hret
      cases hr
    · exact absurd hret (hr.next_ne_done _)
  · intro i e r he hP hpc _ _ _ train b passenger hold hcall hret
    rcases hret with hret | hret <;> cases hret
    exact (hP train b passenger hold hcall (.inl hpc)).step hl hs
  · intro i e st _ _ hr hst _ _ _ _ train b passenger hold hcall hret
    obtain ⟨call, client, now, pc⟩ := e
    cases hcall
    cases hr <;> cases hst

/-- A call that is right stays right. Source: none: infrastructure. Kind: L -/
theorem SoldCall.step (hl : LocksOk σ) {call : Call} (h : σ.SoldCall call) (hs : Stepped σ a σ') :
    σ'.SoldCall call := by
  intro b hfails
  obtain ⟨r, hr, hsold⟩ := h b hfails
  obtain ⟨r', hr', hg⟩ := (hs.le hl).booking b r hr
  exact ⟨r', hr', by rw [hg.trainId]; exact hsold.step hl hs⟩

/-- Bookings fail as sold out rightly when the calls are right. Source: migration
`20260418000000_split_release_hold`. Kind: L -/
theorem SoldBookings.step (hl : LocksOk σ) (h : σ.SoldBookings)
    (hcalls : ∀ (i : ℕ) (e : Exec), σ.execs[i]? = some e → σ.SoldCall e.call) (hs : Stepped σ a σ') :
    σ'.SoldBookings := by
  intro b r' hr' hwhy
  rcases booking_old hs hr' with ⟨r, hr⟩ | ⟨-, _, _, _, _, -, -, -, -, -, rfl⟩
  · rcases booking_change hl hs hr hr' with rfl | ⟨i, e, _, -, he, -, -, hw⟩
    · exact (h b r' hr hwhy).step hl hs
    · refine Sold.step hl ?_ hs
      cases hw with
      | confirm => exact h b r hr hwhy
      | @fail b₀ why hcall hcond =>
        cases hwhy
        obtain ⟨r₁, hr₁, hsold⟩ := hcalls i e he b₀ hcall
        have hid : r.id = b₀ := by
          simp only [failRowUpdate, Bool.and_eq_true, beq_iff_eq] at hcond
          exact hcond.1
        obtain rfl : r.id = b := Table.key_of_find? hr
        rw [← hid] at hr₁
        obtain rfl := Option.eq_some_unique hr hr₁
        exact hsold
      | expire => simp [sweepRowsUpdate] at hwhy
  · cases hwhy

end sold

end Store

/-! ## Refusals -/

namespace Sys

/-- Sold out is permanent: the train of a booking that has failed as sold out has no `AVAILABLE` seat.
Source: `app/api/worker/allocate/route.ts` (step 5, comment). Kind: D -/
def SoldOutPermanent (s : Sys) : Prop :=
  ∀ b r, s.store.bookings.committed.find? b = some r → r.failureReason = some "sold_out" →
    ∀ seat ∈ s.store.seats.committed, seat.trainId = r.trainId → seat.status ≠ .available

/-- One train with one free seat. Source: none: infrastructure. Kind: D -/
def lastSeat : Sys :=
  ⟨Store.fresh ["12951"] ⟨[Store.freeSeat "12951-A1" "12951"], by decide⟩, [], [], []⟩

/-- It is initial. Source: none: infrastructure. Kind: L -/
theorem initial_lastSeat : Initial lastSeat := ⟨Store.initial_fresh _ (by decide), rfl, rfl, rfl⟩

/-- Handler `c` books for the second request, with the executions from `i` on, and handler `c + 1` is the
delivery of its message, which reads the booking and finds no seat. Source: none: infrastructure. Kind: D -/
def refused (c i : ℕ) : List Action :=
  [.post ravi, .gate c true true] ++ callReturns c i 1 ++
    [.issue c, .store (.start (i + 1)), .store (.exec (i + 1) { Store.usualChoice with uuid := 2 }),
      .store (.commit (i + 1)), .receive c, .publish c true true, .deliver 1 0, .chaos (c + 1) none] ++
    callReturns (c + 1) (i + 2) 1 ++ callReturns (c + 1) (i + 3) 2 ++ callReturns (c + 1) (i + 4) 3

/-- The first request holds the last seat when the second one is refused; then the charge of the first
throws, and its hold is released for a retry. Source: none: infrastructure. Kind: D -/
def givingBack : List Action :=
  accepting ++ [.deliver 0 0, .chaos 1 none] ++ callReturns 1 3 1 ++ callReturns 1 4 2 ++ refused 2 5 ++
    [.throw 1] ++ callReturns 1 10 2

/-- Some booking has failed as sold out, and some seat of its train is `AVAILABLE`. Source: none:
infrastructure. Kind: D -/
def refusedTooSoon (s : Sys) : Bool :=
  s.store.bookings.committed.rows.any fun r => r.failureReason == some "sold_out" &&
    s.store.seats.committed.rows.any fun seat => seat.trainId == r.trainId && seat.status == .available

/-- **The seat of another customer comes back.** In some reachable pipeline a booking has failed as sold
out and a seat of its train is `AVAILABLE`. Source: `app/api/worker/allocate/route.ts` (steps 5 and 6),
migrations `100_fn_allocate_seat`, `20260418000000_split_release_hold`. Kind: P -/
theorem returning_seat : ¬ ∀ s, Reachable config s → s.SoldOutPermanent := by
  intro h
  have hrun : (run (step config) lastSeat givingBack).map refusedTooSoon = some true := by
    decide +kernel
  obtain ⟨s, hreach, hp⟩ := reach_of_run initial_lastSeat hrun
  simp only [refusedTooSoon, List.any_eq_true, Bool.and_eq_true, beq_iff_eq] at hp
  obtain ⟨r, hr, hwhy, seat, hseat, htrain, hfree⟩ := hp
  exact h s hreach r.id r (Table.find?_of_mem hr) hwhy seat hseat htrain hfree

/-- What a delivery that is about to fail its booking knows. Source: `app/api/worker/allocate/route.ts`
(steps 5 and 6). Kind: D -/
def SoldTask (s : Sys) : Task → Prop
  | .worker d .releaseSoldOut => s.store.Sold d.job.trainId
  | .worker _ (.releaseFailed f) => f.reason ≠ "sold_out"
  | _ => True

/-- Every refusal on the way and every refusal made is right. Source: `app/api/worker/allocate/route.ts`
(step 5). Kind: D -/
structure SoldOk (s : Sys) : Prop where
  replies : s.store.SoldReplies
  bookings : s.store.SoldBookings
  calls : ∀ (i : ℕ) (e : Exec), s.store.execs[i]? = some e → s.store.SoldCall e.call
  tasks : ∀ (c : ℕ) (cl : Client), s.clients[c]? = some cl → s.SoldTask cl.task

section soldOut

variable {cfg : Config} {s s' : Sys} {a : Action}

/-- A handler that is right sends calls that are right. Source: `app/api/worker/allocate/route.ts` (steps
5 and 6), `app/api/webhooks/qstash-failure/route.ts`, `app/api/book/route.ts` (publish-failure branch).
Kind: L -/
theorem SoldTask.call {t : Task} (hok : s.TaskOk t) (h : s.SoldTask t) {call : Call}
    (hcall : t.call cfg = some call) : s.store.SoldCall call := by
  intro b hfails
  cases t with
  | worker d pc =>
    cases pc with
    | releaseSoldOut =>
      cases hcall
      cases hfails
      obtain ⟨r, hr, -, htrain⟩ := hok.1.booked
      exact ⟨r, hr, by rw [htrain]; exact h⟩
    | releaseFailed f =>
      cases hcall
      simp only [Call.fails, Option.some.injEq, Prod.mk.injEq] at hfails
      exact absurd hfails.2 h
    | _ => cases hcall <;> cases hfails
  | webhook cb pc =>
    cases pc with
    | release =>
      cases hcall
      simp only [Call.fails, Option.some.injEq, Prod.mk.injEq, FailureCallback.failureReason] at hfails
      have hwhy := hfails.2
      split at hwhy <;> simp at hwhy
    | _ => cases hcall <;> cases hfails
  | ingress req pc =>
    cases pc with
    | rollback job =>
      cases hcall
      simp [Call.fails] at hfails
    | _ => cases hcall <;> cases hfails
  | dlqRetry id pc => cases pc <;> cases hcall <;> cases hfails
  | sweeper pc =>
    cases pc <;> cases hcall
    cases hfails

/-- A handler stays right when its train stays sold. Source: none: infrastructure. Kind: L -/
theorem SoldTask.mono (hsold : ∀ train, s.store.Sold train → s'.store.Sold train) {t : Task}
    (h : s.SoldTask t) : s'.SoldTask t := by
  unfold SoldTask at h ⊢
  split at h
  · exact hsold _ h
  · exact h
  · trivial

/-- Past the chaos gate nothing is decided. Source: `app/api/worker/allocate/route.ts` (step 2). Kind: L -/
theorem soldTask_parse (d : Delivery) : s.SoldTask (.worker d (WorkerPc.parse d.job)) := by
  unfold WorkerPc.parse
  split <;> trivial

/-- Past the gates of the ingress nothing is decided. Source: `app/api/book/route.ts` (steps 1–4).
Kind: L -/
theorem soldTask_ingress (req : PostRequest) (pc : IngressPc) : s.SoldTask (.ingress req pc) := trivial

/-- The handlers stay right. Source: `app/api/worker/allocate/route.ts` (steps 5 and 6). Kind: L -/
theorem SoldOk.tasks_step (hinv : Inv cfg s) (h : SoldOk s) (hs : Stepped cfg s a s')
    (hsold : ∀ train, s.store.Sold train → s'.store.Sold train) :
    ∀ (c : ℕ) (cl : Client), s'.clients[c]? = some cl → s'.SoldTask cl.task := by
  refine hs.forall_tasks (P := SoldTask) h.tasks (fun t ht => ht.mono hsold) ?_ ?_ ?_ ?_
  · intro t ht
    cases ht <;> trivial
  · intro c i left t e r t' hcl he hpc ht htask
    obtain ⟨e₁, he₁, hcall, -⟩ := hinv.waits c t i left hcl
    obtain rfl := Option.eq_some_unique he he₁
    cases t with
    | worker d pc =>
      obtain ⟨pc', hpc', rfl⟩ := Option.map_eq_some_iff.mp ht
      cases WorkerPc.replied hpc' with
      | soldOut =>
        simp only [Task.call, WorkerPc.call, Option.some.injEq] at hcall
        exact hsold _ (h.replies i e he _ _ _ _ hcall.symm (.inr hpc))
      | refused =>
        unfold WorkerPc.onPaymentError
        split
        · show (if _ then _ else _) ≠ _
          split <;> decide
        · trivial
      | _ => trivial
    | ingress req pc =>
      obtain ⟨pc', -, rfl⟩ := Option.map_eq_some_iff.mp ht
      exact soldTask_ingress req pc'
    | webhook cb pc =>
      obtain ⟨pc', -, rfl⟩ := Option.map_eq_some_iff.mp ht
      trivial
    | dlqRetry id pc =>
      obtain ⟨pc', -, rfl⟩ := Option.map_eq_some_iff.mp ht
      trivial
    | sweeper pc =>
      obtain ⟨pc', -, rfl⟩ := Option.map_eq_some_iff.mp ht
      trivial
  · intro c cl t' job hcl hgoes htask
    generalize cl.task = t at hgoes
    cases hgoes with
    | throw hcall =>
      cases t with
      | worker d pc =>
        cases pc with
        | charge =>
          simp only [Task.onThrow, WorkerPc.onThrow, WorkerPc.onOtherError]
          split
          · show _ ≠ _
            decide
          · trivial
        | _ => trivial
      | _ => trivial
    | chaosPassed => exact soldTask_parse _
    | published hjob | publishLost hjob | publishFailed hjob =>
      rcases publishing_cases hjob with ⟨req, rfl⟩ | ⟨id, rfl⟩ <;> trivial
    | _ => trivial
  · intro d p _
    trivial

/-- **Refusals stay right** when a train is found sold out only when it is. Source:
`app/api/worker/allocate/route.ts` (step 5), migration `100_fn_allocate_seat`. Kind: L -/
theorem SoldOk.step (hinv : Inv cfg s) (h : SoldOk s) (hs : Stepped cfg s a s')
    (hC : OnStore Store.TurnsAwaySold s a) : SoldOk s' := by
  have hl := hinv.store.locks
  have hcalls : ∀ (c : ℕ) (cl : Client) call, s.clients[c]? = some cl →
      cl.task.call cfg = some call → s.store.SoldCall call :=
    fun c cl call hcl hcall => (h.tasks c cl hcl).call (hinv.tasks c cl hcl) hcall
  rcases hs.store_cases with heq | ⟨x, hx, hcause⟩
  · refine ⟨by rw [heq]; exact h.replies, by rw [heq]; exact h.bookings, ?_, ?_⟩
    · exact hs.forall_calls (P := fun s => s.store.SoldCall) h.calls (by rw [heq]; exact fun _ h => h)
        hcalls
    · exact h.tasks_step hinv hs (by rw [heq]; exact fun _ h => h)
  · have hstep := Store.step_cases hx
    refine ⟨h.replies.step hl hstep ?_, h.bookings.step hl h.calls hstep, ?_, ?_⟩
    · rcases hcause with ⟨rfl, -⟩ | ⟨_, _, _, -, rfl, -⟩
      · exact hC
      · trivial
    · exact hs.forall_calls (P := fun s => s.store.SoldCall) h.calls (fun _ h => h.step hl hstep) hcalls
    · exact h.tasks_step hinv hs fun _ h => h.step hl hstep

/-- Nobody is refused at first. Source: none: infrastructure. Kind: L -/
theorem Initial.soldOk (h : Initial s) : SoldOk s where
  replies i e he := absurd he h.store_initial.no_exec
  bookings b r hr := by
    rw [h.store_initial.bookings_empty] at hr
    cases hr
  calls i e he := absurd he h.store_initial.no_exec
  tasks c cl hcl := by
    rw [h.no_clients] at hcl
    cases hcl

/-- **Sold out is permanent.** In every run in which `allocate_seat` finds no row only when every seat of
the train is `CONFIRMED`, the train of a booking that has failed as sold out never has an `AVAILABLE` seat
again. Source: `app/api/worker/allocate/route.ts` (step 5), `lib/allocation/run-worker-job.ts` (sold out).
Kind: P -/
theorem sold_out_permanent (h : Reach (step cfg) Initial (OnStore Store.TurnsAwaySold) s) :
    s.SoldOutPermanent := by
  have hok : SoldOk s := h.invariant (P := SoldOk) (fun _ hinit => hinit.soldOk)
    fun _ _ _ hreach hP hC hstep => hP.step (inv_of_reach hreach) (step_cases hstep) hC
  intro b r hr hwhy seat hmem htrain havailable
  have hst := hok.bookings b r hr hwhy seat hmem htrain
  rw [havailable] at hst
  cases hst

end soldOut

/-- The first request has its ticket when the second one is refused. Source: none: infrastructure.
Kind: D -/
def sellingOut : List Action :=
  accepting ++ [.deliver 0 0, .chaos 1 none] ++ callReturns 1 3 1 ++ callReturns 1 4 2 ++ callReturns 1 5 2 ++
    callReturns 1 6 3 ++ refused 2 7

/-- Some booking has failed as sold out. Source: none: infrastructure. Kind: D -/
def hasRefused (s : Sys) : Bool :=
  s.store.bookings.committed.rows.any fun r => r.failureReason == some "sold_out"

/-- A run with a refusal that is right. Source: none: infrastructure. Kind: L -/
theorem sold_out_permanent_selling : ∃ s : Sys, s.hasRefused = true ∧ s.SoldOutPermanent := by
  have hrun : (run (guarded (step config) (OnStore Store.TurnsAwaySold)) lastSeat sellingOut).map
      hasRefused = some true := by decide +kernel
  obtain ⟨s, hreach, hrefused⟩ := reach_of_guarded initial_lastSeat hrun
  exact ⟨s, hrefused, sold_out_permanent hreach⟩

end Sys

end TrainsAndTracks
