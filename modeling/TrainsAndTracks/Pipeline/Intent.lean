import TrainsAndTracks.Pipeline.Redelivery

/-!
# Accepted bookings

Who finishes a booking that was answered `202`. A message that was given up is in `dlq_jobs`; a message
that was acknowledged has a delivery that answered 200, which has settled its booking or has given it
up. A delivery that gives up leaves the booking to the sweeper: it is settled once the sweeper, a
release or a confirmation has ended the last hold of it.

* `Accounted` — the first two facts, in every reachable pipeline.
* `lost_intent` — the hold of a booking that was given up is not always left for the sweeper: another
  delivery's `release_hold_retryable` frees the seat and nothing settles the booking.
* `no_lost_intent` — accepted bookings are settled or dead-lettered in runs in which a booking that is
  given up is settled or held, and no `release_hold_retryable` takes its last hold.
-/

namespace TrainsAndTracks

open Found

open Store (Settled)

namespace Store

/-! ## Holds of a booking -/

/-- Some `RESERVED` seat names the booking. Source: migration
`20260418000000_split_release_hold`. Kind: D -/
def Held (σ : Store) (b : BookingId) : Prop :=
  σ.seats.committed.rows.any (·.heldFor b) = true

/-- Some `RESERVED` seat names the booking and is not about to be written by execution `i`.
Source: migration `20260418000000_split_release_hold`. Kind: D -/
def HeldBesides (σ : Store) (i : ℕ) (b : BookingId) : Prop :=
  (σ.seats.committed.rows.any fun s =>
    s.heldFor b && !(σ.seats.lock s.id).any (·.1 == i)) = true

/-- The booking whose seats execution `i`, a `release_hold_retryable` that has returned, frees at its
commit. Source: migration `20260418000000_split_release_hold`. Kind: D -/
def retrying (σ : Store) (i : ℕ) : Option BookingId :=
  match σ.execs[i]? with
  | some ⟨.releaseHoldRetryable b, _, _, .ret _⟩ => some b
  | _ => none

instance (σ : Store) (b : BookingId) : Decidable (Held σ b) :=
  inferInstanceAs (Decidable (_ = true))

instance (σ : Store) (i : ℕ) (b : BookingId) : Decidable (HeldBesides σ i b) :=
  inferInstanceAs (Decidable (_ = true))

section held

variable {σ σ' : Store} {a : Action} {i : ℕ} {b : BookingId}

/-- A commit leaves the holds it does not write. Source: none: infrastructure. Kind: L -/
theorem HeldBesides.held (h : HeldBesides σ i b) (hs : Stepped σ (.commit i) σ') : Held σ' b := by
  obtain ⟨s, hmem, hp⟩ := List.any_eq_true.mp h
  simp only [Bool.and_eq_true, Bool.not_eq_true'] at hp
  have hfree : ∀ w, σ.seats.lock s.id ≠ some (i, w) := by
    intro w hw
    rw [hw] at hp
    simp at hp
  cases hs with
  | commit =>
    have hstays := (Versioned.find?_commit_of_not_own hfree).trans (Table.find?_of_mem hmem)
    exact List.any_eq_true.mpr ⟨s, Table.mem_of_find? hstays, hp.1⟩

/-- A release that commits a seat of `b` settles `b`, or it is a `release_hold_retryable`.
Source: migration `20260418000000_split_release_hold`. Kind: L -/
theorem settled_of_release (ht : Trusted σ) (hs : Stepped σ (.commit i) σ') {e : Exec} {reply : Reply}
    {why : Option String} (he : σ.execs[i]? = some e) (hpc : e.pc = .ret reply)
    (hcall : e.call.releases = some (b, why)) : Settled σ' b ∨ σ.retrying i = some b := by
  cases why with
  | some why =>
    obtain ⟨r, hr, hlock⟩ := (ht.fails i e he b why (Call.fails_of_releases hcall)).locked reply hpc
    exact .inl (settled_of_commit ht.locks (hs.le ht.locks) hs.of_commit.2.1 hr hlock)
  | none =>
    right
    obtain ⟨call, client, now, pc⟩ := e
    cases hpc
    cases call <;> cases hcall
    simp [retrying, he]

/-- **A hold ends with its booking settled**, unless `release_hold_retryable` frees the last seat.
Source: migrations `110_fn_confirm_booking`, `20260418000000_split_release_hold`,
`130_fn_sweep_expired_holds`. Kind: L -/
theorem Held.step (ht : Trusted σ) (h : Held σ b) (hs : Stepped σ a σ')
    (hretry : ∀ i, a = .commit i → σ.retrying i = some b → Settled σ b ∨ HeldBesides σ i b) :
    Settled σ' b ∨ Held σ' b := by
  have hl := ht.locks
  obtain ⟨s, hmem, hheld⟩ := List.any_eq_true.mp h
  obtain ⟨hst, hb⟩ := Seat.heldFor_iff.mp hheld
  have hold : σ.seats.committed.find? s.id = some s := Table.find?_of_mem hmem
  obtain ⟨s', hnew, rfl | ⟨i, e, reply, rfl, he, hpc, hlock, hw⟩⟩ := seat_next hl hs hold
  · exact .inr (List.any_eq_true.mpr ⟨s', Table.mem_of_find? hnew, hheld⟩)
  · obtain ⟨r, hr, -⟩ := ht.refs.committed s.id s b hold hb
    cases hw with
    | reserve hcall hfree =>
      rw [hfree] at hst
      cases hst
    | confirm hcall hcond =>
      obtain ⟨-, hb', -⟩ := confirmSeatUpdate_cond_iff.mp hcond
      obtain rfl := Option.eq_some_unique hb hb'
      exact .inl ((ht.confirms i e he _ _ _ hcall).settled_of_commit hl hs hpc hlock)
    | release hcall hheld' =>
      obtain rfl := Option.eq_some_unique hb (Seat.heldFor_iff.mp hheld').2
      rcases settled_of_release ht hs he hpc hcall with hsettled | hretrying
      · exact .inl hsettled
      · exact (hretry i rfl hretrying).imp (·.mono (hs.le hl)) (·.held hs)
    | sweep hcall =>
      exact .inl (settled_of_commit hl (hs.le hl) hs.of_commit.2.1 hr fun hp =>
        ht.sweeps i e he hcall s.id _ s b r hlock hold hb hr hp)

end held

end Store

namespace Sys

/-! ## How messages end -/

/-- An acknowledged message has a delivery that answered 200, and a message that was given up and whose
callback was answered is in `dlq_jobs`. Source: `infra/qstash/publisher.ts`,
`app/api/webhooks/qstash-failure/route.ts`. Kind: D -/
structure Accounted (s : Sys) : Prop where
  acked : ∀ (m : ℕ) (msg : Message), s.messages[m]? = some msg → msg.state = .acked →
    ∃ (c : ℕ) (d : Delivery) (r : WorkerResponse),
      s.clients[c]? = some ⟨.worker d (.respond r), .answered⟩ ∧ d.message = m ∧ r.status = 200
  closed : ∀ (m : ℕ) (msg : Message) st n, s.messages[m]? = some msg → msg.state = .closed st n →
    s.Recorded m

section messages

variable {cfg : Config} {s s' : Sys} {a : Action} {c : ℕ} {m : MessageId} {t : Task}
variable {status : Option ℕ} {ms : MessageState}

/-- A message is acknowledged by a delivery of it that ends with 200. Source:
`infra/qstash/publisher.ts` (`retries: 3`). Kind: L -/
theorem settled_eq_acked (h : settled t status m ms = .acked) :
    ms = .acked ∨ ∃ d pc, t = .worker d pc ∧ d.message = m ∧ status = some 200 := by
  cases t with
  | worker d pc =>
    simp only [settled] at h
    split at h
    · rename_i hm
      cases ms with
      | active n =>
        simp only [MessageState.onAnswer] at h
        split at h
        · rename_i hst
          exact .inr ⟨d, pc, rfl, hm, hst⟩
        · repeat' split at h
          all_goals cases h
      | _ => exact .inl h
    · exact .inl h
  | webhook cb pc =>
    simp only [settled] at h
    split at h
    · cases ms <;> first | exact .inl h | cases h
    · exact .inl h
  | _ => exact .inl h

/-- A message is closed by its failure callback ending with 200. Source:
`infra/qstash/publisher.ts` (`failureCallback`). Kind: L -/
theorem settled_eq_closed {st : Option ℕ} {n : ℕ} (h : settled t status m ms = .closed st n) :
    ms = .closed st n ∨ ∃ cb pc, t = .webhook cb pc ∧ cb.sourceMessageId = m ∧ status = some 200 := by
  cases t with
  | worker d pc =>
    simp only [settled] at h
    split at h
    · cases ms with
      | active n =>
        simp only [MessageState.onAnswer] at h
        repeat' split at h
        all_goals cases h
      | _ => exact .inl h
    · exact .inl h
  | webhook cb pc =>
    simp only [settled] at h
    split at h
    · rename_i hm
      exact .inr ⟨cb, pc, rfl, hm⟩
    · exact .inl h
  | _ => exact .inl h

/-- A handler that has answered stays so. Source: none: infrastructure. Kind: L -/
theorem Stepped.answered_stays (hs : Stepped cfg s a s')
    (h : s.clients[c]? = some ⟨t, .answered⟩) : s'.clients[c]? = some ⟨t, .answered⟩ := by
  obtain ⟨cl', hcl', ⟨rfl, -⟩ | hm⟩ := hs.client_next h
  · exact hcl'
  · cases hm.live

/-- A handler that ends with an answer has answered. Source: none: infrastructure. Kind: L -/
theorem Ends.answered {n : ℕ} (h : Ends s a t (some n)) (hs : Stepped cfg s a s') :
    t.status = some n ∧ ∃ (c : ℕ) (ph : Phase), s.clients[c]? = some ⟨t, ph⟩ ∧
      s'.clients[c]? = some ⟨t, .answered⟩ := by
  generalize hst : some n = status at h
  cases h with
  | crash => cases hst
  | @answer c cl st hcl hstatus =>
    cases hst
    obtain ⟨hcl, -⟩ := running_eq_some.mp hcl
    refine ⟨hstatus, c, cl.phase, hcl, ?_⟩
    obtain ⟨cl', hcl', ⟨-, hne⟩ | hm⟩ := hs.client_next hcl
    · exact absurd rfl hne
    · generalize hact : Action.answer c = act at hm
      cases hm with
      | answer => exact hcl'
      | go _ hgoes =>
        generalize cl.task = t at hgoes
        cases hgoes <;> cases hact
      | _ => cases hact

/-- What is accounted for stays so. Source: `infra/qstash/publisher.ts`,
`app/api/webhooks/qstash-failure/route.ts`. Kind: L -/
theorem Accounted.step (hinv : Inv cfg s) (h : s.Accounted) (hs : Stepped cfg s a s') :
    s'.Accounted where
  acked m msg' hmsg' hst' := by
    rcases hs.message_cases hmsg' with ⟨msg, hmsg, -, hst | ⟨t, status, hends, hst⟩⟩ |
      ⟨c, cl, job, -, -, rfl⟩
    · obtain ⟨c, d, r, hcl, hrest⟩ := h.acked m msg hmsg (hst ▸ hst')
      exact ⟨c, d, r, hs.answered_stays hcl, hrest⟩
    · rcases settled_eq_acked (hst.symm.trans hst') with hold | ⟨d, pc, rfl, hm, rfl⟩
      · obtain ⟨c, d, r, hcl, hrest⟩ := h.acked m msg hmsg hold
        exact ⟨c, d, r, hs.answered_stays hcl, hrest⟩
      · obtain ⟨hstatus, c, ph, -, hcl'⟩ := hends.answered hs
        cases pc with
        | respond r => exact ⟨c, d, r, hcl', hm, Option.some.inj hstatus⟩
        | _ => cases hstatus
    · cases hst'
  closed m msg' st n hmsg' hst' := by
    have hle := hs.le hinv.store.locks
    rcases hs.message_cases hmsg' with ⟨msg, hmsg, -, hst | ⟨t, status, hends, hst⟩⟩ |
      ⟨c, cl, job, -, -, rfl⟩
    · exact (h.closed m msg st n hmsg (hst ▸ hst')).mono hle
    · rcases settled_eq_closed (hst.symm.trans hst') with hold | ⟨cb, pc, rfl, rfl, rfl⟩
      · exact (h.closed m msg st n hmsg hold).mono hle
      · obtain ⟨hstatus, c, ph, hcl, -⟩ := hends.answered hs
        have hok := (hinv.tasks c _ hcl).2.2
        cases pc with
        | respond st => exact Recorded.mono hle (hok (Option.some.inj hstatus))
        | _ => cases hstatus
    · cases hst'

/-- Nothing has ended at the start. Source: none: infrastructure. Kind: L -/
theorem Initial.accounted (h : Initial s) : s.Accounted where
  acked m msg hmsg := by
    rw [h.no_messages] at hmsg
    cases hmsg
  closed m msg st n hmsg := by
    rw [h.no_messages] at hmsg
    cases hmsg

end messages

/-! ## No lost intent -/

/-- At rest and after a sweep, a booking that was answered `202` is settled, or `dlq_jobs` has the
payload of its message. Source: `docs/FAILURE_MATRIX.md` (no lost intent). Kind: D -/
def NoLostIntent (s : Sys) : Prop :=
  s.Quiescent → s.Swept → ∀ (c : ℕ) req r b,
    s.clients[c]? = some ⟨.ingress req (.respond r), .answered⟩ → r.status = 202 →
    r.jobId = some b → Settled s.store b ∨
      ∃ j ∈ s.store.dlqJobs, j.payload.bookingId = b ∧ ∃ m, s.Carries m j.payload

/-- The booking is settled, or the sweeper will find a hold of it. Source:
`app/api/worker/allocate/route.ts` (step 7), migration `130_fn_sweep_expired_holds`. Kind: D -/
def Driven (σ : Store) (b : BookingId) : Prop := Settled σ b ∨ σ.Held b

instance (σ : Store) (b : BookingId) : Decidable (Driven σ b) :=
  inferInstanceAs (Decidable (Settled σ b ∨ σ.Held b))

instance (s : Sys) (b : BookingId) : Decidable (s.GaveUp b) :=
  decidable_of_iff (s.clients.any (fun cl => match cl with
    | ⟨.worker d pc, _⟩ => d.job.bookingId == b && pc.gaveUp d.job
    | _ => false) = true) (by
    rw [List.any_eq_true]
    constructor
    · rintro ⟨⟨t, ph⟩, hmem, hp⟩
      obtain ⟨c, hcl⟩ := List.mem_iff_getElem?.mp hmem
      cases t with
      | worker d pc =>
        simp only [Bool.and_eq_true, beq_iff_eq] at hp
        exact ⟨c, d, pc, ph, hcl, hp⟩
      | _ => cases hp
    · rintro ⟨c, d, pc, ph, hcl, rfl, hp⟩
      exact ⟨_, List.mem_of_getElem? hcl, by simpa using hp⟩)

/-- A step that leaves the bookings that were given up to the sweeper: a delivery that receives no row
from `confirm_booking` finds its booking settled or held, and `release_hold_retryable` does not free the
last seat of such a booking. Source: `app/api/worker/allocate/route.ts` (steps 6 and 7). Kind: D -/
def LeftToSweeper (s : Sys) (a : Action) : Prop :=
  OnNull Driven s a ∧ match a with
    | .store (.commit i) => ∀ b ∈ s.store.retrying i, s.GaveUp b →
      Settled s.store b ∨ s.store.HeldBesides i b
    | _ => True

instance (s : Sys) (a : Action) : Decidable (LeftToSweeper s a) :=
  match a with
  | .store (.commit i) => inferInstanceAs (Decidable (OnNull Driven s (.store (.commit i)) ∧
    ∀ b ∈ s.store.retrying i, s.GaveUp b → Settled s.store b ∨ s.store.HeldBesides i b))
  | .store (.begin ..) | .store (.start _) | .store (.exec ..) | .store (.abort _)
  | .store (.tick _) | .post _ | .deliver .. | .failureCallback _ | .retryDlq _ | .sweep | .issue _
  | .receive _ | .throw _ | .gate .. | .publish .. | .chaos .. | .refund _ | .answer _
  | .crash _ => inferInstanceAs (Decidable (OnNull Driven s _ ∧ True))

/-- What `Disciplined` says of a delivery, computed. Source: `infra/qstash/publisher.ts` (`retries: 3`).
Kind: L -/
theorem disciplined_deliver_iff {s : Sys} {m : MessageId} {retried : ℕ} :
    ((s.messages[m]?).any fun msg => match msg.state with
      | .active n => decide (retried ≤ n)
      | _ => false) = true ↔ Disciplined s (.deliver m retried) := by
  rw [Option.any_eq_true]
  refine exists_congr fun msg => and_congr_right fun _ => ?_
  cases msg.state <;> simp

instance (s : Sys) (a : Action) : Decidable (Disciplined s a) :=
  match a with
  | .deliver _ _ => decidable_of_iff _ disciplined_deliver_iff
  | .store _ | .post _ | .failureCallback _ | .retryDlq _ | .sweep | .issue _ | .receive _
  | .throw _ | .gate .. | .publish .. | .chaos .. | .refund _ | .answer _ | .crash _ =>
    .isTrue trivial

/-- Handlers 1 and 2 are deliveries of one message. Handler 1 allocates, and handler 2 finds its hold;
the charge of handler 2 throws and it releases the hold for a retry; handler 1 charges, receives no row
from `confirm_booking`, and acknowledges the message. Source: none: infrastructure. Kind: D -/
def releasing : List Action :=
  accepting ++ [.deliver 0 0, .chaos 1 none, .deliver 0 0, .chaos 2 none] ++ callReturns 1 3 1 ++
    callReturns 2 4 1 ++ callReturns 1 5 2 ++ callReturns 2 6 1 ++ [.throw 2] ++ callReturns 2 7 2 ++
    [.answer 2] ++ callReturns 1 8 2 ++ callReturns 1 9 2 ++ [.refund 1] ++ callReturns 1 10 1 ++ [.answer 1]

/-- At rest and after a sweep, handler 0 has answered `202`, its booking is `PENDING`, and `dlq_jobs` is
empty. Source: none: infrastructure. Kind: D -/
def losesIntent (s : Sys) : Bool :=
  s.atRest && s.store.dlqJobs.rows.isEmpty && match s.clients[(0 : ℕ)]? with
    | some ⟨.ingress _ (.respond r), .answered⟩ => r.status == 202 && r.jobId.any fun b =>
      (s.store.bookings.committed.find? b).any (·.status == .pending)
    | _ => false

/-- **A retryable release takes the hold the sweeper needs.** In some reachable pipeline with a
disciplined broker, at rest and after a sweep, a booking that was answered `202` is `PENDING` and not
dead-lettered. Source: `app/api/worker/allocate/route.ts` (steps 6 and 7). Kind: P -/
theorem lost_intent : ¬ ∀ s, Reach (step config) Initial Disciplined s → s.NoLostIntent := by
  intro h
  have hrun : (run (guarded (step config) Disciplined) opening releasing).map losesIntent =
      some true := by decide +kernel
  obtain ⟨s, hreach, hp⟩ := reach_of_guarded initial_opening hrun
  simp only [losesIntent, Bool.and_eq_true, List.isEmpty_iff] at hp
  obtain ⟨⟨hrest, hdlq⟩, hp⟩ := hp
  obtain ⟨hquiet, hswept⟩ := quiescent_of_atRest hrest
  split at hp
  · rename_i req r hcl
    simp only [Bool.and_eq_true, beq_iff_eq, Option.any_eq_true] at hp
    obtain ⟨hst, b, hb, row, hrow, hpending⟩ := hp
    rcases h s hreach hquiet hswept 0 req r b hcl hst hb with ⟨row', hrow', hne⟩ | ⟨j, hj, -⟩
    · obtain rfl := Option.eq_some_unique hrow hrow'
      exact hne hpending
    · rw [Table.mem_def, hdlq] at hj
      cases hj
  · cases hp

section intent

variable {cfg : Config} {s s' : Sys} {a : Action}

/-- A booking that was given up stays settled or held. Source: `app/api/worker/allocate/route.ts`
(steps 6 and 7). Kind: L -/
theorem driven_step (hinv : Inv cfg s) (hs : Stepped cfg s a s') (hC : LeftToSweeper s a)
    (h : ∀ b, s.GaveUp b → Driven s.store b) : ∀ b, s'.GaveUp b → Driven s'.store b := by
  refine gaveUp_step hinv hs hC.1 h fun b hgave hdriven => ?_
  rcases hdriven with hsettled | hheld
  · exact .inl (hsettled.mono (hs.le hinv.store.locks).store)
  · rcases hs.store_cases with heq | ⟨x, hx, ⟨rfl, -⟩ | ⟨c, cl, call, -, rfl, -⟩⟩
    · rw [heq]
      exact .inr hheld
    · refine hheld.step hinv.store (Store.step_cases hx) ?_
      rintro i rfl hretry
      exact hC.2 b hretry hgave
    · exact hheld.step hinv.store (Store.step_cases hx) (by simp)

/-- **No lost intent.** In every run that leaves the bookings that were given up to the sweeper, at rest
and after a sweep, every booking that was answered `202` is settled or dead-lettered. Source:
`docs/FAILURE_MATRIX.md` (no lost intent), `app/api/worker/allocate/route.ts`,
`app/api/webhooks/qstash-failure/route.ts`. Kind: P -/
theorem no_lost_intent (h : Reach (step cfg) Initial LeftToSweeper s) : s.NoLostIntent := by
  have key : s.Accounted ∧ ∀ b, s.GaveUp b → Driven s.store b := by
    refine h.invariant (P := fun s => s.Accounted ∧ ∀ b, s.GaveUp b → Driven s.store b)
      (fun s hinit => ⟨hinit.accounted, fun b hgave => absurd hgave (hinit.not_gaveUp b)⟩)
      fun s a s' hreach hP hC hstep => ?_
    have hinv := inv_of_reach hreach
    have hs := step_cases hstep
    exact ⟨hP.1.step hinv hs, driven_step hinv hs hC hP.2⟩
  have hinv := inv_of_reach h
  intro hquiet hswept c req r b hcl hst hb
  obtain ⟨msg, hmem, rfl⟩ := hinv.tasks c _ hcl hst b hb
  obtain ⟨m, hmsg⟩ := List.mem_iff_getElem?.mp hmem
  rcases hquiet.no_message msg hmem with hacked | ⟨st, n, hclosed⟩
  · left
    obtain ⟨c', d, r', hcl', hm, hst'⟩ := key.1.acked m msg hmsg hacked
    obtain ⟨-, ⟨msg', hmsg', hpay⟩, hok⟩ := hinv.tasks c' _ hcl'
    rw [hm, hmsg] at hmsg'
    cases hmsg'
    rw [hpay]
    rcases hok (.inl hst') with hsettled | hexpired
    · exact hsettled
    · rcases key.2 _ ⟨c', d, _, _, hcl', rfl, beq_iff_eq.mpr hexpired⟩ with hsettled | hheld
      · exact hsettled
      · obtain ⟨seat, hseat, hp⟩ := List.any_eq_true.mp hheld
        exact absurd (Seat.heldFor_iff.mp hp).1 (hswept seat hseat)
  · right
    obtain ⟨j, hj, hjm⟩ := key.1.closed m msg st n hmsg hclosed
    have hcarries := hinv.dlqJobs j hj
    obtain ⟨msg', hmsg', hpay⟩ := hcarries
    refine ⟨j, hj, ?_, _, hinv.dlqJobs j hj⟩
    rw [hjm, hmsg] at hmsg'
    cases hmsg'
    rw [← hpay]

end intent

/-- At rest, after a sweep, and handler 0 has answered `202`. Source: none: infrastructure. Kind: D -/
def acceptedAtRest (s : Sys) : Bool :=
  s.atRest && match s.clients[(0 : ℕ)]? with
    | some ⟨.ingress _ (.respond r), .answered⟩ => r.status == 202
    | _ => false

/-- Two deliveries hold one seat when the hold runs out and is swept. The first one receives no row from
`confirm_booking`; the charge of the second one throws, and it releases the hold. Source: none:
infrastructure. Kind: D -/
def givingUp : List Action :=
  accepting ++ [.deliver 0 0, .chaos 1 none, .deliver 0 0, .chaos 2 none] ++ callReturns 1 3 1 ++
    callReturns 2 4 1 ++ callReturns 1 5 2 ++ callReturns 2 6 1 ++ [.store (.tick 400), .sweep] ++
    callReturns 3 7 3 ++ [.answer 3] ++ callReturns 1 8 2 ++ callReturns 1 9 1 ++ [.throw 2] ++
    callReturns 2 10 2 ++ [.answer 2, .refund 1] ++ callReturns 1 11 1 ++ [.answer 1]

/-- The booking that was given up is refunded and has not been lost. Source: none: infrastructure. Kind: L -/
theorem no_lost_intent_givingUp : ∃ s : Sys, s.acceptedAtRest = true ∧ s.refunds = [1] ∧ s.NoLostIntent := by
  have hrun : (run (guarded (step config) LeftToSweeper) opening givingUp).map
      (fun s => s.acceptedAtRest && s.refunds == [1]) = some true := by decide +kernel
  obtain ⟨s, hreach, hp⟩ := reach_of_guarded initial_opening hrun
  obtain ⟨hrest, hrefund⟩ := (Bool.and_eq_true _ _).mp hp
  exact ⟨s, hrest, beq_iff_eq.mp hrefund, no_lost_intent hreach⟩

end Sys

end TrainsAndTracks
