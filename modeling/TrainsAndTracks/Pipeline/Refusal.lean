import TrainsAndTracks.Pipeline.Responses
import TrainsAndTracks.Pipeline.Verdicts

/-!
# Refused publications

When `publishAllocateJob` throws, the ingress fails the booking and stores a `502`, each in a statement of
its own, and answers `502`. The broker may have taken the message all the same.

* `RefusedStay` — what the client is told: the booking is not confirmed, and at rest it is failed and its
  key answers `502`.
* `confirmed_refusal` — the delivery of the message confirms the booking before it is failed.
* `Store.Unraced` — the booking is failed before it ends otherwise, and no response is written over the
  `502`.
* `refused_stay` — in such runs refusals stay.
-/

namespace TrainsAndTracks

open Found

open Store (JobOk)

namespace Store

/-! ## The two statements of the branch -/

/-- The booking has failed. Source: `app/api/book/route.ts` (publish-failure branch). Kind: D -/
def Failed (σ : Store) (b : BookingId) : Prop :=
  ∃ r, σ.bookings.committed.find? b = some r ∧ r.status = .failed

/-- The key answers `502`. Source: `app/api/book/route.ts` (publish-failure branch). Kind: D -/
def Refused (σ : Store) (k : IdempotencyKey) : Prop :=
  ∃ row body, σ.idempotencyKeys.find? k = some row ∧ row.responseStatus = some 502 ∧
    row.responseBody = some body

/-- The booking that execution `i` is about to fail. Source: `app/api/book/route.ts` (publish-failure
branch). Kind: D -/
def failing (σ : Store) (i : ℕ) : Option BookingId :=
  match σ.execs[i]? with
  | some ⟨.failUnpublished b, _, _, .start⟩ => some b
  | _ => none

/-- The `UPDATE` of the publish-failure branch finds its booking `PENDING` or `FAILED`, and no other
response is written over a stored `502`. Source: `app/api/book/route.ts` (publish-failure branch),
migration `150_fn_write_idempotency_response`. Kind: D -/
def Unraced (σ : Store) : Action → Prop
  | .exec i _ =>
    (∀ b ∈ σ.failing i, ∀ r ∈ σ.bookings.committed.rows, r.id = b →
      r.status = .pending ∨ r.status = .failed) ∧
    ∀ w ∈ σ.writing i, ∀ row ∈ σ.idempotencyKeys.find? w.2.1, row.responseStatus = some 502 →
      w.2.2.1 = 502
  | _ => True

instance (σ : Store) (a : Action) : Decidable (Unraced σ a) :=
  match a with
  | .exec i _ => inferInstanceAs (Decidable (
    (∀ b ∈ σ.failing i, ∀ r ∈ σ.bookings.committed.rows, r.id = b →
      r.status = .pending ∨ r.status = .failed) ∧
    ∀ w ∈ σ.writing i, ∀ row ∈ σ.idempotencyKeys.find? w.2.1, row.responseStatus = some 502 →
      w.2.2.1 = 502))
  | .begin .. | .start _ | .commit _ | .abort _ | .tick _ => .isTrue trivial

/-- What the `UPDATE` of the publish-failure branch has established at `pc`. Source:
`app/api/book/route.ts` (publish-failure branch). Kind: D -/
structure FailedBy (σ : Store) (i : ℕ) (b : BookingId) (pc : Pc) : Prop where
  locked : ∀ reply, pc = .ret reply → σ.Failed b ∨ ∃ r w, σ.bookings.committed.find? b = some r ∧
    σ.bookings.lock b = some (i, w) ∧ w.status = .failed
  failed : ∀ reply, pc = .done reply → σ.Failed b

section refusals

variable {σ σ' : Store} {a : Action} {i : ℕ} {b : BookingId} {k : IdempotencyKey}

/-- A failed booking stays failed. Source: migration `060_bookings`. Kind: L -/
theorem Failed.mono (hle : Le σ σ') (h : σ.Failed b) : σ'.Failed b := by
  obtain ⟨r, hr, hst⟩ := h
  exact ⟨r, hle.settled hr (by rw [hst]; simp), hst⟩

/-- The booking the statement fails is the one it was to fail. Source: `app/api/book/route.ts`
(publish-failure branch). Kind: L -/
theorem Runs.of_failUnpublished {client : ℕ} {now : Time} {pc next : Pc} {us : Update Seat}
    {ub : Update Booking} (he : σ.execs[i]? = some ⟨.failUnpublished b, client, now, pc⟩)
    (h : Runs σ i now (.failUnpublished b) pc (.update us ub next)) :
    σ.failing i = some b ∧ ub = failRowUpdate b "upstream_publish_failure" ∧ next = .ret .unit := by
  cases h with
  | failUnpublished => exact ⟨by simp [failing, he], rfl, rfl⟩
  | releaseSeatsOnly hrel | releaseSeatsThenRow hrel | releaseRow hrel => cases hrel

/-- **The publish-failure branch fails its booking** when it finds it `PENDING` or `FAILED`. Source:
`app/api/book/route.ts` (publish-failure branch). Kind: L -/
theorem Stepped.failedBy (hl : LocksOk σ) (hinf : Informed σ) (hs : Stepped σ a σ')
    (hC : Unraced σ a)
    (h : ∀ (i : ℕ) (e : Exec), σ.execs[i]? = some e → ∀ b, e.call = .failUnpublished b →
      FailedBy σ i b e.pc) :
    ∀ (i : ℕ) (e : Exec), σ'.execs[i]? = some e → ∀ b, e.call = .failUnpublished b →
      FailedBy σ' i b e.pc := by
  refine hs.forall_execs (P := fun σ i e => ∀ b, e.call = .failUnpublished b → FailedBy σ i b e.pc) h
    ?_ ?_ ?_ ?_ ?_ ?_
  · intro i e ha he hP b hcall
    refine ⟨fun reply hpc => ?_, fun reply hpc => ((hP b hcall).failed reply hpc).mono (hs.le hl)⟩
    rcases (hP b hcall).locked reply hpc with hfailed | ⟨r, w, hr, hlock, hw⟩
    · exact .inl (hfailed.mono (hs.le hl))
    · obtain ⟨r', hr'⟩ := hs.booking_stays hr
      exact .inr ⟨r', w, hr', (hs.booking_lock_iff ha).mpr hlock, hw⟩
  · intro i e he hpc b hcall
    exact ⟨fun reply h => absurd (.inl h) (not_returned hpc reply),
      fun reply h => absurd (.inr h) (not_returned hpc reply)⟩
  · intro i e next _ _ he hP hr b hcall
    rw [show e.call = .failUnpublished b from hcall] at hr
    generalize e.pc = pc at hr
    cases hr with
    | releaseSnapshot hrel => cases hrel
  · intro i e us ub next seats bookings ch ha he hP hr _ hbookings b hcall
    obtain ⟨call, client, now, pc⟩ := e
    obtain rfl : call = .failUnpublished b := hcall
    obtain ⟨hfailing, rfl, rfl⟩ := hr.of_failUnpublished he
    refine ⟨fun reply _ => ?_, by simp⟩
    obtain ⟨r, hr⟩ : ∃ r, σ.bookings.committed.find? b = some r := hinf i _ he
    have hid : r.id = b := Table.key_of_find? hr
    have hr' := hr
    rw [← Versioned.update_committed hbookings] at hr'
    subst ha
    rcases hC.1 b hfailing r (Table.mem_of_find? hr) hid with hst | hst
    · exact .inr ⟨r, _, hr', Versioned.lock_update_of_cond hbookings hr
        (by simp [failRowUpdate, hid, hst]), rfl⟩
    · exact .inl ⟨r, hr', hst⟩
  · intro i e r he hP hpc _ hbookings hs b hcall
    refine ⟨by simp, fun _ _ => ?_⟩
    rcases (hP b hcall).locked r hpc with hfailed | ⟨row, w, hrow, hlock, hw⟩
    · exact hfailed.mono (hs.le hl)
    · exact ⟨w, by rw [hbookings, Versioned.find?_commit_of_own hrow hlock], hw⟩
  · intro i e st he hP hr hst _ _ _ _ b hcall
    have hnone := hr.fails_of_alone hst
    rw [show e.call = .failUnpublished b from hcall] at hnone
    cases hnone

/-- A stored `502` stays. Source: migration `150_fn_write_idempotency_response`. Kind: L -/
theorem Refused.step (hs : Stepped σ a σ') (hC : Unraced σ a) (h : σ.Refused k) : σ'.Refused k := by
  obtain ⟨row, body, hrow, hst, hbody⟩ := h
  obtain ⟨row', hrow', rfl | ⟨i, ch, e, st₁, body₁, rfl, he, hpc, hcall, rfl⟩⟩ := key_next hs hrow
  · exact ⟨row', body, hrow', hst, hbody⟩
  · obtain rfl : st₁ = 502 := hC.2 _ (writing_of_exec he hpc hcall) row hrow hst
    exact ⟨_, body₁, hrow', rfl, rfl⟩

/-- A response that has been written by a step was written before, or is stored now. Source: migration
`150_fn_write_idempotency_response`. Kind: L -/
theorem Stepped.written (hs : Stepped σ a σ') {e' : Exec} {st : ℕ} {body : CachedBody}
    {row : IdempotencyRow} (hrow : σ.idempotencyKeys.find? k = some row)
    (he' : σ'.execs[i]? = some e') (hcall : e'.call = .writeIdempotencyResponse k st body)
    (hpc : ∃ r, e'.pc = .ret r ∨ e'.pc = .done r) :
    (∃ e : Exec, σ.execs[i]? = some e ∧ e.call = e'.call ∧ ∃ r, e.pc = .ret r ∨ e.pc = .done r) ∨
    σ'.idempotencyKeys.find? k = some (answeredRow row st body) := by
  obtain ⟨r, hpc⟩ := hpc
  rcases hs.exec_new he' with ⟨e, he⟩ | ⟨_, _, -, -, rfl⟩
  · obtain ⟨e₁, he₁, hsame, -⟩ := hs.exec_old he
    obtain rfl := Option.eq_some_unique he' he₁
    by_cases ha : a.actor = some i
    · rcases hs.exec_moved ha he he' with ⟨-, h⟩ | ⟨ch, st', rfl, hr, h⟩ | ⟨h, -, -⟩ | ⟨r', hret, -⟩
      · rw [h] at hpc
        rcases hpc with h | h <;> cases h
      · exact .inr (hs.key_answered he (hsame.symm.trans hcall) hrow)
      · rw [h] at hpc
        rcases hpc with h | h <;> cases h
      · exact .inl ⟨e, he, hsame.symm, r', .inl hret⟩
    · have heq := hs.exec_of_ne ha he
      obtain rfl := Option.eq_some_unique he' heq
      exact .inl ⟨e', he, rfl, r, hpc⟩
  · rcases hpc with h | h <;> cases h

end refusals

end Store

/-- The publish-failure branch, past the publication. Source: `app/api/book/route.ts` (publish-failure
branch). Kind: D -/
def Task.rollsBack : Task → Bool
  | ingress _ (.rollback _) | ingress _ (.commitRefused _) => true
  | _ => false

namespace Sys

/-! ## Refusals in the pipeline -/

/-- The two statements of the publish-failure branch do not throw. Source: `app/api/book/route.ts`
(publish-failure branch). Kind: D -/
def RollbackSucceeds (s : Sys) : Action → Prop
  | .throw c => (s.clients[c]?).any (·.task.rollsBack) = false
  | _ => True

instance (s : Sys) (a : Action) : Decidable (RollbackSucceeds s a) :=
  match a with
  | .throw c => inferInstanceAs (Decidable ((s.clients[c]?).any (·.task.rollsBack) = false))
  | .store _ | .post _ | .deliver .. | .failureCallback _ | .retryDlq _ | .sweep | .issue _
  | .receive _ | .gate .. | .publish .. | .chaos .. | .refund _ | .answer _ | .crash _ =>
    .isTrue trivial

/-- The steps of a run whose refusals stay. Source: `app/api/book/route.ts` (publish-failure branch).
Kind: D -/
def RefusesCleanly (s : Sys) (a : Action) : Prop :=
  RollbackSucceeds s a ∧ OnStore Store.Unraced s a

instance (s : Sys) (a : Action) : Decidable (RefusesCleanly s a) :=
  inferInstanceAs (Decidable (_ ∧ _))

/-- A refused publication stays refused: the booking of a request that was answered `502` is not
confirmed, and at rest it is failed and a `POST` with its key and its body is answered `502`. Source:
`app/api/book/route.ts` (publish-failure branch), `docs/FAILURE_MATRIX.md`. Kind: D -/
def RefusedStay (cfg : Config) (s : Sys) : Prop :=
  ∀ (c : ℕ) req, s.clients[c]? =
      some ⟨.ingress req (.respond (.error 502 "upstream_failure")), .answered⟩ →
    ∃ k, req.idempotencyKey = some k ∧
      (∀ b r, s.store.bookings.committed.find? b = some r → r.idempotencyKey = k →
        r.status ≠ .confirmed) ∧
      (s.Quiescent →
        (∃ b r, s.store.bookings.committed.find? b = some r ∧ r.idempotencyKey = k ∧
          r.status = .failed) ∧
        ∀ row req' body, s.store.idempotencyKeys.find? k = some row →
          cfg.requestHash body = row.requestHash →
          ∃ cached, s.replay cfg k req' body = some (.replay 502 cached))

/-- What a refused request knows. Source: `app/api/book/route.ts` (publish-failure branch). Kind: D -/
def RefusalOk (s : Sys) : Task → Prop
  | .ingress _ (.commitRefused job) => s.store.Failed job.bookingId
  | .ingress req (.respond resp) => resp = .error 502 "upstream_failure" →
    ∃ k, req.idempotencyKey = some k ∧ s.store.Refused k ∧
      ∃ b r, s.store.bookings.committed.find? b = some r ∧ r.idempotencyKey = k ∧ r.status = .failed
  | _ => True

/-- What the publish-failure branch has established. Source: `app/api/book/route.ts` (publish-failure
branch). Kind: D -/
structure Refusals (s : Sys) : Prop where
  failed : ∀ (i : ℕ) (e : Exec), s.store.execs[i]? = some e → ∀ b, e.call = .failUnpublished b →
    s.store.FailedBy i b e.pc
  refused : ∀ (i : ℕ) (e : Exec) k body, s.store.execs[i]? = some e →
    e.call = .writeIdempotencyResponse k 502 body → (∃ r, e.pc = .ret r ∨ e.pc = .done r) →
    s.store.Refused k
  tasks : ∀ (c : ℕ) (cl : Client), s.clients[c]? = some cl → s.RefusalOk cl.task

section refusals

variable {cfg : Config} {s s' : Sys} {a : Action} {c : ℕ} {k : IdempotencyKey}

/-- A stored `502` stays. Source: migration `150_fn_write_idempotency_response`. Kind: L -/
theorem refused_step (hs : Stepped cfg s a s') (hC : OnStore Store.Unraced s a)
    (h : s.store.Refused k) : s'.store.Refused k := by
  rcases hs.store_cases with heq | ⟨x, hx, ⟨rfl, -⟩ | ⟨_, _, _, -, rfl, -⟩⟩
  · rw [heq]
    exact h
  · exact h.step (Store.step_cases hx) hC
  · exact h.step (Store.step_cases hx) trivial

/-- What a refused request knows stays true. Source: none: infrastructure. Kind: L -/
theorem RefusalOk.mono (hinv : Inv cfg s) (hs : Stepped cfg s a s') (hC : OnStore Store.Unraced s a)
    {t : Task} (h : s.RefusalOk t) : s'.RefusalOk t := by
  have hle := (hs.le hinv.store.locks).store
  cases t with
  | ingress req pc =>
    cases pc with
    | commitRefused job => exact Store.Failed.mono hle h
    | respond resp =>
      intro hresp
      obtain ⟨k, hk, hrefused, b, r, hr, hrk, hst⟩ := h hresp
      have hr' := hle.settled hr (by rw [hst]; simp)
      exact ⟨k, hk, refused_step hs hC hrefused, b, r, hr', hrk, hst⟩
    | _ => trivial
  | _ => trivial

/-- A request is refused once its booking has failed and the `502` is stored. Source:
`app/api/book/route.ts` (publish-failure branch). Kind: L -/
theorem RefusalOk.onReply (hinv : Inv cfg s) (hok : VerdictsOk cfg s) (h : Refusals s)
    {i left : ℕ} {t t' : Task} {e : Exec} {r : Reply}
    (hcl : s.clients[c]? = some ⟨t, .waiting i left⟩) (he : s.store.execs[i]? = some e)
    (hpc : e.pc = .done r) (ht : t.onReply cfg s.store.now r = some t') : s.RefusalOk t' := by
  obtain ⟨e', he', hcall, -⟩ := hinv.waits c t i left hcl
  obtain rfl := Option.eq_some_unique he he'
  cases t with
  | ingress req pc =>
    obtain ⟨pc', hreply, rfl⟩ := Option.map_eq_some_iff.mp ht
    cases IngressPc.replied hreply with
    | rolledBack =>
      exact (h.failed i e he _ (Option.some.inj hcall).symm).failed _ hpc
    | @refused job =>
      intro _
      obtain ⟨r, hr, hst⟩ : s.store.Failed job.bookingId := h.tasks c _ hcl
      obtain ⟨hk, -⟩ : req.idempotencyKey = some job.idempotencyKey ∧ _ := hok.tasks c _ hcl
      have hjob : JobOk s.store job := hinv.tasks c _ hcl
      obtain ⟨r', hr', hrk, -⟩ := hjob.booked
      obtain rfl := Option.eq_some_unique hr hr'
      exact ⟨_, hk, h.refused i e _ _ he (Option.some.inj hcall).symm ⟨_, .inr hpc⟩, _, r, hr, hrk, hst⟩
    | fresh | created => trivial
    | mismatch | replay | inflight | accepted => simp [RefusalOk]
  | worker | webhook | dlqRetry | sweeper =>
    obtain ⟨pc', -, rfl⟩ := Option.map_eq_some_iff.mp ht
    trivial

/-- Without the store nobody is refused unless the branch throws. Source: `app/api/book/route.ts`
`handle`. Kind: L -/
theorem refusalOk_goes {cl : Client} {t' : Task} {job : Option AllocateJobPayload}
    (hcl : s.clients[c]? = some cl) (hgoes : Goes cfg c a cl.task t' job)
    (hC : RollbackSucceeds s a) : s'.RefusalOk t' := by
  obtain ⟨t, ph⟩ := cl
  have hthrow : t.rollsBack = false → s'.RefusalOk t.onThrow := by
    intro hno
    cases t with
    | ingress req pc =>
      cases pc with
      | rollback | commitRefused => cases hno
      | _ => simp [Task.onThrow, IngressPc.onThrow, RefusalOk]
    | _ => trivial
  have hpublishing : ∀ {job}, t.publishing = some job → t.rollsBack = false := by
    intro job hjob
    cases t with
    | ingress req pc => cases pc <;> first | rfl | cases hjob
    | _ => rfl
  cases hgoes with
  | throw hcall =>
    refine hthrow ?_
    simpa [RollbackSucceeds, hcl] using hC
  | publishLost hjob | publishFailed hjob => exact hthrow (hpublishing hjob)
  | @gate req rateOk depthOk =>
    show s'.RefusalOk (.ingress req (.gate req rateOk depthOk))
    unfold IngressPc.gate
    repeat' split
    all_goals simp [RefusalOk]
  | @published t job hjob =>
    cases t with
    | ingress req pc =>
      cases pc with
      | publish => trivial
      | _ => cases hjob
    | dlqRetry id pc => cases pc <;> trivial
    | _ => trivial
  | chaosPassed | chaosFailed => trivial

/-- What the publish-failure branch has established survives a step. Source: `app/api/book/route.ts`
(publish-failure branch). Kind: L -/
theorem Refusals.step (hinv : Inv cfg s) (hok : VerdictsOk cfg s)
    (hanswers : ∀ (i : ℕ) (e : Exec), s.store.execs[i]? = some e → s.store.AnswersOk e.call)
    (h : Refusals s) (hs : Stepped cfg s a s') (hC : RefusesCleanly s a) : Refusals s' where
  failed := by
    have hl := hinv.store.locks
    rcases hs.store_cases with heq | ⟨x, hx, ⟨rfl, -⟩ | ⟨_, _, _, -, rfl, -⟩⟩
    · rw [heq]
      exact h.failed
    · exact (Store.step_cases hx).failedBy hl hinv.store.informed hC.2 h.failed
    · exact (Store.step_cases hx).failedBy hl hinv.store.informed trivial h.failed
  refused i e' k body he' hcall hpc := by
    rcases hs.store_cases with heq | ⟨x, hx, -⟩
    · rw [heq] at he'
      exact refused_step hs hC.2 (h.refused i e' k body he' hcall hpc)
    · have hstep := Store.step_cases hx
      rcases hstep.exec_new he' with ⟨e, he⟩ | ⟨_, _, -, -, rfl⟩
      · obtain ⟨e₁, he₁, hsame, -⟩ := hstep.exec_old he
        obtain rfl := Option.eq_some_unique he' he₁
        obtain ⟨-, b, r, hr, rfl⟩ :=
          Store.answersOk_of_call (hanswers i e he) (hsame.symm.trans hcall)
        obtain ⟨row, hrow⟩ := hinv.store.keyed b r hr
        rcases hstep.written hrow he' hcall hpc with ⟨e₀, he₀, hsame₀, hpc₀⟩ | hwritten
        · exact refused_step hs hC.2 (h.refused i e₀ _ body he₀ (hsame₀.trans hcall) hpc₀)
        · exact ⟨_, body, hwritten, rfl, rfl⟩
      · obtain ⟨r, hpc | hpc⟩ := hpc <;> cases hpc
  tasks := by
    refine hs.forall_clients (P := fun s _ => s.RefusalOk) h.tasks
      (fun _ _ hold => hold.mono hinv hs hC.2) (fun c t ht => ?_)
      (fun c i left t e r t' hcl he hpc ht _ =>
        (RefusalOk.onReply hinv hok h hcl he hpc ht).mono hinv hs hC.2)
      (fun c cl t' job hcl hgoes _ => ?_) fun _ _ _ _ => trivial
    · cases ht <;> trivial
    · exact refusalOk_goes (running_eq_some.mp hcl).1 hgoes hC.1

/-- Nobody is refused at first. Source: none: infrastructure. Kind: L -/
theorem Initial.refusals (h : Initial s) : Refusals s where
  failed i e he := absurd he h.store_initial.no_exec
  refused i e _ _ he := absurd he h.store_initial.no_exec
  tasks c cl hcl := by
    rw [h.no_clients] at hcl
    cases hcl

/-- **Refusals stay.** In every run in which the two statements of the publish-failure branch do not throw,
the first of them finds its booking `PENDING` or `FAILED`, and no other response is written over a
stored `502`, a refused publication stays refused. Source: `app/api/book/route.ts` (publish-failure
branch), migrations `110_fn_confirm_booking`, `150_fn_write_idempotency_response`. Kind: P -/
theorem refused_stay (h : Reach (step cfg) Initial RefusesCleanly s) : s.RefusedStay cfg := by
  have hrefusals : Refusals s := h.invariant (P := Refusals) (fun _ hinit => hinit.refusals)
    fun _ _ _ hreach hP hC hstep => hP.step (inv_of_reach hreach) (verdictsOk_of_reach hreach)
      (answersOk_of_reach hreach) (step_cases hstep) hC
  intro c req hcl
  obtain ⟨k, hk, ⟨row, cached, hrow, hst, hcached⟩, b, r, hr, hrk, hfailed⟩ :=
    hrefusals.tasks c _ hcl rfl
  refine ⟨k, hk, fun b' r' hr' hrk' hconfirmed => ?_, fun _ => ⟨⟨b, r, hr, hrk, hfailed⟩, ?_⟩⟩
  · obtain rfl := (inv_of_reach h).store.unique.bookings b b' r r' hr hr' (hrk.trans hrk'.symm)
    obtain rfl := Option.eq_some_unique hr hr'
    rw [hfailed] at hconfirmed
    cases hconfirmed
  · intro row' req' body hrow' hhash
    obtain rfl := Option.eq_some_unique hrow hrow'
    exact ⟨cached, by rw [replay_of_row hrow hhash, hst, hcached]⟩

end refusals

/-! ## The race -/

/-- Handler 0 books, up to the publication. Source: none: infrastructure. Kind: D -/
def unpublished : List Action :=
  [.post asha, .gate 0 true true] ++ callReturns 0 0 1 ++ callReturns 0 1 1

/-- The broker takes the message without acknowledging it, and its delivery confirms the booking before
the ingress fails it. Source: none: infrastructure. Kind: D -/
def overtaking : List Action :=
  unpublished ++ [.publish 0 true false, .deliver 0 0, .chaos 1 none] ++ callReturns 1 2 1 ++
    callReturns 1 3 2 ++ callReturns 1 4 2 ++ callReturns 1 5 3 ++ callReturns 1 6 1 ++ [.answer 1] ++
    callReturns 0 7 1 ++ callReturns 0 8 1 ++ [.answer 0]

/-- The first request has been answered `502`. Source: none: infrastructure. Kind: D -/
def hasRefusal (s : Sys) : Bool :=
  s.clients[0]? == some ⟨.ingress asha (.respond (.error 502 "upstream_failure")), .answered⟩

/-- The first request has been answered `502`, and its booking is `CONFIRMED`. Source: none:
infrastructure. Kind: D -/
def hasConfirmedRefusal (s : Sys) : Bool :=
  s.hasRefusal && s.store.bookings.committed.rows.any fun r =>
    r.status == .confirmed && asha.idempotencyKey == some r.idempotencyKey

/-- **A refused publication is confirmed.** In some run whose publish-failure branch does not throw, a
booking is `CONFIRMED` whose request was answered `502`. Source: `app/api/book/route.ts` (publish-failure
branch). Kind: P -/
theorem confirmed_refusal :
    ¬ ∀ s, Reach (step config) Initial RollbackSucceeds s → s.RefusedStay config := by
  intro h
  have hrun : (run (guarded (step config) RollbackSucceeds) opening overtaking).map
      hasConfirmedRefusal = some true := by decide +kernel
  obtain ⟨s, hreach, hp⟩ := reach_of_guarded initial_opening hrun
  simp only [hasConfirmedRefusal, hasRefusal, Bool.and_eq_true, beq_iff_eq, List.any_eq_true] at hp
  obtain ⟨hcl, r, hr, hst, hkey⟩ := hp
  obtain ⟨k, hk, hno, -⟩ := h s hreach 0 asha hcl
  obtain rfl := Option.some.inj (hkey.symm.trans hk)
  exact hno r.id r (Table.find?_of_mem hr) rfl hst

/-- The broker refuses the message. Source: `docs/FAILURE_MATRIX.md`. Kind: D -/
def refusing : List Action :=
  unpublished ++ [.publish 0 false false] ++ callReturns 0 2 1 ++ callReturns 0 3 1 ++ [.answer 0]

/-- A refusal that stays. Source: `docs/FAILURE_MATRIX.md`. Kind: L -/
theorem refused_stay_refusing : ∃ s : Sys, s.hasRefusal = true ∧ s.RefusedStay config := by
  have hrun : (run (guarded (step config) RefusesCleanly) opening refusing).map hasRefusal =
      some true := by decide +kernel
  obtain ⟨s, hreach, hrefusal⟩ := reach_of_guarded initial_opening hrun
  exact ⟨s, hrefusal, refused_stay hreach⟩

end Sys

end TrainsAndTracks
