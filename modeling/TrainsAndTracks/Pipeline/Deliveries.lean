import TrainsAndTracks.Pipeline.Invariants

/-!
# One delivery at a time

`WorkerMoves` lists what a step makes of one delivery, with the branch of the handler it takes;
`Stepped.worker_cases` looks backward from a delivery after a step, `Stepped.worker_next` forward from one
before it.

A delivery gives up when `confirm_booking` returns no row: it refunds, caches `EXPIRED` and answers
200 (`GaveUp`). What is known of its booking then depends on what was known when the row was missing;
`gaveUp_step` carries a condition on that moment (`OnNull`) to every state after it.
-/

namespace TrainsAndTracks

open Found

open Store (JobOk Settled Priced PaidFor ConfirmedWith)

/-- The delivery a handler serves. Source: none: infrastructure. Kind: D -/
def Task.delivery : Task → Option Delivery
  | .worker d _ => some d
  | _ => none

/-- The points of a delivery that has given up. Source: `app/api/worker/allocate/route.ts` (step 7).
Kind: D -/
def WorkerPc.gaveUp (job : AllocateJobPayload) : WorkerPc → Bool
  | .refund _ => true
  | .commitExpired => true
  | .respond r => r == .ok (WorkerPc.expiredBody job)
  | _ => false

namespace Sys

/-- `WorkerMoves cfg s c d a pc ph pc' ph'`: what the action `a` makes of handler `c`, which serves the
delivery `d` and has reached `pc`. Source: `app/api/worker/allocate/route.ts` `handler`. Kind: D -/
inductive WorkerMoves (cfg : Config) (s : Sys) (c : ℕ) (d : Delivery) :
    Action → WorkerPc → Phase → WorkerPc → Phase → Prop
  | issue {pc ph call left} (hlive : ph.live = true)
      (hcall : pc.call cfg.holdDurationSec d.job = some call) :
      WorkerMoves cfg s c d (.issue c) pc ph pc (.waiting s.store.execs.length left)
  | again {pc i left e code} (he : s.store.execs[i]? = some e)
      (hpc : e.pc = .done (.paymentError code)) :
      WorkerMoves cfg s c d (.receive c) pc (.waiting i (left + 1)) pc (.ready (left + 1))
  | receive {pc i left e r pc'} (he : s.store.execs[i]? = some e) (hpc : e.pc = .done r)
      (hreply : WorkerPc.Replied d.retried d.job s.store.now pc r pc') :
      WorkerMoves cfg s c d (.receive c) pc (.waiting i left) pc' (.ready pc'.attempts)
  | throw {pc ph call} (hlive : ph.live = true)
      (hcall : pc.call cfg.holdDurationSec d.job = some call) :
      WorkerMoves cfg s c d (.throw c) pc ph (pc.onThrow d.retried)
        (.ready (pc.onThrow d.retried).attempts)
  | parsed {ph} (hlive : ph.live = true) :
      WorkerMoves cfg s c d (.chaos c none) .chaosGate ph (.parse d.job)
        (.ready (WorkerPc.parse d.job).attempts)
  | chaos {ph mode answer} (hlive : ph.live = true) (hanswer : answer.status = 500) :
      WorkerMoves cfg s c d (.chaos c (some mode)) .chaosGate ph (.respond answer) (.ready 1)
  | refund {p ph} (hlive : ph.live = true) :
      WorkerMoves cfg s c d (.refund c) (.refund p) ph .commitExpired (.ready 1)
  | answer {r ph} (hlive : ph.live = true) :
      WorkerMoves cfg s c d (.answer c) (.respond r) ph (.respond r) .answered
  | crash {pc ph} (hlive : ph.live = true) : WorkerMoves cfg s c d (.crash c) pc ph pc .crashed

section moves

variable {cfg : Config} {s s' : Sys} {a : Action} {c : ℕ} {d : Delivery} {pc pc' : WorkerPc}
variable {ph ph' : Phase} {cl cl' : Client}

/-- A delivery stays a delivery, and takes a branch of the handler.
Source: `app/api/worker/allocate/route.ts` `handler`. Kind: L -/
theorem Moves.worker (h : Moves cfg s c a ⟨.worker d pc, ph⟩ cl') :
    ∃ pc' ph', cl' = ⟨.worker d pc', ph'⟩ ∧ WorkerMoves cfg s c d a pc ph pc' ph' := by
  generalize hcl : (⟨.worker d pc, ph⟩ : Client) = cl at h
  cases h with
  | issue hlive hcall =>
    subst hcl
    exact ⟨pc, _, rfl, .issue hlive hcall⟩
  | again he hpc =>
    cases hcl
    exact ⟨pc, _, rfl, .again he hpc⟩
  | receive he hpc ht =>
    cases hcl
    obtain ⟨pc', hpc', rfl⟩ := Option.map_eq_some_iff.mp ht
    exact ⟨pc', _, rfl, .receive he hpc (WorkerPc.replied hpc')⟩
  | go hlive hgoes =>
    subst hcl
    generalize ht : (Client.mk (.worker d pc) ph).task = t at hgoes
    cases hgoes with
    | throw hcall =>
      subst ht
      exact ⟨_, _, rfl, .throw hlive hcall⟩
    | gate => cases ht
    | published hjob | publishLost hjob | publishFailed hjob =>
      subst ht
      cases hjob
    | chaosPassed =>
      cases ht
      exact ⟨_, _, rfl, .parsed hlive⟩
    | chaosFailed hanswer =>
      cases ht
      exact ⟨_, _, rfl, .chaos hlive hanswer⟩
  | refund hlive =>
    cases hcl
    exact ⟨_, _, rfl, .refund hlive⟩
  | answer hlive hst =>
    subst hcl
    cases pc with
    | respond r => exact ⟨_, _, rfl, .answer hlive⟩
    | _ => cases hst
  | crash hlive =>
    subst hcl
    exact ⟨pc, _, rfl, .crash hlive⟩

/-- A handler serves one delivery. Source: none: infrastructure. Kind: L -/
theorem Goes.delivery {t t' : Task} {job : Option AllocateJobPayload}
    (h : Goes cfg c a t t' job) : t'.delivery = t.delivery := by
  have hthrow : ∀ t : Task, t.onThrow.delivery = t.delivery := by
    intro t
    cases t <;> rfl
  cases h with
  | throw | publishLost | publishFailed => exact hthrow _
  | published hjob => rcases publishing_cases hjob with ⟨req, rfl⟩ | ⟨id, rfl⟩ <;> rfl
  | gate | chaosPassed | chaosFailed => rfl

/-- A handler serves one delivery. Source: none: infrastructure. Kind: L -/
theorem Moves.delivery (h : Moves cfg s c a cl cl') : cl'.task.delivery = cl.task.delivery := by
  cases h with
  | @receive t i left e r t' he hpc ht =>
    cases t <;> obtain ⟨pc', -, rfl⟩ := Option.map_eq_some_iff.mp ht <;> rfl
  | go hlive hgoes => exact hgoes.delivery
  | issue | again | refund | answer | crash => rfl

/-- What is a delivery after a step of its own was one before. Source: none: infrastructure.
Kind: L -/
theorem Moves.of_worker (h : Moves cfg s c a cl ⟨.worker d pc', ph'⟩) :
    ∃ pc ph, cl = ⟨.worker d pc, ph⟩ ∧ WorkerMoves cfg s c d a pc ph pc' ph' := by
  have hd : cl.task.delivery = some d := h.delivery.symm
  obtain ⟨t, ph⟩ := cl
  cases t with
  | worker d₀ pc =>
    cases hd
    obtain ⟨pc₁, ph₁, heq, hmove⟩ := h.worker
    cases heq
    exact ⟨pc, ph, rfl, hmove⟩
  | _ => cases hd

/-- **A delivery after a step** is as it was, the one that moved, or has just started.
Source: none: infrastructure. Kind: L -/
theorem Stepped.worker_cases (hs : Stepped cfg s a s')
    (h : s'.clients[c]? = some ⟨.worker d pc', ph'⟩) :
    (s.clients[c]? = some ⟨.worker d pc', ph'⟩ ∧ a.client ≠ some c) ∨
    (∃ pc ph, s.clients[c]? = some ⟨.worker d pc, ph⟩ ∧ WorkerMoves cfg s c d a pc ph pc' ph') ∨
    (c = s.clients.length ∧ pc' = .chaosGate) := by
  rcases hs.client_cases h with ⟨cl, hcl, ⟨rfl, ha⟩ | hm⟩ | ⟨hc, t, ht, heq⟩
  · exact .inl ⟨hcl, ha⟩
  · obtain ⟨pc, ph, rfl, hmove⟩ := hm.of_worker
    exact .inr (.inl ⟨pc, ph, hcl, hmove⟩)
  · refine .inr (.inr ⟨hc, ?_⟩)
    cases ht <;> cases heq
    rfl

/-- **A delivery before a step** stays as it is or moves. Source: none: infrastructure. Kind: L -/
theorem Stepped.worker_next (hs : Stepped cfg s a s') (h : s.clients[c]? = some ⟨.worker d pc, ph⟩) :
    (s'.clients[c]? = some ⟨.worker d pc, ph⟩ ∧ a.client ≠ some c) ∨
    ∃ pc' ph', s'.clients[c]? = some ⟨.worker d pc', ph'⟩ ∧ WorkerMoves cfg s c d a pc ph pc' ph' := by
  obtain ⟨cl', hcl', ⟨rfl, ha⟩ | hm⟩ := hs.client_next h
  · exact .inl ⟨hcl', ha⟩
  · obtain ⟨pc', ph', rfl, hmove⟩ := hm.worker
    exact .inr ⟨pc', ph', hcl', hmove⟩

end moves

/-! ## Giving up -/

/-- The booking of a delivery whose `confirm_booking` has returned no row. Source:
`app/api/worker/allocate/route.ts` (step 7). Kind: D -/
def nullConfirm (s : Sys) (c : ℕ) : Option BookingId :=
  match s.clients[c]? with
  | some ⟨.worker d (.confirm ..), .waiting i _⟩ =>
    match s.store.execs[i]? with
    | some ⟨_, _, _, .done (.confirmed none)⟩ => some d.job.bookingId
    | _ => none
  | _ => none

/-- A step that is not the receipt of a missing row, or finds the booking as `Q` says.
Source: `app/api/worker/allocate/route.ts` (step 7). Kind: D -/
def OnNull (Q : Store → BookingId → Prop) (s : Sys) : Action → Prop
  | .receive c => ∀ b ∈ s.nullConfirm c, Q s.store b
  | _ => True

instance (Q : Store → BookingId → Prop) [∀ σ b, Decidable (Q σ b)] (s : Sys) (a : Action) :
    Decidable (OnNull Q s a) :=
  match a with
  | .receive c => inferInstanceAs (Decidable (∀ b ∈ s.nullConfirm c, Q s.store b))
  | .store _ | .post _ | .deliver .. | .failureCallback _ | .retryDlq _ | .sweep | .issue _
  | .throw _ | .gate .. | .publish .. | .chaos .. | .refund _ | .answer _ | .crash _ =>
    .isTrue trivial

/-- Some delivery of the booking has given up. Source: `app/api/worker/allocate/route.ts` (step 7).
Kind: D -/
def GaveUp (s : Sys) (b : BookingId) : Prop :=
  ∃ (c : ℕ) (d : Delivery) (pc : WorkerPc) (ph : Phase),
    s.clients[c]? = some ⟨.worker d pc, ph⟩ ∧ d.job.bookingId = b ∧ pc.gaveUp d.job = true

section gaveUp

variable {cfg : Config} {s s' : Sys} {a : Action} {c : ℕ} {d : Delivery} {pc pc' : WorkerPc}
variable {ph ph' : Phase}

/-- The answers of the other branches are not the answer of a lost hold. Source:
`app/api/worker/allocate/route.ts`. Kind: L -/
theorem ne_expiredBody {job : AllocateJobPayload} {r : WorkerResponse} (h : r.status ≠ 200) :
    r ≠ .ok (WorkerPc.expiredBody job) := by
  rintro rfl
  exact h rfl

/-- **A delivery gives up when it learns that the row is missing.** Source:
`app/api/worker/allocate/route.ts` (step 7). Kind: L -/
theorem WorkerMoves.gaveUp (h : WorkerMoves cfg s c d a pc ph pc' ph')
    (hok : WorkerOk s.store d.job pc) (hcl : s.clients[c]? = some ⟨.worker d pc, ph⟩)
    (hg : pc'.gaveUp d.job = true) :
    pc.gaveUp d.job = true ∨ (a = .receive c ∧ s.nullConfirm c = some d.job.bookingId) := by
  cases h with
  | issue | again | answer | crash => exact .inl hg
  | @receive _ i left e r _ he hpc hreply =>
    cases hreply with
    | holdLost =>
      obtain ⟨call, client, now, epc⟩ := e
      cases hpc
      exact .inr ⟨rfl, by simp [nullConfirm, hcl, he]⟩
    | expiredCommitted => exact .inl rfl
    | @refused price seat code =>
      simp only [WorkerPc.onPaymentError] at hg
      split at hg <;> cases hg
    | failedCommitted =>
      exact absurd (beq_iff_eq.mp hg) (ne_expiredBody (by rw [hok.1]; decide))
    | retryReleased =>
      exact absurd (beq_iff_eq.mp hg)
        (ne_expiredBody (by rw [show WorkerResponse.status _ = 500 from hok]; decide))
    | noBooking | terminal | soldOutCommitted | confirmedCommitted =>
      exact absurd (beq_iff_eq.mp hg) (by simp [WorkerPc.expiredBody, WorkerPc.soldOutBody,
        WorkerPc.confirmedBody])
    | _ => cases hg
  | throw hlive hcall =>
    cases pc with
    | charge =>
      simp only [WorkerPc.onThrow, WorkerPc.onOtherError] at hg
      split at hg <;> cases hg
    | _ => cases hg
  | parsed =>
    simp only [WorkerPc.parse] at hg
    split at hg <;> cases hg
  | chaos hlive hanswer =>
    exact absurd (beq_iff_eq.mp hg) (ne_expiredBody (by rw [hanswer]; decide))
  | refund => exact .inl rfl

/-- **What held when a row was missing holds from then on**, if the steps keep it of bookings given up.
Source: `app/api/worker/allocate/route.ts` (step 7). Kind: L -/
theorem gaveUp_step {Q : Store → BookingId → Prop} (hinv : Inv cfg s) (hs : Stepped cfg s a s')
    (hC : OnNull Q s a) (h : ∀ b, s.GaveUp b → Q s.store b)
    (hkeep : ∀ b, s.GaveUp b → Q s.store b → Q s'.store b) : ∀ b, s'.GaveUp b → Q s'.store b := by
  rintro b ⟨c, d, pc', ph', hcl', rfl, hg⟩
  have hold : s.GaveUp d.job.bookingId → Q s'.store d.job.bookingId :=
    fun hgave => hkeep _ hgave (h _ hgave)
  rcases hs.worker_cases hcl' with ⟨hcl, -⟩ | ⟨pc, ph, hcl, hmove⟩ | ⟨-, rfl⟩
  · exact hold ⟨c, d, pc', ph', hcl, rfl, hg⟩
  · rcases hmove.gaveUp (hinv.tasks c _ hcl).2.2 hcl hg with hgave | ⟨rfl, hnull⟩
    · exact hold ⟨c, d, pc, ph, hcl, rfl, hgave⟩
    · rw [hs.store_of_client (c := c) rfl (by simp)]
      exact hC _ hnull
  · cases hg

/-- Nothing is given up at the start. Source: none: infrastructure. Kind: L -/
theorem Initial.not_gaveUp (h : Initial s) (b : BookingId) : ¬ s.GaveUp b := by
  rintro ⟨c, d, pc, ph, hcl, -⟩
  rw [h.no_clients] at hcl
  cases hcl

end gaveUp

end Sys

end TrainsAndTracks
