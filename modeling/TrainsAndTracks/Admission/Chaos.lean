import TrainsAndTracks.Admission.SlidingLog
import TrainsAndTracks.Found.Run

/-!
# The chaos flag of the worker

`app/api/admin/kill-worker/route.ts` stores `{remaining, mode}` under `chaos:worker:fail-next` for 60
seconds; `lib/chaos/worker-gate.ts` reads the key at the top of every worker run, stores it again with
`remaining` lower by one, or deletes it, and throws. Reading and storing are two commands, and up to 50
workers run at once.

* `GatePc` — where a worker run is in `maybeInjectChaos`.
* `step` — the flag is armed or expires, a run starts, reads, stores, sleeps and throws.
* `FiresExactly` — what the counter is for: `n` failures, no more and no fewer.

`Counted` carries the results. A run between its read and its write either still holds what is stored, or
the accounts are over by one already; from the first overlap on they are over by one for good, which is
`Overrun`.
-/

namespace TrainsAndTracks.Admission

open Found

/-- How a worker run is made to fail. Source: `lib/chaos/worker-gate.ts` `ChaosState`,
`lib/validation/chaos.ts` `KillWorkerSchema`. Kind: D. Fidelity: exact -/
inductive FailureMode
  | timeout
  /-- The mode `'500'`. -/
  | status500
  | crash
deriving DecidableEq

/-- What is stored under `chaos:worker:fail-next`. Source: `lib/chaos/worker-gate.ts` `ChaosState`. Kind: D.
Fidelity: exact -/
structure ChaosState where
  remaining : ℤ
  mode : FailureMode
deriving DecidableEq

/-- The body of a request. Source: `lib/validation/chaos.ts` `KillWorkerSchema`. Kind: D -/
structure KillWorker where
  failNextN : ℤ
  failureMode : FailureMode
deriving DecidableEq

/-- The bounds of the schema. Source: `lib/validation/chaos.ts` `KillWorkerSchema`. Kind: D.
Fidelity: exact -/
def KillWorker.valid (k : KillWorker) : Bool := decide (0 < k.failNextN) && decide (k.failNextN ≤ 100)

/-- Where a worker run is. Source: `lib/chaos/worker-gate.ts` `maybeInjectChaos`. Kind: D -/
inductive GatePc
  /-- Before the `GET`. -/
  | reading
  /-- It has read a flag with failures left, and has not written it back. -/
  | writing (state : ChaosState)
  /-- The mode is `timeout`, and the 70 seconds are not over. -/
  | sleeping (mode : FailureMode)
  /-- Before the `throw`. -/
  | throwing (mode : FailureMode)
  | threw (mode : FailureMode)
  /-- No chaos: the pipeline goes on. -/
  | returned
deriving DecidableEq

namespace GatePc

/-- What the run does with what it has read: parsed by the client or given as text, it is the same flag.
Source: `lib/chaos/worker-gate.ts` `maybeInjectChaos` (`if (!state || state.remaining <= 0) return`).
Kind: D -/
def ofFlag : Option ChaosState → GatePc
  | none => .returned
  | some state => if state.remaining ≤ 0 then .returned else .writing state

/-- What the run does after its write, acknowledged or not. Source: `lib/chaos/worker-gate.ts`
`maybeInjectChaos` (`if (state.mode === 'timeout')`). Kind: D -/
def fire (state : ChaosState) : GatePc :=
  if state.mode = .timeout then .sleeping state.mode else .throwing state.mode

/-- The run is between its read and its write. Source: `lib/chaos/worker-gate.ts` `maybeInjectChaos`.
Kind: D -/
def isWriting : GatePc → Bool
  | .writing _ => true
  | .reading | .sleeping _ | .throwing _ | .threw _ | .returned => false

/-- The run has spent a failure. Source: `lib/chaos/worker-gate.ts` `maybeInjectChaos`. Kind: D -/
def hasFired : GatePc → Bool
  | .sleeping _ | .throwing _ | .threw _ => true
  | .reading | .writing _ | .returned => false

/-- `WorkerChaosError` was thrown. Source: `lib/chaos/worker-gate.ts` `maybeInjectChaos`. Kind: D -/
def hasThrown : GatePc → Bool
  | .threw _ => true
  | .reading | .writing _ | .sleeping _ | .throwing _ | .returned => false

/-- The run is past the gate, or has thrown there. Source: `lib/chaos/worker-gate.ts` `maybeInjectChaos`.
Kind: D -/
def ended : GatePc → Bool
  | .threw _ | .returned => true
  | .reading | .writing _ | .sleeping _ | .throwing _ => false

end GatePc

/-- What the run writes back: `DEL`, or `SET` with one failure fewer. Source: `lib/chaos/worker-gate.ts`
`maybeInjectChaos`. Kind: D. Fidelity: exact -/
def ChaosState.spend (state : ChaosState) : Option ChaosState :=
  if state.remaining ≤ 1 then none else some { state with remaining := state.remaining - 1 }

/-- The key and the worker runs. Source: `lib/chaos/worker-gate.ts` `maybeInjectChaos`. Kind: D -/
structure Gate where
  /-- What is stored under `chaos:worker:fail-next`. -/
  failNext : Option ChaosState
  runs : List GatePc
deriving DecidableEq

namespace Gate

/-- The steps of the worker runs, and of who arms the flag. Source: `lib/chaos/worker-gate.ts`
`maybeInjectChaos`, `app/api/admin/kill-worker/route.ts` `POST`. Kind: D -/
inductive Action
  /-- A request that `requireAdmin` lets through. -/
  | killWorker (k : KillWorker)
  /-- The 60 seconds of the key are over. -/
  | expire
  /-- A worker run begins. -/
  | invoke
  | get (n : ℕ) (transport : Transport)
  /-- `SET` or `DEL`. -/
  | write (n : ℕ) (transport : Transport)
  | wake (n : ℕ)
  | raise (n : ℕ)

/-- Run `n` goes on to `pc`. Source: none: bookkeeping. Kind: D -/
def goto (w : Gate) (n : ℕ) (pc : GatePc) : Gate := { w with runs := w.runs.set n pc }

/-- The flag is set. Source: `app/api/admin/kill-worker/route.ts` `POST`. Kind: D -/
def arm (w : Gate) (k : KillWorker) : Gate := { w with failNext := some ⟨k.failNextN, k.failureMode⟩ }

/-- One step. Source: `lib/chaos/worker-gate.ts` `maybeInjectChaos`. Kind: D -/
def step (w : Gate) : Action → Option Gate
  | .killWorker k => if k.valid then some (w.arm k) else none
  | .expire => some { w with failNext := none }
  | .invoke => some { w with runs := w.runs ++ [.reading] }
  | .get n transport =>
    match w.runs[n]? with
    | some .reading =>
      match transport with
      | .answered => some (w.goto n (GatePc.ofFlag w.failNext))
      -- `chaos_flag_read_failed`: no chaos.
      | .refused | .lost => some (w.goto n .returned)
    | _ => none
  | .write n transport =>
    match w.runs[n]? with
    | some (.writing state) =>
      match transport with
      | .answered | .lost => some ({ w with failNext := state.spend }.goto n (GatePc.fire state))
      -- `chaos_flag_write_failed`: it fires all the same.
      | .refused => some (w.goto n (GatePc.fire state))
    | _ => none
  | .wake n =>
    match w.runs[n]? with
    | some (.sleeping mode) => some (w.goto n (.throwing mode))
    | _ => none
  | .raise n =>
    match w.runs[n]? with
    | some (.throwing mode) => some (w.goto n (.threw mode))
    | _ => none

/-- The failures that are left; none for an absent key. Source: `lib/chaos/worker-gate.ts`
`maybeInjectChaos`. Kind: D -/
def remaining (w : Gate) : ℤ := (w.failNext.map ChaosState.remaining).getD 0

/-- How many runs have thrown. Source: `lib/chaos/worker-gate.ts` `maybeInjectChaos`. Kind: D -/
def thrown (w : Gate) : ℕ := w.runs.countP GatePc.hasThrown

/-- How many runs have spent a failure. Source: `lib/chaos/worker-gate.ts` `maybeInjectChaos`. Kind: D -/
def fired (w : Gate) : ℕ := w.runs.countP GatePc.hasFired

/-- `n` failures are armed, and no worker has run since. Source: `app/api/admin/kill-worker/route.ts`
`POST`. Kind: D -/
def Armed (n : ℕ) (mode : FailureMode) (w : Gate) : Prop :=
  ∃ w₀ : Gate, w₀.runs = [] ∧ w = w₀.arm ⟨n, mode⟩

/-- No error of Redis, no expiry, and the flag is not armed again. Source: `lib/chaos/worker-gate.ts`
`maybeInjectChaos`. Kind: D -/
def Undisturbed : Action → Prop
  | .killWorker _ | .expire => False
  | .get _ transport | .write _ transport => transport = .answered
  | .invoke | .wake _ | .raise _ => True

/-- No run reads the flag while another one is between its read and its write. Source:
`lib/chaos/worker-gate.ts` `maybeInjectChaos`. Kind: D -/
def Serial (w : Gate) : Action → Prop
  | .get _ _ => ∀ pc ∈ w.runs, pc.isWriting = false
  | _ => True

instance (a : Action) : Decidable (Undisturbed a) := by
  unfold Undisturbed
  split <;> infer_instance

instance (w : Gate) (a : Action) : Decidable (Serial w a) := by
  unfold Serial
  split <;> infer_instance

/-- Once the runs have ended, as many have thrown as were armed, or all of them when there were fewer, and
the flag says how many are left. Source: `app/api/admin/kill-worker/route.ts` `POST` (`willFailNextN`).
Kind: D -/
def FiresExactly (n : ℕ) (w : Gate) : Prop :=
  (∀ pc ∈ w.runs, pc.ended = true) → w.thrown = min n w.runs.length ∧ w.remaining = n - w.thrown

instance (n : ℕ) (w : Gate) : Decidable (FiresExactly n w) := by
  unfold FiresExactly
  infer_instance

/-! ## Two runs that read the same flag -/

/-- The flag as a request for one failure leaves it. Source: none: infrastructure. Kind: D -/
def armedOnce : Gate := arm ⟨none, []⟩ ⟨1, .status500⟩

/-- Both runs read before either deletes the key. Source: none: infrastructure. Kind: D -/
def overlapping : List Action :=
  [.invoke, .invoke, .get 0 .answered, .get 1 .answered, .write 0 .answered, .write 1 .answered,
    .raise 0, .raise 1]

/-- **One failure too many.** Armed for one failure, two worker runs throw: nothing stands between the read
and the write of the counter. Source: `lib/chaos/worker-gate.ts` `maybeInjectChaos`. Kind: P -/
theorem fires_twice : ¬ ∀ (n : ℕ) (mode : FailureMode) (w : Gate), 1 ≤ n →
    Reach step (Armed n mode) (fun _ => Undisturbed) w → FiresExactly n w := by
  intro h
  have harmed : Armed 1 .status500 armedOnce := ⟨⟨none, []⟩, rfl, rfl⟩
  have hrun : (run (guarded step fun _ => Undisturbed) armedOnce overlapping).map
      (fun w => decide (¬ FiresExactly 1 w)) = some true := by decide
  obtain ⟨w, hw, hbad⟩ := reach_of_guarded harmed hrun
  exact of_decide_eq_true hbad (h 1 .status500 w le_rfl hw)

/-! ## What a step does to the accounts -/

section counts

variable {w w' : Gate} {n i : ℕ} {a : Action} {pc old : GatePc} {state : ChaosState} {mode : FailureMode}

/-- The runs after one of them has gone on. Source: none: bookkeeping. Kind: L -/
theorem mem_goto (h : pc ∈ (w.goto i old).runs) : pc ∈ w.runs ∨ pc = old :=
  List.mem_or_eq_of_mem_set h

/-- How many runs have a property after one of them has gone on. Source: none: bookkeeping. Kind: L -/
theorem countP_goto (p : GatePc → Bool) (pc : GatePc) (h : w.runs[i]? = some old) :
    (w.goto i pc).runs.countP p + (if p old then 1 else 0) = w.runs.countP p + if p pc then 1 else 0 :=
  countP_set_of_some h p pc

/-- What an undisturbed step is: a run starts, reads, writes, or goes on within what it does after its
write. Source: `lib/chaos/worker-gate.ts` `maybeInjectChaos`. Kind: L -/
theorem step_cases (hundisturbed : Undisturbed a) (h : step w a = some w') :
    (a = .invoke ∧ w' = { w with runs := w.runs ++ [.reading] }) ∨
    (∃ i, a = .get i .answered ∧ w.runs[i]? = some .reading ∧
      w' = w.goto i (GatePc.ofFlag w.failNext)) ∨
    (∃ i, ∃ state : ChaosState, a = .write i .answered ∧ w.runs[i]? = some (.writing state) ∧
      w' = { w with failNext := state.spend }.goto i (GatePc.fire state)) ∨
    (∃ i old pc, (a = .wake i ∨ a = .raise i) ∧ w.runs[i]? = some old ∧ old.hasFired = true ∧
      pc.hasFired = true ∧ w' = w.goto i pc) := by
  cases a with
  | killWorker k => exact absurd hundisturbed id
  | expire => exact absurd hundisturbed id
  | invoke => exact .inl ⟨rfl, (Option.some.inj h).symm⟩
  | get i transport =>
    obtain rfl : transport = .answered := hundisturbed
    unfold step at h
    dsimp only at h
    split at h
    · rename_i hi
      exact .inr (.inl ⟨i, rfl, hi, (Option.some.inj h).symm⟩)
    · cases h
  | write i transport =>
    obtain rfl : transport = .answered := hundisturbed
    unfold step at h
    dsimp only at h
    split at h
    · rename_i state hi
      exact .inr (.inr (.inl ⟨i, state, rfl, hi, (Option.some.inj h).symm⟩))
    · cases h
  | wake i =>
    unfold step at h
    dsimp only at h
    split at h
    · rename_i mode hi
      exact .inr (.inr (.inr ⟨i, _, _, .inl rfl, hi, rfl, rfl, (Option.some.inj h).symm⟩))
    · cases h
  | raise i =>
    unfold step at h
    dsimp only at h
    split at h
    · rename_i mode hi
      exact .inr (.inr (.inr ⟨i, _, _, .inr rfl, hi, rfl, rfl, (Option.some.inj h).symm⟩))
    · cases h

/-- A read spends nothing. Source: `lib/chaos/worker-gate.ts` `maybeInjectChaos`. Kind: L -/
theorem fired_get (h : w.runs[i]? = some .reading) :
    (w.goto i (GatePc.ofFlag w.failNext)).fired = w.fired := by
  have hcount := countP_goto GatePc.hasFired (GatePc.ofFlag w.failNext) h
  have hnew : (GatePc.ofFlag w.failNext).hasFired = false := by
    unfold GatePc.ofFlag
    split
    · rfl
    · split <;> rfl
  rw [hnew] at hcount
  unfold fired
  simpa [GatePc.hasFired] using hcount

/-- Whoever has written has spent a failure. Source: `lib/chaos/worker-gate.ts` `maybeInjectChaos`.
Kind: L -/
theorem hasFired_fire : (GatePc.fire state).hasFired = true := by
  unfold GatePc.fire
  split <;> rfl

/-- A write spends one failure. Source: `lib/chaos/worker-gate.ts` `maybeInjectChaos`. Kind: L -/
theorem fired_write (h : w.runs[i]? = some (.writing state)) :
    ({ w with failNext := state.spend }.goto i (GatePc.fire state)).fired = w.fired + 1 := by
  have hcount := countP_goto GatePc.hasFired (GatePc.fire state) h
  rw [hasFired_fire] at hcount
  show (w.goto i (GatePc.fire state)).runs.countP GatePc.hasFired = w.fired + 1
  simpa [GatePc.hasFired, fired] using hcount

/-- Going on after the write spends nothing. Source: `lib/chaos/worker-gate.ts` `maybeInjectChaos`.
Kind: L -/
theorem fired_goto (h : w.runs[i]? = some old) (hold : old.hasFired = true) (hpc : pc.hasFired = true) :
    (w.goto i pc).fired = w.fired := by
  have hcount := countP_goto GatePc.hasFired pc h
  rw [hold, hpc] at hcount
  unfold fired
  simpa using hcount

/-- What a write leaves. Source: `lib/chaos/worker-gate.ts` `maybeInjectChaos`. Kind: L -/
theorem remaining_write (hpos : 0 < state.remaining) :
    ({ w with failNext := state.spend }.goto i pc).remaining = state.remaining - 1 := by
  unfold remaining goto ChaosState.spend
  dsimp only
  split
  · simp only [Option.map_none, Option.getD_none]
    omega
  · rfl

/-- A run that goes on leaves the flag. Source: `lib/chaos/worker-gate.ts` `maybeInjectChaos`. Kind: L -/
@[simp] theorem remaining_goto : (w.goto i pc).remaining = w.remaining := rfl

/-- A run that goes on to write has read what is stored, and there is a failure left. Source:
`lib/chaos/worker-gate.ts` `maybeInjectChaos`. Kind: L -/
theorem ofFlag_eq_writing (h : GatePc.ofFlag w.failNext = .writing state) :
    state.remaining = w.remaining ∧ 0 < state.remaining := by
  unfold GatePc.ofFlag at h
  unfold remaining
  split at h
  · cases h
  · rename_i hflag
    split at h
    · cases h
    · cases h
      rw [hflag]
      exact ⟨rfl, by omega⟩

/-- A run that returns has found no failure left. Source: `lib/chaos/worker-gate.ts` `maybeInjectChaos`.
Kind: L -/
theorem ofFlag_eq_returned (h : GatePc.ofFlag w.failNext = .returned) : w.remaining ≤ 0 := by
  unfold GatePc.ofFlag at h
  unfold remaining
  split at h
  · rename_i hflag
    simp [hflag]
  · rename_i hflag
    split at h
    · rename_i hle
      simpa [hflag] using hle
    · cases h

/-- While there are failures left, a run that reads goes on to write. Source: `lib/chaos/worker-gate.ts`
`maybeInjectChaos`. Kind: L -/
theorem ofFlag_of_pos (h : 0 < w.remaining) : ∃ state, GatePc.ofFlag w.failNext = .writing state := by
  unfold remaining at h
  cases hflag : w.failNext with
  | none => simp [hflag] at h
  | some state =>
    refine ⟨state, if_neg ?_⟩
    simpa [hflag] using h

/-- Who is between its read and its write. Source: `lib/chaos/worker-gate.ts` `maybeInjectChaos`. Kind: L -/
theorem isWriting_eq_true : pc.isWriting = true ↔ ∃ state, pc = .writing state := by
  cases pc <;> simp [GatePc.isWriting]

end counts

/-! ## The accounts of a run -/

section accounts

variable {w w' : Gate} {n i : ℕ} {a : Action} {pc : GatePc} {state : ChaosState} {mode : FailureMode}

/-- What is left and what has been spent make up at least what was armed; whoever is about to write holds
what is stored, or has been overtaken; who has returned came when everything was spent. Source:
`lib/chaos/worker-gate.ts` `maybeInjectChaos`. Kind: D -/
structure Counted (n : ℕ) (w : Gate) : Prop where
  nonneg : 0 ≤ w.remaining
  armed : (n : ℤ) ≤ w.remaining + w.fired
  writing : ∀ state, .writing state ∈ w.runs →
    0 < state.remaining ∧ (state.remaining = w.remaining ∨ (n : ℤ) < state.remaining + w.fired)
  returned : .returned ∈ w.runs → n ≤ w.fired

/-- More is left and spent than was armed, or will be once everybody has written. Source:
`lib/chaos/worker-gate.ts` `maybeInjectChaos`. Kind: D -/
def Overrun (n : ℕ) (w : Gate) : Prop :=
  (n : ℤ) < w.remaining + w.fired ∨
    (∃ state, .writing state ∈ w.runs ∧ (n : ℤ) < state.remaining + w.fired) ∨
      2 ≤ w.runs.countP GatePc.isWriting

/-- The flag has just been armed. Source: `app/api/admin/kill-worker/route.ts` `POST`. Kind: L -/
theorem Counted.armed_start (h : Armed n mode w) : Counted n w ∧ ¬ Overrun n w := by
  obtain ⟨w₀, hruns, rfl⟩ := h
  have hleft : (w₀.arm ⟨n, mode⟩).remaining = n := rfl
  have hnone : (w₀.arm ⟨n, mode⟩).runs = [] := hruns
  have hfired : (w₀.arm ⟨n, mode⟩).fired = 0 := by
    unfold fired
    rw [hnone]
    rfl
  constructor
  · constructor
    · omega
    · omega
    · intro state hstate
      rw [hnone] at hstate
      exact absurd hstate List.not_mem_nil
    · intro hreturned
      rw [hnone] at hreturned
      exact absurd hreturned List.not_mem_nil
  · rintro (hover | ⟨state, hstate, -⟩ | htwo)
    · omega
    · rw [hnone] at hstate
      exact absurd hstate List.not_mem_nil
    · rw [hnone] at htwo
      exact absurd htwo (by decide)

/-- A run begins. Source: `lib/chaos/worker-gate.ts` `maybeInjectChaos`. Kind: L -/
theorem Counted.invoke (h : Counted n w) : Counted n { w with runs := w.runs ++ [.reading] } := by
  have hfired : fired { w with runs := w.runs ++ [.reading] } = w.fired := by
    unfold fired
    simp [GatePc.hasFired]
  constructor
  · exact h.nonneg
  · rw [hfired]
    exact h.armed
  · intro state hstate
    rw [hfired]
    apply h.writing state
    simpa using hstate
  · intro hreturned
    rw [hfired]
    apply h.returned
    simpa using hreturned

/-- A run reads. Source: `lib/chaos/worker-gate.ts` `maybeInjectChaos`. Kind: L -/
theorem Counted.get (h : Counted n w) (hi : w.runs[i]? = some .reading) :
    Counted n (w.goto i (GatePc.ofFlag w.failNext)) := by
  have hfired := fired_get hi
  constructor
  · exact h.nonneg
  · rw [hfired]
    exact h.armed
  · intro state hstate
    rw [hfired, remaining_goto]
    rcases mem_goto hstate with hold | hnew
    · exact h.writing state hold
    · obtain ⟨hread, hpos⟩ := ofFlag_eq_writing hnew.symm
      exact ⟨hpos, .inl hread⟩
  · intro hreturned
    rw [hfired]
    rcases mem_goto hreturned with hold | hnew
    · exact h.returned hold
    · have hzero := ofFlag_eq_returned hnew.symm
      have harmed := h.armed
      omega

/-- A run writes: whoever else is about to write has been overtaken now. Source:
`lib/chaos/worker-gate.ts` `maybeInjectChaos`. Kind: L -/
theorem Counted.write (h : Counted n w) (hi : w.runs[i]? = some (.writing state)) :
    Counted n ({ w with failNext := state.spend }.goto i (GatePc.fire state)) := by
  obtain ⟨hpos, hheld⟩ := h.writing state (List.mem_of_getElem? hi)
  have hfired := fired_write hi
  have hleft : ({ w with failNext := state.spend }.goto i (GatePc.fire state)).remaining = _ :=
    remaining_write hpos
  have harmed := h.armed
  constructor
  · omega
  · omega
  · intro other hother
    rcases mem_goto hother with hold | hnew
    · obtain ⟨hpos', hheld'⟩ := h.writing other hold
      refine ⟨hpos', .inr ?_⟩
      omega
    · have hfire : (GatePc.fire state).hasFired = true := hasFired_fire
      rw [← hnew] at hfire
      exact absurd hfire Bool.false_ne_true
  · intro hreturned
    rcases mem_goto hreturned with hold | hnew
    · have hspent := h.returned hold
      omega
    · have hfire : (GatePc.fire state).hasFired = true := hasFired_fire
      rw [← hnew] at hfire
      exact absurd hfire Bool.false_ne_true

/-- A run goes on after its write. Source: `lib/chaos/worker-gate.ts` `maybeInjectChaos`. Kind: L -/
theorem Counted.goto {old : GatePc} (h : Counted n w) (hi : w.runs[i]? = some old)
    (hold : old.hasFired = true) (hpc : pc.hasFired = true) : Counted n (w.goto i pc) := by
  have hfired := fired_goto hi hold hpc
  constructor
  · exact h.nonneg
  · rw [hfired]
    exact h.armed
  · intro state hstate
    rw [hfired, remaining_goto]
    rcases mem_goto hstate with hmem | hnew
    · exact h.writing state hmem
    · rw [← hnew] at hpc
      exact absurd hpc Bool.false_ne_true
  · intro hreturned
    rw [hfired]
    rcases mem_goto hreturned with hmem | hnew
    · exact h.returned hmem
    · rw [← hnew] at hpc
      exact absurd hpc Bool.false_ne_true

/-- **What an undisturbed step keeps.** Source: `lib/chaos/worker-gate.ts` `maybeInjectChaos`. Kind: L -/
theorem Counted.step (h : Counted n w) (hundisturbed : Undisturbed a)
    (hstep : Gate.step w a = some w') : Counted n w' := by
  obtain ⟨-, rfl⟩ | ⟨i, -, hi, rfl⟩ | ⟨i, state, -, hi, rfl⟩ | ⟨i, old, pc, -, hi, hold, hpc, rfl⟩ :=
    step_cases hundisturbed hstep
  · exact h.invoke
  · exact h.get hi
  · exact h.write hi
  · exact h.goto hi hold hpc

/-- A run that is about to write is found in the list. Source: `lib/chaos/worker-gate.ts`
`maybeInjectChaos`. Kind: L -/
theorem writers_pos (h : .writing state ∈ w.runs) : 0 < w.runs.countP GatePc.isWriting :=
  List.countP_pos_iff.mpr ⟨_, h, rfl⟩

/-- How many are about to write after one of them has written. Source: `lib/chaos/worker-gate.ts`
`maybeInjectChaos`. Kind: L -/
theorem writers_write (hi : w.runs[i]? = some (.writing state)) (hpc : pc.isWriting = false) :
    (w.goto i pc).runs.countP GatePc.isWriting + 1 = w.runs.countP GatePc.isWriting := by
  have hcount := countP_goto GatePc.isWriting pc hi
  rw [hpc] at hcount
  simpa [GatePc.isWriting] using hcount

/-- A read adds at most one to them. Source: `lib/chaos/worker-gate.ts` `maybeInjectChaos`. Kind: L -/
theorem writers_get (pc : GatePc) (hi : w.runs[i]? = some .reading) :
    w.runs.countP GatePc.isWriting ≤ (w.goto i pc).runs.countP GatePc.isWriting ∧
      (w.goto i pc).runs.countP GatePc.isWriting ≤ w.runs.countP GatePc.isWriting + 1 := by
  have hcount := countP_goto GatePc.isWriting pc hi
  have hreading : GatePc.reading.isWriting = false := rfl
  rw [hreading, if_neg Bool.false_ne_true] at hcount
  split at hcount <;> omega

/-- After its write a run is not about to write. Source: `lib/chaos/worker-gate.ts` `maybeInjectChaos`.
Kind: L -/
theorem isWriting_of_hasFired (h : pc.hasFired = true) : pc.isWriting = false := by
  cases pc <;> first | rfl | exact absurd h Bool.false_ne_true

/-- Of two runs that are about to write one is left by the other's write. Source:
`lib/chaos/worker-gate.ts` `maybeInjectChaos`. Kind: L -/
theorem exists_writing_goto (hi : w.runs[i]? = some (.writing state)) (hpc : pc.isWriting = false)
    (htwo : 2 ≤ w.runs.countP GatePc.isWriting) :
    ∃ other, .writing other ∈ w.runs ∧ .writing other ∈ (w.goto i pc).runs := by
  have hcount := writers_write hi hpc
  have hpos : 0 < (w.goto i pc).runs.countP GatePc.isWriting := by omega
  obtain ⟨pc', hmem, hwriting⟩ := List.countP_pos_iff.mp hpos
  obtain ⟨other, rfl⟩ := isWriting_eq_true.mp hwriting
  rcases mem_goto hmem with hold | hnew
  · exact ⟨other, hold, hmem⟩
  · rw [← hnew] at hpc
    exact absurd hpc.symm Bool.false_ne_true

/-- A run that begins settles nothing. Source: `lib/chaos/worker-gate.ts` `maybeInjectChaos`. Kind: L -/
theorem overrun_invoke : Overrun n { w with runs := w.runs ++ [.reading] } ↔ Overrun n w := by
  unfold Overrun fired remaining
  simp [GatePc.isWriting, GatePc.hasFired]

/-- Nor does a run that goes on after its write. Source: `lib/chaos/worker-gate.ts` `maybeInjectChaos`.
Kind: L -/
theorem overrun_goto {old : GatePc} (hi : w.runs[i]? = some old) (hold : old.hasFired = true)
    (hpc : pc.hasFired = true) : Overrun n (w.goto i pc) ↔ Overrun n w := by
  have hfired := fired_goto hi hold hpc
  have hcount := countP_goto GatePc.isWriting pc hi
  rw [isWriting_of_hasFired hold, isWriting_of_hasFired hpc] at hcount
  have hmem : ∀ state, .writing state ∈ (w.goto i pc).runs ↔ .writing state ∈ w.runs := by
    intro state
    constructor
    · intro hstate
      rcases mem_goto hstate with hmem | rfl
      · exact hmem
      · exact absurd hpc Bool.false_ne_true
    · intro hstate
      apply mem_set_of_ne hi hstate
      rintro rfl
      exact absurd hold Bool.false_ne_true
  unfold Overrun
  rw [hfired, remaining_goto, Nat.add_right_cancel hcount]
  simp only [hmem]

/-- **Over for good.** No undisturbed step settles accounts that are over. Source:
`lib/chaos/worker-gate.ts` `maybeInjectChaos`. Kind: L -/
theorem Overrun.step (h : Overrun n w) (hcounted : Counted n w) (hundisturbed : Undisturbed a)
    (hstep : Gate.step w a = some w') : Overrun n w' := by
  obtain ⟨-, rfl⟩ | ⟨i, -, hi, rfl⟩ | ⟨i, state, -, hi, rfl⟩ | ⟨i, old, pc, -, hi, hold, hpc, rfl⟩ :=
    step_cases hundisturbed hstep
  · exact overrun_invoke.mpr h
  · unfold Overrun
    rw [fired_get hi, remaining_goto]
    rcases h with hover | ⟨state, hstate, hover⟩ | htwo
    · exact .inl hover
    · exact .inr (.inl ⟨state, mem_set_of_ne hi hstate (by simp), hover⟩)
    · exact .inr (.inr (htwo.trans (writers_get _ hi).1))
  · have hown := hcounted.writing state (List.mem_of_getElem? hi)
    have hfired := fired_write hi
    have hleft : ({ w with failNext := state.spend }.goto i (GatePc.fire state)).remaining = _ :=
      remaining_write hown.1
    have hfire : (GatePc.fire state).isWriting = false := isWriting_of_hasFired hasFired_fire
    -- Whoever else is about to write has been overtaken by this write.
    have hothers : ∀ other, GatePc.writing other ∈ w.runs →
        (n : ℤ) < other.remaining + (w.fired + 1 : ℕ) := by
      intro other hother
      have hheld := (hcounted.writing other hother).2
      have harmed := hcounted.armed
      omega
    rcases h with hover | ⟨other, hother, hover⟩ | htwo
    · left
      omega
    · by_cases hsame : other = state
      · subst hsame
        left
        omega
      · refine .inr (.inl ⟨other, ?_, ?_⟩)
        · apply mem_set_of_ne hi hother
          simpa using hsame
        · rw [hfired]
          exact hothers other hother
    · obtain ⟨other, hother, hmem⟩ := exists_writing_goto hi hfire htwo
      refine .inr (.inl ⟨other, hmem, ?_⟩)
      rw [hfired]
      exact hothers other hother
  · exact (overrun_goto hi hold hpc).mpr h

/-- Accounts in order: what is left and spent is what was armed, and so it stays when whoever is about to
write has written. Source: `lib/chaos/worker-gate.ts` `maybeInjectChaos`. Kind: L -/
theorem not_overrun : ¬ Overrun n w ↔ w.remaining + w.fired ≤ n ∧
    (∀ state, GatePc.writing state ∈ w.runs → state.remaining + w.fired ≤ (n : ℤ)) ∧
      w.runs.countP GatePc.isWriting ≤ 1 := by
  simp only [Overrun, not_or, not_lt, not_exists, not_and, not_le, Nat.lt_succ_iff]

/-- A step that reads no flag under another's hands leaves the accounts in order. Source:
`lib/chaos/worker-gate.ts` `maybeInjectChaos`. Kind: L -/
theorem not_overrun_step (h : ¬ Overrun n w) (hcounted : Counted n w) (hundisturbed : Undisturbed a)
    (hserial : Serial w a) (hstep : Gate.step w a = some w') : ¬ Overrun n w' := by
  obtain ⟨hleast, hheld, hone⟩ := not_overrun.mp h
  obtain ⟨-, rfl⟩ | ⟨i, rfl, hi, rfl⟩ | ⟨i, state, -, hi, rfl⟩ | ⟨i, old, pc, -, hi, hold, hpc, rfl⟩ :=
    step_cases hundisturbed hstep
  · exact fun hover => h (overrun_invoke.mp hover)
  · have hzero : w.runs.countP GatePc.isWriting = 0 := by
      apply List.countP_eq_zero.mpr
      intro pc hpc
      simp [hserial pc hpc]
    have hcount := (writers_get (GatePc.ofFlag w.failNext) hi).2
    apply not_overrun.mpr
    rw [fired_get hi, remaining_goto]
    refine ⟨hleast, ?_, by omega⟩
    intro state hstate
    rcases mem_goto hstate with hmem | hnew
    · exact hheld state hmem
    · rw [(ofFlag_eq_writing hnew.symm).1]
      exact hleast
  · have hpos := (hcounted.writing state (List.mem_of_getElem? hi)).1
    have hown := hheld state (List.mem_of_getElem? hi)
    have hfired := fired_write hi
    have hleft : ({ w with failNext := state.spend }.goto i (GatePc.fire state)).remaining = _ :=
      remaining_write hpos
    have hcount : ({ w with failNext := state.spend }.goto i (GatePc.fire state)).runs.countP
        GatePc.isWriting + 1 = w.runs.countP GatePc.isWriting :=
      writers_write hi (isWriting_of_hasFired hasFired_fire)
    apply not_overrun.mpr
    refine ⟨by omega, ?_, by omega⟩
    intro other hother
    have hpos' := writers_pos hother
    omega
  · exact fun hover => h ((overrun_goto hi hold hpc).mp hover)

/-- A flag that is read under another's hands is spent twice. Source: `lib/chaos/worker-gate.ts`
`maybeInjectChaos`. Kind: L -/
theorem overrun_of_overlap (hcounted : Counted n w) (hundisturbed : Undisturbed a)
    (hoverlap : ¬ Serial w a) (hstep : Gate.step w a = some w') : Overrun n w' := by
  obtain ⟨rfl, -⟩ | ⟨i, rfl, hi, rfl⟩ | ⟨i, state, rfl, -⟩ | ⟨i, old, pc, rfl | rfl, -⟩ :=
    step_cases hundisturbed hstep
  · exact absurd trivial hoverlap
  · obtain ⟨pc, hmem, hwriting⟩ : ∃ pc ∈ w.runs, pc.isWriting = true := by
      by_contra hnone
      apply hoverlap
      intro pc hmem
      by_contra hwriting
      exact hnone ⟨pc, hmem, by simpa using hwriting⟩
    obtain ⟨held, rfl⟩ := isWriting_eq_true.mp hwriting
    have hheld := hcounted.writing held hmem
    have hone := writers_pos hmem
    have harmed := hcounted.armed
    unfold Overrun
    rw [fired_get hi, remaining_goto]
    rcases hheld.2 with hsame | hover
    · obtain ⟨state, hpc⟩ := ofFlag_of_pos (hsame ▸ hheld.1)
      have hcount := countP_goto GatePc.isWriting (GatePc.ofFlag w.failNext) hi
      rw [hpc] at hcount ⊢
      simp only [GatePc.isWriting, if_true, Bool.false_eq_true, if_false] at hcount
      exact .inr (.inr (by omega))
    · exact .inr (.inl ⟨held, mem_set_of_ne hi hmem (by simp), hover⟩)
  · exact absurd trivial hoverlap
  · exact absurd trivial hoverlap
  · exact absurd trivial hoverlap

/-- Once the runs have ended, those that have spent a failure have thrown. Source:
`lib/chaos/worker-gate.ts` `maybeInjectChaos`. Kind: L -/
theorem thrown_eq_fired (hended : ∀ pc ∈ w.runs, pc.ended = true) : w.thrown = w.fired := by
  unfold thrown fired
  apply List.countP_congr
  intro pc hpc
  have hend := hended pc hpc
  cases pc <;> simp_all [GatePc.hasThrown, GatePc.hasFired, GatePc.ended]

/-- Once the runs have ended, either somebody has found no failure left or all have thrown. Source:
`lib/chaos/worker-gate.ts` `maybeInjectChaos`. Kind: L -/
theorem returned_or_all (hended : ∀ pc ∈ w.runs, pc.ended = true) :
    (.returned ∈ w.runs ∧ w.fired < w.runs.length) ∨ w.fired = w.runs.length := by
  by_cases hreturned : GatePc.returned ∈ w.runs
  · left
    refine ⟨hreturned, lt_of_le_of_ne List.countP_le_length ?_⟩
    intro hall
    exact absurd (List.countP_eq_length.mp hall _ hreturned) Bool.false_ne_true
  · right
    apply List.countP_eq_length.mpr
    intro pc hpc
    have hend := hended pc hpc
    cases pc <;> simp_all [GatePc.hasFired, GatePc.ended]

/-- **The accounts tell.** Once the runs have ended, as many have thrown as were armed, and no failure is
left over, when and only when the accounts are in order. Source: `lib/chaos/worker-gate.ts`
`maybeInjectChaos`. Kind: L -/
theorem Counted.firesExactly_iff (h : Counted n w) (hended : ∀ pc ∈ w.runs, pc.ended = true) :
    FiresExactly n w ↔ ¬ Overrun n w := by
  have hnonneg := h.nonneg
  have harmed := h.armed
  have hwriters : ∀ state, GatePc.writing state ∉ w.runs := fun state hstate =>
    absurd (hended _ hstate) Bool.false_ne_true
  have hzero : w.runs.countP GatePc.isWriting = 0 := by
    apply List.countP_eq_zero.mpr
    intro pc hpc hwriting
    obtain ⟨state, rfl⟩ := isWriting_eq_true.mp hwriting
    exact hwriters state hpc
  unfold FiresExactly
  rw [thrown_eq_fired hended, not_overrun]
  constructor
  · intro hexact
    obtain ⟨-, hleft⟩ := hexact hended
    exact ⟨by omega, fun state hstate => absurd hstate (hwriters state), by omega⟩
  · rintro ⟨hleast, -, -⟩ -
    refine ⟨?_, by omega⟩
    rcases returned_or_all hended with ⟨hreturned, hfewer⟩ | hall
    · have hspent := h.returned hreturned
      omega
    · omega

end accounts

/-- **The flag fires as often as it was armed.** Undisturbed, and as long as no worker run reads the flag
while another one is between its read and its write, exactly as many runs throw as were armed, or all of
them, and the rest stays on the flag. Source: `lib/chaos/worker-gate.ts` `maybeInjectChaos`. Kind: P -/
theorem fires_exactly {n : ℕ} {mode : FailureMode} {w : Gate}
    (h : Reach step (Armed n mode) (fun w a => Undisturbed a ∧ Serial w a) w) : FiresExactly n w := by
  have haccounts : Counted n w ∧ ¬ Overrun n w := by
    refine h.invariant (fun _ => Counted.armed_start) fun w a w' _ hw ha hstep => ?_
    exact ⟨hw.1.step ha.1 hstep, not_overrun_step hw.2 hw.1 ha.1 ha.2 hstep⟩
  intro hended
  exact (haccounts.1.firesExactly_iff hended).mpr haccounts.2 hended

/-- **And only then.** A run that reads the flag under another's hands leaves one failure too many, whatever
happens next. Source: `lib/chaos/worker-gate.ts` `maybeInjectChaos`. Kind: P -/
theorem fires_too_often {n : ℕ} {mode : FailureMode} {w w₁ w₂ : Gate} {a : Action}
    (h : Reach step (Armed n mode) (fun _ => Undisturbed) w) (ha : Undisturbed a) (hoverlap : ¬ Serial w a)
    (hstep : step w a = some w₁) (hafter : Steps step (fun _ => Undisturbed) w₁ w₂)
    (hended : ∀ pc ∈ w₂.runs, pc.ended = true) : ¬ FiresExactly n w₂ := by
  have hcounted : Counted n w :=
    h.invariant (fun _ hw => (Counted.armed_start hw).1) fun _ _ _ _ hw ha hstep => hw.step ha hstep
  have hover : Counted n w₂ ∧ Overrun n w₂ := by
    refine hafter.invariant (P := fun w => Counted n w ∧ Overrun n w)
      (fun _ _ _ hw ha hstep => ⟨hw.1.step ha hstep, hw.2.step hw.1 ha hstep⟩) ?_
    exact ⟨hcounted.step ha hstep, overrun_of_overlap hcounted ha hoverlap hstep⟩
  exact fun hexact => (hover.1.firesExactly_iff hended).mp hexact hover.2

/-- One after the other. Source: none: infrastructure. Kind: D -/
def successive : List Action :=
  [.invoke, .invoke, .get 0 .answered, .write 0 .answered, .get 1 .answered, .raise 0]

/-- A run that meets the condition: one throws, the other goes on. Source: none: infrastructure. Kind: L -/
theorem fires_exactly_successive : ∃ w, Reach step (Armed 1 .status500)
    (fun w a => Undisturbed a ∧ Serial w a) w ∧ w.runs = [.threw .status500, .returned] ∧
      FiresExactly 1 w := by
  have harmed : Armed 1 .status500 armedOnce := ⟨⟨none, []⟩, rfl, rfl⟩
  have hrun : (run (guarded step fun w a => Undisturbed a ∧ Serial w a) armedOnce successive).map
      (fun w => decide (w.runs = [.threw .status500, .returned])) = some true := by decide
  obtain ⟨w, hreach, hruns⟩ := reach_of_guarded harmed hrun
  exact ⟨w, hreach, of_decide_eq_true hruns, fires_exactly hreach⟩

end Gate

end TrainsAndTracks.Admission
