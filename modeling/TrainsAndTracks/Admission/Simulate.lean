import TrainsAndTracks.Admission.SlidingLog
import TrainsAndTracks.Found.Run

/-!
# Simulations and their claim

`app/api/simulate/route.ts`. A request claims the key `simulate:running` for `windowSeconds + 10` seconds
and fires in the background; the last thing it does is to delete the key. What Redis runs is atomic, what
a simulation does between two commands takes as long as it takes, and a simulation is known by its place
in the list of requests, for its `simulationId`.

* `SimPc` — where a simulation is in `POST` and in `fireAll`.
* `step` — the claim, the firing loop batch by batch, the two `DEL`s, the clock.
* `SingleFlight` — one simulation fires at a time, and no `DEL` has removed another's claim.

`HoldsClaim` carries the result: under the condition that a claim outlives its simulation and that the
final `DEL` is acknowledged, whoever fires or has a `DEL` to run is the holder of the claim.
-/

namespace TrainsAndTracks.Admission

open Found

/-- A request for a simulation. Source: `lib/validation/simulate.ts` `SimulateRequestSchema`. Kind: D -/
structure SimulateRequest where
  requestCount : ℕ
  windowSeconds : ℕ
deriving DecidableEq

/-- The bounds of the schema. Source: `lib/validation/simulate.ts` `SimulateRequestSchema`. Kind: D -/
def SimulateRequest.valid (r : SimulateRequest) : Bool :=
  decide (0 < r.requestCount) && decide (r.requestCount ≤ 100000) && decide (0 < r.windowSeconds) &&
    decide (r.windowSeconds ≤ 60)

/-- Where a simulation is. Source: `app/api/simulate/route.ts` `POST`. Kind: D -/
inductive SimPc
  /-- Before the claim. -/
  | asking
  /-- Answered 409 `simulator_busy`. -/
  | busy
  /-- The handler has thrown: an error of Redis at the claim, or no `APP_URL`. -/
  | thrown
  /-- It has the claim. -/
  | claimed
  /-- In the loop of `fireAll`, with `i` requests sent. -/
  | firing (i : ℕ)
  /-- After the loop, before the final `DEL`. -/
  | releasing
  /-- In the `catch` of `fireAll`, before its `DEL`. -/
  | failing
  | ended
deriving DecidableEq

/-- The simulation fires or still has a command to run on the claim. Source:
`app/api/simulate/route.ts` `POST`. Kind: D -/
def SimPc.active : SimPc → Bool
  | .claimed | .firing _ | .releasing | .failing => true
  | .asking | .busy | .thrown | .ended => false

/-- A simulation: what was asked for, and the point its handler has reached.
Source: `app/api/simulate/route.ts` `POST`. Kind: D -/
structure Sim where
  request : SimulateRequest
  pc : SimPc
deriving DecidableEq

/-- The simulations and the key `simulate:running`. Source: `app/api/simulate/route.ts` `POST`. Kind: D -/
structure Simulator where
  now : ℚ
  running : Option (Stored ℕ)
  sims : List Sim
  /-- Which simulation has deleted a claim, and whose. -/
  removals : List (ℕ × ℕ)

namespace Simulator

/-- The steps of the simulations, and the clock. Source: `app/api/simulate/route.ts` `POST`. Kind: D -/
inductive Action
  /-- Time passes. -/
  | tick (d : ℚ)
  /-- A request that `requireAdmin` and the schema let through. -/
  | post (request : SimulateRequest)
  | claim (n : ℕ) (transport : Transport)
  /-- `APP_URL` is read and `fireAll` called. -/
  | start (n : ℕ) (appUrl : Bool)
  /-- One turn of the loop: a batch is sent and the pace is kept. -/
  | batch (n : ℕ)
  | finish (n : ℕ)
  /-- Something in `fireAll` throws. -/
  | raise (n : ℕ)
  /-- The final `DEL`. -/
  | release (n : ℕ) (transport : Transport)
  /-- The `DEL` of the error path. -/
  | recover (n : ℕ) (transport : Transport)
  /-- The instance is gone. -/
  | crash (n : ℕ)

/-- A simulation goes on to `pc`. Source: none: bookkeeping. Kind: D -/
def goto (w : Simulator) (n : ℕ) (pc : SimPc) : Simulator :=
  { w with sims := w.sims.modify n fun sim => { sim with pc := pc } }

/-- Simulation `n` deletes the key. Source: `app/api/simulate/route.ts` `POST`. Kind: D -/
def delete (w : Simulator) (n : ℕ) : Simulator :=
  { w with
    running := del w.running
    removals := match seen w.now w.running with
      | some claim => w.removals ++ [(n, claim.value)]
      | none => w.removals }

/-- Where simulation `n` is. Source: none: bookkeeping. Kind: D -/
def pcOf (w : Simulator) (n : ℕ) : Option SimPc := w.sims[n]?.map Sim.pc

/-- The claim of simulation `n` as Redis runs it. Source: `app/api/simulate/route.ts` `POST`. Kind: D -/
def set (w : Simulator) (n : ℕ) (request : SimulateRequest) : Option String × Simulator :=
  let (claim, running) := setNxEx w.now w.running n (request.windowSeconds + 10)
  (claim, { w with running := running })

/-- One step. Source: `app/api/simulate/route.ts` `POST`; `chunk` is `SIMULATE_CHUNK_SIZE`. Kind: D -/
def step (chunk : ℕ) (w : Simulator) : Action → Option Simulator
  | .tick d => if 0 ≤ d then some { w with now := w.now + d } else none
  | .post request =>
    if request.valid then some { w with sims := w.sims ++ [⟨request, .asking⟩] } else none
  | .claim n transport =>
    match w.sims[n]? with
    | some ⟨request, .asking⟩ =>
      match transport with
      | .answered =>
        let (claim, w) := w.set n request
        some (w.goto n (if claim = some "OK" then .claimed else .busy))
      | .refused => some (w.goto n .thrown)
      | .lost => some ((w.set n request).2.goto n .thrown)
    | _ => none
  | .start n appUrl =>
    match w.sims[n]? with
    | some ⟨_, .claimed⟩ => some (w.goto n (if appUrl then .firing 0 else .thrown))
    | _ => none
  | .batch n =>
    match w.sims[n]? with
    | some ⟨request, .firing i⟩ =>
      if i < request.requestCount then some (w.goto n (.firing (i + chunk))) else none
    | _ => none
  | .finish n =>
    match w.sims[n]? with
    | some ⟨request, .firing i⟩ =>
      if i < request.requestCount then none else some (w.goto n .releasing)
    | _ => none
  | .raise n =>
    match w.sims[n]? with
    | some ⟨_, .firing _⟩ => some (w.goto n .failing)
    | _ => none
  | .release n transport =>
    match w.sims[n]? with
    | some ⟨_, .releasing⟩ =>
      match transport with
      | .answered => some ((w.delete n).goto n .ended)
      | .refused => some (w.goto n .failing)
      | .lost => some ((w.delete n).goto n .failing)
    | _ => none
  | .recover n transport =>
    match w.sims[n]? with
    | some ⟨_, .failing⟩ =>
      match transport with
      | .refused => some (w.goto n .ended)
      | .answered | .lost => some ((w.delete n).goto n .ended)
    | _ => none
  | .crash n =>
    match w.sims[n]? with
    | some ⟨_, pc⟩ => if pc.active then some (w.goto n .ended) else none
    | none => none

/-- No simulation yet. Source: none: infrastructure. Kind: D -/
def Initial (w : Simulator) : Prop := w.running = none ∧ w.sims = [] ∧ w.removals = []

/-- A simulator that has not been used. Source: none: infrastructure. Kind: D -/
def noSims : Simulator := ⟨0, none, [], []⟩

/-- It is initial. Source: none: infrastructure. Kind: L -/
theorem initial_noSims : Initial noSims := ⟨rfl, rfl, rfl⟩

/-- At most one simulation is in its firing loop, and no `DEL` has removed a claim of another simulation
than the one that ran it. Source: `app/api/simulate/route.ts` `POST`. Kind: D -/
def SingleFlight (w : Simulator) : Prop :=
  (∀ n m i j, w.pcOf n = some (.firing i) → w.pcOf m = some (.firing j) → n = m) ∧
    ∀ r ∈ w.removals, r.1 = r.2

/-- The claim of a simulation that fires or still has a `DEL` to run does not expire, and a final `DEL`
that has taken effect is acknowledged. Source: `app/api/simulate/route.ts` `POST`. Kind: D -/
def Leased (w : Simulator) : Action → Prop
  | .tick d => ∀ claim ∈ seen w.now w.running, (w.pcOf claim.value).any SimPc.active = true →
      claim.gone (w.now + d) = false
  | .release _ transport => transport ≠ .lost
  | _ => True

instance (w : Simulator) (a : Action) : Decidable (Leased w a) := by
  unfold Leased
  split <;> infer_instance

/-! ## A loop that outlasts its claim -/

/-- The first simulation is still firing when its claim expires; the second one claims and fires; the
first one finishes and deletes the second one's claim; a third one claims and fires. Source: none:
infrastructure. Kind: D -/
def overrunning : List Action :=
  [.post ⟨1000, 2⟩, .claim 0 .answered, .start 0 true, .batch 0, .tick 12000,
    .post ⟨1000, 2⟩, .claim 1 .answered, .start 1 true, .batch 0, .finish 0, .release 0 .answered,
    .post ⟨1000, 2⟩, .claim 2 .answered, .start 2 true]

/-- Two simulations fire, and a claim was deleted by another simulation. Source: none: infrastructure.
Kind: D -/
def overlapping (w : Simulator) : Bool :=
  w.pcOf 1 == some (.firing 0) && w.pcOf 2 == some (.firing 0) && w.removals == [(0, 1)]

/-- **Two simulations at once.** The claim is no bound on how long a simulation fires, and a simulation
deletes the key whoever has claimed it. Source: `app/api/simulate/route.ts` `POST`. Kind: P -/
theorem two_simulations : ¬ ∀ w, Reach (step 500) Initial Always w → SingleFlight w := by
  intro h
  have hrun : (run (step 500) noSims overrunning).map overlapping = some true := by decide +kernel
  obtain ⟨w, hw, hbad⟩ := reach_of_run initial_noSims hrun
  simp only [overlapping, Bool.and_eq_true, beq_iff_eq] at hbad
  have hsame := (h w hw).1 1 2 0 0 hbad.1.1 hbad.1.2
  cases hsame

/-! ## Claims that outlive their simulations -/

/-- Whoever fires or still has a command to run on the claim has the claim. Source:
`app/api/simulate/route.ts` `POST`. Kind: D -/
def HoldsClaim (w : Simulator) : Prop :=
  ∀ n pc, w.pcOf n = some pc → pc.active = true → ∃ claim, seen w.now w.running = some claim ∧
    claim.value = n

section holds

variable {w w' : Simulator} {chunk n m : ℕ} {pc : SimPc} {a : Action} {transport : Transport}

/-- Where simulation `n` is when one of them has gone on. Source: none: bookkeeping. Kind: L -/
theorem pcOf_goto : (w.goto n pc).pcOf m = if n = m then (w.pcOf m).map fun _ => pc else w.pcOf m := by
  unfold goto pcOf
  rw [List.getElem?_modify]
  split <;> simp [Function.comp_def]

/-- A simulation in the list and where it is. Source: none: bookkeeping. Kind: L -/
theorem pcOf_of_getElem? {request : SimulateRequest} (h : w.sims[n]? = some ⟨request, pc⟩) :
    w.pcOf n = some pc := by
  unfold pcOf
  rw [h]
  rfl

/-- A simulation that goes on keeps the claim it has. Source: `app/api/simulate/route.ts` `POST`.
Kind: L -/
theorem HoldsClaim.goto (h : HoldsClaim w)
    (hact : pc.active = true → ∃ old, w.pcOf n = some old ∧ old.active = true) :
    HoldsClaim (w.goto n pc) := by
  intro m pc' hm hpc'
  rw [pcOf_goto] at hm
  split at hm
  · rename_i heq
    subst heq
    obtain ⟨old', hold', rfl⟩ := Option.map_eq_some_iff.mp hm
    obtain ⟨old, hold, hactive⟩ := hact hpc'
    exact h n old hold hactive
  · exact h m pc' hm hpc'

/-- When the key is free nobody is active. Source: `app/api/simulate/route.ts` `POST`. Kind: L -/
theorem HoldsClaim.inactive (h : HoldsClaim w) (hfree : seen w.now w.running = none)
    (hm : w.pcOf m = some pc) : pc.active ≠ true := by
  intro hactive
  obtain ⟨claim, hclaim, -⟩ := h m pc hm hactive
  rw [hfree] at hclaim
  cases hclaim

/-- What `SET` replies and leaves. Source: `app/api/simulate/route.ts` `POST`. Kind: L -/
theorem set_cases (w : Simulator) (n : ℕ) (request : SimulateRequest) :
    (seen w.now w.running ≠ none ∧
      w.set n request = (none, { w with running := seen w.now w.running })) ∨
    (seen w.now w.running = none ∧ ∃ claim : Stored ℕ, claim.value = n ∧
      seen w.now (some claim) = some claim ∧
      w.set n request = (some "OK", { w with running := some claim })) := by
  unfold set setNxEx
  cases hseen : seen w.now w.running with
  | some held => exact .inl ⟨Option.some_ne_none held, rfl⟩
  | none =>
    refine .inr ⟨rfl, _, rfl, if_neg ?_, rfl⟩
    unfold Stored.gone
    have hlater : ¬ w.now + (request.windowSeconds + 10 : ℚ) * 1000 ≤ w.now := by
      have hpos : (0 : ℚ) < (request.windowSeconds + 10) * 1000 := by positivity
      linarith
    simpa using hlater

/-- A claim is made while nobody is active, or not at all. Source: `app/api/simulate/route.ts` `POST`.
Kind: L -/
theorem HoldsClaim.set (h : HoldsClaim w) (request : SimulateRequest) :
    HoldsClaim (w.set n request).2 := by
  rcases set_cases w n request with ⟨-, hset⟩ | ⟨hfree, claim, -, -, hset⟩
  · rw [hset]
    intro m pc hm hactive
    obtain ⟨claim, hclaim, hvalue⟩ := h m pc hm hactive
    exact ⟨claim, seen_seen.trans hclaim, hvalue⟩
  · rw [hset]
    exact fun m pc hm hactive => absurd hactive (h.inactive hfree hm)

/-- A claim that is granted makes its simulation the only active one. Source:
`app/api/simulate/route.ts` `POST`. Kind: L -/
theorem HoldsClaim.granted (h : HoldsClaim w) {request : SimulateRequest}
    (hok : (w.set n request).1 = some "OK") : HoldsClaim ((w.set n request).2.goto n .claimed) := by
  rcases set_cases w n request with ⟨-, hset⟩ | ⟨hfree, claim, hvalue, hclaim, hset⟩
  · rw [hset] at hok
    cases hok
  · rw [hset]
    intro m pc hm hactive
    rw [pcOf_goto] at hm
    split at hm
    · rename_i heq
      exact ⟨claim, hclaim, hvalue.trans heq⟩
    · exact absurd hactive (h.inactive hfree hm)

/-- A simulation that deletes its claim is active no more, and nobody else was. Source:
`app/api/simulate/route.ts` `POST`. Kind: L -/
theorem HoldsClaim.delete (h : HoldsClaim w) (hn : w.pcOf n = some pc) (hactive : pc.active = true) :
    HoldsClaim ((w.delete n).goto n .ended) := by
  obtain ⟨claim, hclaim, hvalue⟩ := h n pc hn hactive
  intro m pc' hm hactive'
  rw [pcOf_goto] at hm
  split at hm
  · obtain ⟨_, -, rfl⟩ := Option.map_eq_some_iff.mp hm
    cases hactive'
  · rename_i hne
    obtain ⟨claim', hclaim', hvalue'⟩ := h m pc' hm hactive'
    obtain rfl := Option.some.inj (hclaim.symm.trans hclaim')
    exact absurd (hvalue.symm.trans hvalue') hne

/-- It has deleted its own claim. Source: `app/api/simulate/route.ts` `POST`. Kind: L -/
theorem HoldsClaim.removals (h : HoldsClaim w) (hn : w.pcOf n = some pc) (hactive : pc.active = true)
    (hown : ∀ r ∈ w.removals, r.1 = r.2) : ∀ r ∈ (w.delete n).removals, r.1 = r.2 := by
  obtain ⟨claim, hclaim, hvalue⟩ := h n pc hn hactive
  unfold Simulator.delete
  dsimp only
  rw [hclaim]
  intro r hr
  rcases List.mem_append.mp hr with hold | hnew
  · exact hown r hold
  · rw [List.mem_singleton.mp hnew]
    exact hvalue.symm

/-- Time passes without a claim of an active simulation expiring. Source:
`app/api/simulate/route.ts` `POST`. Kind: L -/
theorem HoldsClaim.tick (h : HoldsClaim w) {d : ℚ} (hleased : Leased w (.tick d)) :
    HoldsClaim { w with now := w.now + d } := by
  intro n pc hn hactive
  obtain ⟨claim, hclaim, rfl⟩ := h n pc hn hactive
  refine ⟨claim, ?_, rfl⟩
  have hany : (w.pcOf claim.value).any SimPc.active = true := by
    have hpc : w.pcOf claim.value = some pc := hn
    rw [hpc]
    exact hactive
  have hstays : claim.gone (w.now + d) ≠ true := by
    rw [hleased claim hclaim hany]
    exact Bool.false_ne_true
  show seen (w.now + d) w.running = some claim
  rw [eq_some_of_seen hclaim]
  exact if_neg hstays

/-- The claim is with whoever is active, and was deleted by nobody else. Source:
`app/api/simulate/route.ts` `POST`. Kind: D -/
structure ClaimOk (w : Simulator) : Prop where
  holds : HoldsClaim w
  own : ∀ r ∈ w.removals, r.1 = r.2

/-- A simulation goes on without touching the key. Source: `app/api/simulate/route.ts` `POST`. Kind: L -/
theorem ClaimOk.goto (h : ClaimOk w) {old : SimPc} (hn : w.pcOf n = some old)
    (hactive : pc.active = true → old.active = true) : ClaimOk (w.goto n pc) :=
  ⟨h.holds.goto fun hpc => ⟨old, hn, hactive hpc⟩, h.own⟩

/-- A simulation deletes its claim and ends. Source: `app/api/simulate/route.ts` `POST`. Kind: L -/
theorem ClaimOk.delete (h : ClaimOk w) (hn : w.pcOf n = some pc) (hactive : pc.active = true) :
    ClaimOk ((w.delete n).goto n .ended) :=
  ⟨h.holds.delete hn hactive, h.holds.removals hn hactive h.own⟩

/-- `SET`, whatever becomes of its reply. Source: `app/api/simulate/route.ts` `POST`. Kind: L -/
theorem ClaimOk.set (h : ClaimOk w) (request : SimulateRequest) : ClaimOk (w.set n request).2 :=
  ⟨h.holds.set request, h.own⟩

/-- `SET` does not move a simulation. Source: `app/api/simulate/route.ts` `POST`. Kind: L -/
theorem pcOf_set (request : SimulateRequest) : (w.set n request).2.pcOf m = w.pcOf m := rfl

/-- The claim of a simulation. Source: `app/api/simulate/route.ts` `POST`. Kind: L -/
theorem ClaimOk.claim (h : ClaimOk w) (hstep : step chunk w (.claim n transport) = some w') :
    ClaimOk w' := by
  unfold step at hstep
  dsimp only at hstep
  split at hstep
  · rename_i request hsim
    have hn := pcOf_of_getElem? hsim
    split at hstep
    · cases hstep
      by_cases hok : (w.set n request).1 = some "OK"
      · rw [if_pos hok]
        exact ⟨h.holds.granted hok, h.own⟩
      · rw [if_neg hok]
        exact (h.set request).goto ((pcOf_set request).trans hn) nofun
    · cases hstep
      exact h.goto hn nofun
    · cases hstep
      exact (h.set request).goto ((pcOf_set request).trans hn) nofun
  · cases hstep

/-- The final `DEL`, acknowledged or not run. Source: `app/api/simulate/route.ts` `POST`. Kind: L -/
theorem ClaimOk.release (h : ClaimOk w) (hack : transport ≠ .lost)
    (hstep : step chunk w (.release n transport) = some w') : ClaimOk w' := by
  unfold step at hstep
  dsimp only at hstep
  split at hstep
  · rename_i request hsim
    have hn := pcOf_of_getElem? hsim
    split at hstep
    · cases hstep
      exact h.delete hn rfl
    · cases hstep
      exact h.goto hn fun _ => rfl
    · exact absurd rfl hack
  · cases hstep

/-- The `DEL` of the error path. Source: `app/api/simulate/route.ts` `POST`. Kind: L -/
theorem ClaimOk.recover (h : ClaimOk w) (hstep : step chunk w (.recover n transport) = some w') :
    ClaimOk w' := by
  unfold step at hstep
  dsimp only at hstep
  split at hstep
  · rename_i request hsim
    have hn := pcOf_of_getElem? hsim
    split at hstep
    · cases hstep
      exact h.goto hn nofun
    · cases hstep
      exact h.delete hn rfl
    · cases hstep
      exact h.delete hn rfl
  · cases hstep

/-- A new request is not active. Source: `app/api/simulate/route.ts` `POST`. Kind: L -/
theorem HoldsClaim.post (h : HoldsClaim w) (request : SimulateRequest) :
    HoldsClaim { w with sims := w.sims ++ [⟨request, .asking⟩] } := by
  intro n pc hn hactive
  obtain ⟨sim, hsim, rfl⟩ := Option.map_eq_some_iff.mp hn
  rw [List.getElem?_append] at hsim
  split at hsim
  · exact h n sim.pc (pcOf_of_getElem? hsim) hactive
  · obtain rfl := List.mem_singleton.mp (List.mem_of_getElem? hsim)
    cases hactive

/-- **What a step keeps.** Source: `app/api/simulate/route.ts` `POST`. Kind: L -/
theorem ClaimOk.step (h : ClaimOk w) (hleased : Leased w a)
    (hstep : Simulator.step chunk w a = some w') : ClaimOk w' := by
  cases a with
  | tick d =>
    unfold Simulator.step at hstep
    obtain ⟨-, hnext⟩ := Option.ite_none_right_eq_some.mp hstep
    cases hnext
    exact ⟨h.holds.tick hleased, h.own⟩
  | post request =>
    unfold Simulator.step at hstep
    obtain ⟨-, hnext⟩ := Option.ite_none_right_eq_some.mp hstep
    cases hnext
    exact ⟨h.holds.post request, h.own⟩
  | claim n transport => exact h.claim hstep
  | release n transport => exact h.release hleased hstep
  | recover n transport => exact h.recover hstep
  | start n appUrl =>
    unfold Simulator.step at hstep
    dsimp only at hstep
    split at hstep
    · rename_i hsim
      cases hstep
      exact h.goto (pcOf_of_getElem? hsim) fun _ => rfl
    · cases hstep
  | batch n =>
    unfold Simulator.step at hstep
    dsimp only at hstep
    split at hstep
    · rename_i hsim
      obtain ⟨-, hnext⟩ := Option.ite_none_right_eq_some.mp hstep
      cases hnext
      exact h.goto (pcOf_of_getElem? hsim) fun _ => rfl
    · cases hstep
  | finish n =>
    unfold Simulator.step at hstep
    dsimp only at hstep
    split at hstep
    · rename_i hsim
      obtain ⟨-, hnext⟩ := Option.ite_none_left_eq_some.mp hstep
      cases hnext
      exact h.goto (pcOf_of_getElem? hsim) fun _ => rfl
    · cases hstep
  | raise n =>
    unfold Simulator.step at hstep
    dsimp only at hstep
    split at hstep
    · rename_i hsim
      cases hstep
      exact h.goto (pcOf_of_getElem? hsim) fun _ => rfl
    · cases hstep
  | crash n =>
    unfold Simulator.step at hstep
    dsimp only at hstep
    split at hstep
    · rename_i hsim
      obtain ⟨-, hnext⟩ := Option.ite_none_right_eq_some.mp hstep
      cases hnext
      exact h.goto (pcOf_of_getElem? hsim) nofun
    · cases hstep

/-- An unused simulator. Source: none: infrastructure. Kind: L -/
theorem ClaimOk.initial (h : Initial w) : ClaimOk w := by
  obtain ⟨-, hsims, hremovals⟩ := h
  constructor
  · intro n pc hn
    unfold pcOf at hn
    rw [hsims] at hn
    cases hn
  · rw [hremovals]
    exact fun r hr => absurd hr List.not_mem_nil

end holds

/-- **One simulation at a time.** When no claim expires under a simulation that fires or has its `DEL` to
run, and no final `DEL` takes effect without being acknowledged, at most one simulation fires at any time
and none deletes another's claim. Source: `app/api/simulate/route.ts` `POST`. Kind: P -/
theorem single_flight (chunk : ℕ) {w : Simulator} (h : Reach (step chunk) Initial Leased w) :
    SingleFlight w := by
  have hok : ClaimOk w := h.invariant (fun _ => ClaimOk.initial) fun w a w' _ hw hleased hstep =>
    hw.step hleased hstep
  refine ⟨fun n m i j hn hm => ?_, hok.own⟩
  obtain ⟨claim, hclaim, rfl⟩ := hok.holds n _ hn rfl
  obtain ⟨claim', hclaim', rfl⟩ := hok.holds m _ hm rfl
  rw [Option.some.inj (hclaim.symm.trans hclaim')]

/-- A simulation that fires in time, and the next one. Source: none: infrastructure. Kind: D -/
def successive : List Action :=
  [.post ⟨1000, 2⟩, .claim 0 .answered, .start 0 true, .batch 0, .tick 2000, .batch 0, .finish 0,
    .release 0 .answered, .post ⟨1000, 2⟩, .claim 1 .answered, .start 1 true]

/-- A run of two simulations that meets the condition. Source: none: infrastructure. Kind: L -/
theorem single_flight_successive :
    ∃ w, Reach (step 500) Initial Leased w ∧ w.pcOf 1 = some (.firing 0) ∧ SingleFlight w := by
  have hrun : (run (guarded (step 500) Leased) noSims successive).map
      (fun w => w.pcOf 1 == some (.firing 0)) = some true := by decide +kernel
  obtain ⟨w, hreach, hfires⟩ := reach_of_guarded initial_noSims hrun
  exact ⟨w, hreach, beq_iff_eq.mp hfires, single_flight 500 hreach⟩

end Simulator

end TrainsAndTracks.Admission
