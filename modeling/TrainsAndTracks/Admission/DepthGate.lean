import Mathlib.Tactic.Linarith
import TrainsAndTracks.Admission.SlidingLog
import TrainsAndTracks.Found.Run
import TrainsAndTracks.Schema.Rows

/-!
# Backpressure

`lib/admission/queue-depth-gate.ts` asks the broker how many messages are pending, remembers the answer in
Redis for five seconds, one key a train, and refuses a request while it is over `HIGH_WATER`. The answer is
written to Redis without being waited for, so that it may arrive late.

* `DepthPc` — where a request is in `queueDepthGate`; `step` — the requests, the writes that are under
  way, the broker's own queues, the clock.
* `Prompt D` — a write arrives within `D` ms of its probe.
* `RestsOn` — a verdict and the probe it was made from.

`verdicts_rest` says how old a probe may be, and `backpressure` what a client may conclude from a verdict.
-/

namespace TrainsAndTracks.Admission

open Found

/-- The depth above which requests are turned away. Source: `lib/admission/queue-depth-gate.ts`
`HIGH_WATER`. Kind: D. Fidelity: exact -/
def highWater : ℕ := 2000

/-- How long a measured depth is used. Source: `lib/admission/queue-depth-gate.ts` `CACHE_TTL_SECONDS`.
Kind: D. Fidelity: exact -/
def cacheTtlSeconds : ℚ := 5

/-- What a queued job is taken to cost. Source: `lib/admission/queue-depth-gate.ts`
`ESTIMATED_MS_PER_JOB`. Kind: D. Fidelity: exact -/
def estimatedMsPerJob : ℕ := 10

/-- The verdict of the gate. Source: `lib/admission/queue-depth-gate.ts` `DepthCheck`. Kind: D.
Fidelity: exact -/
structure DepthCheck where
  overLimit : Bool
  depth : ℕ
  retryAfterSec : ℕ
  degraded : Bool
deriving DecidableEq

/-- The sum over the queues the broker lists; `none` is a queue without a number in `lag`. Source:
`lib/admission/queue-depth-gate.ts` `fetchQueueDepth`. Kind: D. Fidelity: exact -/
def fetchQueueDepth (lags : List (Option ℕ)) : ℕ := (lags.map fun lag => lag.getD 0).sum

/-- The verdict on a depth. Source: `lib/admission/queue-depth-gate.ts` `queueDepthGate` (from
`if (depth > HIGH_WATER)`). Kind: D. Fidelity: exact -/
def judge (depth : ℕ) : DepthCheck :=
  if highWater < depth then ⟨true, depth, max 1 ((depth * estimatedMsPerJob + 999) / 1000), false⟩
  else ⟨false, depth, 0, false⟩

/-- The verdict when the probe has failed. Source: `lib/admission/queue-depth-gate.ts` `queueDepthGate`
(`qdepth_probe_failed`). Kind: D. Fidelity: exact -/
def failOpen : DepthCheck := ⟨false, 0, 0, true⟩

/-- A depth the broker has reported, and when. Source: `lib/admission/queue-depth-gate.ts`
`fetchQueueDepth`. Kind: D -/
structure Probe where
  depth : ℕ
  time : ℚ
deriving DecidableEq

/-- Where a request is. Source: `lib/admission/queue-depth-gate.ts` `queueDepthGate`. Kind: D -/
inductive DepthPc
  /-- Before the `GET`. -/
  | reading
  /-- It has found nothing, or could not read. -/
  | probing
  | decided (check : DepthCheck) (time : ℚ)
deriving DecidableEq

/-- A request for a train. Source: `lib/admission/queue-depth-gate.ts` `queueDepthGate`. Kind: D -/
structure DepthCall where
  trainId : TrainId
  pc : DepthPc
deriving DecidableEq

/-- A `SET` that is under way. Source: `lib/admission/queue-depth-gate.ts` `queueDepthGate`. Kind: D -/
structure CacheWrite where
  trainId : TrainId
  probe : Probe
deriving DecidableEq

/-- The broker's queues, the keys `qdepth:train:…`, the requests and the writes that are under way. Only
the depth of a stored probe is ever read; its time, and the list of the probes, are kept for the statements.
Source: `lib/admission/queue-depth-gate.ts`. Kind: D -/
structure DepthGate where
  now : ℚ
  lags : List (Option ℕ)
  cache : TrainId → Option (Stored Probe)
  calls : List DepthCall
  writes : List CacheWrite
  probes : List Probe

namespace DepthGate

/-- The steps of the calls, and what goes on around them. Source: `lib/admission/queue-depth-gate.ts`
`queueDepthGate`. Kind: D -/
inductive Action
  /-- Time passes. -/
  | tick (d : ℚ)
  /-- The broker's queues change. -/
  | drift (lags : List (Option ℕ))
  | call (trainId : TrainId)
  | get (n : ℕ) (transport : Transport)
  | probe (n : ℕ) (transport : Transport)
  /-- Write `k` arrives, or fails. -/
  | set (k : ℕ) (transport : Transport)

/-- Request `n` goes on to `pc`. Source: none: bookkeeping. Kind: D -/
def goto (w : DepthGate) (n : ℕ) (pc : DepthPc) : DepthGate :=
  { w with calls := w.calls.modify n fun call => { call with pc := pc } }

/-- A write takes effect. Source: `lib/admission/queue-depth-gate.ts` `queueDepthGate`. Kind: D -/
def store (w : DepthGate) (write : CacheWrite) : DepthGate :=
  let stored := setEx w.now (w.cache write.trainId) write.probe cacheTtlSeconds
  { w with cache := Function.update w.cache write.trainId stored }

/-- The broker answers the probe of request `n`. Source: `lib/admission/queue-depth-gate.ts`
`queueDepthGate`. Kind: D. Fidelity: exact -/
def answer (w : DepthGate) (n : ℕ) (trainId : TrainId) : DepthGate :=
  let probe : Probe := ⟨fetchQueueDepth w.lags, w.now⟩
  let probed : DepthGate := { w with
    probes := w.probes ++ [probe]
    writes := w.writes ++ [⟨trainId, probe⟩] }
  probed.goto n (.decided (judge probe.depth) w.now)

/-- One step. Source: `lib/admission/queue-depth-gate.ts` `queueDepthGate`. Kind: D. Fidelity: exact -/
def step (w : DepthGate) : Action → Option DepthGate
  | .tick d => if 0 ≤ d then some { w with now := w.now + d } else none
  | .drift lags => some { w with lags := lags }
  | .call trainId => some { w with calls := w.calls ++ [⟨trainId, .reading⟩] }
  | .get n transport =>
    match w.calls[n]? with
    | some ⟨trainId, .reading⟩ =>
      match transport, seen w.now (w.cache trainId) with
      | .answered, some cached => some (w.goto n (.decided (judge cached.value.depth) w.now))
      -- a miss, or `qdepth_cache_read_failed`
      | _, _ => some (w.goto n .probing)
    | _ => none
  | .probe n transport =>
    match w.calls[n]? with
    | some ⟨trainId, .probing⟩ =>
      match transport with
      | .answered => some (w.answer n trainId)
      | .refused | .lost => some (w.goto n (.decided failOpen w.now))
    | _ => none
  | .set k transport =>
    match w.writes[k]? with
    | some write =>
      match transport with
      | .answered | .lost => some { w.store write with writes := w.writes.eraseIdx k }
      -- `qdepth_cache_write_failed`
      | .refused => some { w with writes := w.writes.eraseIdx k }
    | none => none

/-- Nobody has asked yet. Source: none: infrastructure. Kind: D -/
structure Initial (w : DepthGate) : Prop where
  no_calls : w.calls = []
  no_writes : w.writes = []
  no_cache : ∀ trainId, w.cache trainId = none

/-- A write that takes effect does so within `D` ms of its probe. Source:
`lib/admission/queue-depth-gate.ts` (the cache write is not waited for). Kind: D -/
def Prompt (D : ℚ) (w : DepthGate) : Action → Prop
  | .set k transport => ∀ write ∈ w.writes[k]?, transport ≠ .refused → w.now ≤ write.probe.time + D
  | _ => True

instance (D : ℚ) (w : DepthGate) (a : Action) : Decidable (Prompt D w a) := by
  unfold Prompt
  split <;> infer_instance

/-- The verdict of `time` was made from a probe that is not older than a late write and the lifetime of the
key. Source: `lib/admission/queue-depth-gate.ts` `queueDepthGate`. Kind: D -/
structure RestsOn (D : ℚ) (probes : List Probe) (check : DepthCheck) (time : ℚ) (p : Probe) : Prop where
  reported : p ∈ probes
  judged : check = judge p.depth
  before : p.time ≤ time
  recent : time < p.time + D + cacheTtlSeconds * 1000

/-- **What is stored, under way and decided comes from probes.** Source:
`lib/admission/queue-depth-gate.ts` `queueDepthGate`. Kind: D -/
structure Sourced (D : ℚ) (w : DepthGate) : Prop where
  cache : ∀ trainId stored, w.cache trainId = some stored → stored.value ∈ w.probes ∧
    stored.value.time ≤ w.now ∧
    ∃ e, stored.expireAt = some e ∧ e ≤ stored.value.time + D + cacheTtlSeconds * 1000
  writes : ∀ write ∈ w.writes, write.probe ∈ w.probes ∧ write.probe.time ≤ w.now
  calls : ∀ (n : ℕ) trainId check time, w.calls[n]? = some ⟨trainId, .decided check time⟩ →
    check = failOpen ∨ ∃ p, RestsOn D w.probes check time p

section sourced

variable {D : ℚ} {w w' : DepthGate} {a : Action} {n : ℕ} {pc : DepthPc}

/-- A request that goes on leaves the other ones. Source: none: bookkeeping. Kind: L -/
theorem calls_goto {m : ℕ} {call : DepthCall} (h : (w.goto n pc).calls[m]? = some call) :
    w.calls[m]? = some call ∨ call.pc = pc := by
  simp only [goto, List.getElem?_modify] at h
  obtain ⟨old, hold, hcall⟩ := Option.map_eq_some_iff.mp h
  split at hcall
  · exact .inr (by rw [← hcall])
  · exact .inl (by rw [hold, ← hcall])

/-- A verdict keeps its probe when others are added. Source: none: bookkeeping. Kind: L -/
theorem RestsOn.mono {probes probes' : List Probe} {check : DepthCheck} {time : ℚ} {p : Probe}
    (h : RestsOn D probes check time p) (hsub : probes ⊆ probes') : RestsOn D probes' check time p :=
  ⟨hsub h.reported, h.judged, h.before, h.recent⟩

/-- A request that goes on with a verdict that rests on a probe. Source:
`lib/admission/queue-depth-gate.ts` `queueDepthGate`. Kind: L -/
theorem Sourced.goto (h : Sourced D w) (hpc : ∀ check time, pc = .decided check time →
    check = failOpen ∨ ∃ p, RestsOn D w.probes check time p) : Sourced D (w.goto n pc) where
  cache := h.cache
  writes := h.writes
  calls m trainId check time hcall := by
    rcases calls_goto hcall with hold | hnew
    · exact h.calls m trainId check time hold
    · exact hpc check time hnew.symm

/-- What a request reads is recent. Source: `lib/admission/queue-depth-gate.ts` `queueDepthGate`. Kind: L -/
theorem Sourced.restsOn_seen (h : Sourced D w) {trainId : TrainId} {stored : Stored Probe}
    (hseen : seen w.now (w.cache trainId) = some stored) :
    RestsOn D w.probes (judge stored.value.depth) w.now stored.value := by
  have hkey := eq_some_of_seen hseen
  obtain ⟨hprobe, hbefore, e, hexpire, hle⟩ := h.cache trainId stored hkey
  refine ⟨hprobe, rfl, hbefore, lt_of_lt_of_le ?_ hle⟩
  by_contra hgone
  simp [hkey, seen, Stored.gone, hexpire, not_lt.mp hgone] at hseen

/-- The broker's answer is a probe. Source: `lib/admission/queue-depth-gate.ts` `queueDepthGate`. Kind: L -/
theorem Sourced.answer (h : Sourced D w) (hD : 0 ≤ D) (trainId : TrainId) :
    Sourced D (w.answer n trainId) := by
  let probe : Probe := ⟨fetchQueueDepth w.lags, w.now⟩
  let w₁ : DepthGate := { w with probes := w.probes ++ [probe], writes := w.writes ++ [⟨trainId, probe⟩] }
  have hsub : w.probes ⊆ w₁.probes := List.subset_append_left ..
  have hmem : probe ∈ w₁.probes := List.mem_append_right _ (List.mem_singleton_self _)
  have h₁ : Sourced D w₁ := by
    refine ⟨fun trainId stored hkey => ?_, fun write hwrite => ?_, fun m trainId check time hcall => ?_⟩
    · obtain ⟨hprobe, hrest⟩ := h.cache trainId stored hkey
      exact ⟨hsub hprobe, hrest⟩
    · rcases List.mem_append.mp hwrite with hold | hnew
      · exact ⟨hsub (h.writes write hold).1, (h.writes write hold).2⟩
      · obtain rfl := List.mem_singleton.mp hnew
        exact ⟨hmem, le_rfl⟩
    · exact (h.calls m trainId check time hcall).imp_right fun ⟨p, hp⟩ => ⟨p, hp.mono hsub⟩
  refine h₁.goto fun check time hpc => .inr ⟨probe, ?_⟩
  cases hpc
  refine ⟨hmem, rfl, le_rfl, ?_⟩
  simp only [probe, cacheTtlSeconds]
  linarith

/-- A write that is prompt. Source: `lib/admission/queue-depth-gate.ts` `queueDepthGate`. Kind: L -/
theorem Sourced.store (h : Sourced D w) {write : CacheWrite} (hwrite : write ∈ w.writes)
    (hprompt : w.now ≤ write.probe.time + D) (writes : List CacheWrite) (hsub : writes ⊆ w.writes) :
    Sourced D { w.store write with writes := writes } where
  cache trainId stored hkey := by
    by_cases htrain : trainId = write.trainId
    · obtain ⟨hprobe, hbefore⟩ := h.writes write hwrite
      rw [htrain] at hkey
      have hnew : stored = ⟨write.probe, some (w.now + cacheTtlSeconds * 1000)⟩ := by
        simpa [DepthGate.store, setEx] using hkey.symm
      rw [hnew]
      exact ⟨hprobe, hbefore, _, rfl, by linarith⟩
    · have hold : w.cache trainId = some stored := by
        simpa [DepthGate.store, Function.update_of_ne htrain] using hkey
      exact h.cache trainId stored hold
  writes other hother := h.writes other (hsub hother)
  calls := h.calls

/-- **What a step keeps.** Source: `lib/admission/queue-depth-gate.ts` `queueDepthGate`. Kind: L -/
theorem Sourced.step (h : Sourced D w) (hD : 0 ≤ D) (hprompt : Prompt D w a)
    (hstep : DepthGate.step w a = some w') : Sourced D w' := by
  cases a with
  | tick d =>
    obtain ⟨hd, hnext⟩ := Option.ite_none_right_eq_some.mp hstep
    cases hnext
    refine ⟨fun trainId stored hkey => ?_, fun write hwrite => ?_, h.calls⟩
    · obtain ⟨hprobe, hbefore, hexpire⟩ := h.cache trainId stored hkey
      exact ⟨hprobe, hbefore.trans (le_add_of_nonneg_right hd), hexpire⟩
    · exact ⟨(h.writes write hwrite).1, (h.writes write hwrite).2.trans (le_add_of_nonneg_right hd)⟩
  | drift lags =>
    cases hstep
    exact ⟨h.cache, h.writes, h.calls⟩
  | call trainId =>
    cases hstep
    refine ⟨h.cache, h.writes, fun m train check time hcall => ?_⟩
    simp only [List.getElem?_append] at hcall
    split at hcall
    · exact h.calls m train check time hcall
    · have hnew := List.mem_of_getElem? hcall
      cases List.mem_singleton.mp hnew
  | get n transport =>
    simp only [DepthGate.step] at hstep
    split at hstep
    · split at hstep
      · rename_i cached hseen
        cases hstep
        refine h.goto fun check time hpc => .inr ⟨cached.value, ?_⟩
        cases hpc
        exact h.restsOn_seen hseen
      · cases hstep
        exact h.goto fun check time hpc => by cases hpc
    · cases hstep
  | probe n transport =>
    simp only [DepthGate.step] at hstep
    split at hstep
    · cases transport with
      | answered =>
        cases hstep
        exact h.answer hD _
      | refused | lost =>
        cases hstep
        exact h.goto fun check time hpc => .inl (by cases hpc; rfl)
    · cases hstep
  | set k transport =>
    simp only [DepthGate.step] at hstep
    split at hstep
    · rename_i write hwrite
      have hmem := List.mem_of_getElem? hwrite
      have hsub : w.writes.eraseIdx k ⊆ w.writes := List.eraseIdx_subset
      cases transport with
      | answered | lost =>
        cases hstep
        exact h.store hmem (hprompt write hwrite (by simp)) _ hsub
      | refused =>
        cases hstep
        exact ⟨h.cache, fun other hother => h.writes other (hsub hother), h.calls⟩
    · cases hstep

end sourced

end DepthGate

end TrainsAndTracks.Admission
