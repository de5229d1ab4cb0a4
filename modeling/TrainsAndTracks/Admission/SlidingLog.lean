import Mathlib.Algebra.Order.Floor.Semiring
import Mathlib.Data.Rat.Floor
import TrainsAndTracks.Admission.Redis
import TrainsAndTracks.Found.Window

/-!
# The sliding-window log of the admin endpoints

`lib/admission/lua-sliding-log.ts` and `lib/admin/auth.ts`. One check is one `EVAL`, which Redis runs
alone, so a history of checks is a list of evaluations in the order in which Redis ran them. Each carries
the caller's own `Date.now()` and the clock of the server, by which keys expire.

* `script` — the Lua script over one key; `luaSlidingWindowLog` — the outcome of its reply.
* `decisions`, `after` — what a list of evaluations decides and what it leaves in Redis.
* `requireAdmin` — the caller: the bearer token, then the bucket of the token for the kind of request.

`kept` is what the script counts. Everything about one evaluation is said in its terms: `admits_iff`,
`remaining_eq`, `mem_next`. What a history decides on a key depends on the evaluations on that key
(`decisions_on`), so the results about histories are proved for one key.
-/

namespace TrainsAndTracks.Admission

open Found

/-! ## The script and its caller -/

/-- What the script returns. Source: `lib/admission/lua-sliding-log.ts` `SCRIPT`. Kind: D -/
structure Reply where
  ok : ℕ
  remaining : ℕ
  retryAfterMs : ℤ

/-- The Lua script, run at `server` on the key's state. Numbers it returns are cut to integers.
Source: `lib/admission/lua-sliding-log.ts` `SCRIPT`. Kind: D -/
def script (server : ℚ) (key : Option (Stored SortedSet)) (nowMs windowMs : ℚ) (limit : ℕ)
    (member : String) : Reply × Option (Stored SortedSet) :=
  let windowStart := nowMs - windowMs
  let key := zremrangebyscore (seen server key) windowStart
  let count := zcard key
  if count < limit then
    (⟨1, limit - count - 1, 0⟩, some (pexpire server (zadd key nowMs member) (windowMs * 2)))
  else
    let retryAfterMs :=
      match zrangeFirst key with
      | some oldest => if oldest + windowMs - nowMs < 0 then 0 else oldest + windowMs - nowMs
      | none => windowMs
    (⟨0, 0, ⌊retryAfterMs⌋⟩, key)

/-- What is asked of the log. Source: `lib/admission/lua-sliding-log.ts` `LuaRateLimitArgs`. Kind: D -/
structure LuaRateLimitArgs where
  key : String
  limit : ℕ
  windowSeconds : ℚ
deriving DecidableEq

/-- What the check returns. Source: `lib/admission/lua-sliding-log.ts` `LuaRateLimitOutcome`. Kind: D -/
structure LuaRateLimitOutcome where
  success : Bool
  limit : ℕ
  remaining : ℕ
  retryAfterSeconds : ℤ
  windowSeconds : ℚ
  degraded : Bool
deriving DecidableEq

/-- `windowMs`. Source: `lib/admission/lua-sliding-log.ts` `luaSlidingWindowLog`. Kind: D -/
def LuaRateLimitArgs.windowMs (args : LuaRateLimitArgs) : ℚ := args.windowSeconds * 1000

/-- What becomes of the script's reply; `none` is an error of Redis, which admits the caller.
Source: `lib/admission/lua-sliding-log.ts` `luaSlidingWindowLog`. Kind: D -/
def luaSlidingWindowLog (args : LuaRateLimitArgs) : Option Reply → LuaRateLimitOutcome
  | some raw =>
    { success := raw.ok == 1
      limit := args.limit
      remaining := raw.remaining
      retryAfterSeconds := max 0 ⌈(raw.retryAfterMs : ℚ) / 1000⌉
      windowSeconds := args.windowSeconds
      degraded := false }
  | none =>
    { success := true
      limit := args.limit
      remaining := args.limit
      retryAfterSeconds := 0
      windowSeconds := args.windowSeconds
      degraded := true }

/-! ## Histories of evaluations -/

/-- One evaluation: the arguments, the caller's `Date.now()`, the member it makes of that and a random
string, and the server's clock. Source: `lib/admission/lua-sliding-log.ts` `luaSlidingWindowLog`.
Kind: D -/
structure Evaluation where
  args : LuaRateLimitArgs
  now : ℚ
  member : String
  server : ℚ
deriving DecidableEq

/-- The member that an evaluation adds when it admits. Source: `lib/admission/lua-sliding-log.ts`
`SCRIPT`. Kind: D -/
def Evaluation.hit (e : Evaluation) : Hit := ⟨e.member, e.now⟩

/-- The outcome of one evaluation on the key's state. Source: `lib/admission/lua-sliding-log.ts`
`luaSlidingWindowLog`. Kind: D -/
def answer (key : Option (Stored SortedSet)) (e : Evaluation) : LuaRateLimitOutcome :=
  luaSlidingWindowLog e.args (script e.server key e.now e.args.windowMs e.args.limit e.member).1

/-- What one evaluation leaves under the key. Source: `lib/admission/lua-sliding-log.ts` `SCRIPT`.
Kind: D -/
def next (key : Option (Stored SortedSet)) (e : Evaluation) : Option (Stored SortedSet) :=
  (script e.server key e.now e.args.windowMs e.args.limit e.member).2

/-- The outcomes of evaluations on one key, in order. Source: `lib/admission/lua-sliding-log.ts`
`luaSlidingWindowLog`. Kind: D -/
def keyDecisions (key : Option (Stored SortedSet)) :
    List Evaluation → List (Evaluation × LuaRateLimitOutcome)
  | [] => []
  | e :: es => (e, answer key e) :: keyDecisions (next key e) es

/-- What evaluations on one key leave under it. Source: `lib/admission/lua-sliding-log.ts` `SCRIPT`.
Kind: D -/
def keyAfter (key : Option (Stored SortedSet)) (es : List Evaluation) : Option (Stored SortedSet) :=
  es.foldl next key

/-- The sorted sets in Redis. Source: `lib/admission/lua-sliding-log.ts` `SCRIPT`. Kind: D -/
abbrev Redis := String → Option (Stored SortedSet)

/-- Redis before the first evaluation. Source: none: infrastructure. Kind: D -/
def noKeys : Redis := fun _ => none

/-- One evaluation, on the key of its arguments. Source: `lib/admission/lua-sliding-log.ts`
`luaSlidingWindowLog`. Kind: D -/
def evaluate (redis : Redis) (e : Evaluation) : LuaRateLimitOutcome × Redis :=
  (answer (redis e.args.key) e, Function.update redis e.args.key (next (redis e.args.key) e))

/-- What a list of evaluations leaves. Source: `lib/admission/lua-sliding-log.ts` `luaSlidingWindowLog`.
Kind: D -/
def after (redis : Redis) (es : List Evaluation) : Redis :=
  es.foldl (fun redis e => (evaluate redis e).2) redis

/-- The outcomes of a list of evaluations, in order. Source: `lib/admission/lua-sliding-log.ts`
`luaSlidingWindowLog`. Kind: D -/
def decisions (redis : Redis) : List Evaluation → List (Evaluation × LuaRateLimitOutcome)
  | [] => []
  | e :: es => (e, (evaluate redis e).1) :: decisions (evaluate redis e).2 es

/-- The evaluations that admitted their caller. Source: `lib/admission/lua-sliding-log.ts`
`luaSlidingWindowLog`. Kind: D -/
def admitted (ds : List (Evaluation × LuaRateLimitOutcome)) : List Evaluation :=
  (ds.filter fun d => d.2.success).map Prod.fst

/-- When callers were admitted, by their own clocks. Source: `lib/admission/lua-sliding-log.ts`
`luaSlidingWindowLog`. Kind: D -/
def stamps (ds : List (Evaluation × LuaRateLimitOutcome)) : List ℚ := (admitted ds).map Evaluation.now

/-- The evaluations on one key. Source: `lib/admission/lua-sliding-log.ts` `LuaRateLimitArgs`. Kind: D -/
def onKey (key : String) (es : List Evaluation) : List Evaluation :=
  es.filter fun e => e.args.key = key

/-- The decisions on one key. Source: `lib/admission/lua-sliding-log.ts` `LuaRateLimitArgs`. Kind: D -/
def decisionsOn (key : String) (ds : List (Evaluation × LuaRateLimitOutcome)) :
    List (Evaluation × LuaRateLimitOutcome) :=
  ds.filter fun d => d.1.args.key = key

/-! ## The caller -/

/-- The two budgets of a token. Source: `lib/admin/auth.ts` `AdminAuthKind`. Kind: D -/
inductive AdminAuthKind
  | read
  | write
deriving DecidableEq

/-- `auth.errorCode`: why a caller is turned away. Source: `lib/admin/auth.ts` `AdminAuthResult`. Kind: D.
Fidelity: exact -/
inductive AdminErrorCode
  | adminUnauthorized
  | rateLimitExceeded
deriving DecidableEq, Repr

/-- The verdict on a caller. Source: `lib/admin/auth.ts` `AdminAuthResult`. Kind: D -/
structure AdminAuthResult where
  ok : Bool
  tokenFingerprint : Option String
  errorCode : Option AdminErrorCode
  retryAfterSeconds : Option ℤ
deriving DecidableEq

/-- A budget: the keys it is kept under, and its window. Source: `lib/admin/auth.ts` `BUCKETS`. Kind: D -/
structure AdminBucket where
  keyPrefix : String
  limit : ℕ
  windowSeconds : ℚ

/-- The budgets. Source: `lib/admin/auth.ts` `BUCKETS`. Kind: D -/
def buckets : AdminAuthKind → AdminBucket
  | .write => ⟨"rl:admin:w", 30, 60⟩
  | .read => ⟨"rl:admin:r", 300, 60⟩

/-- The arguments of the check for one token. Source: `lib/admin/auth.ts` `requireAdmin`. Kind: D -/
def adminArgs (kind : AdminAuthKind) (tokenFingerprint : String) : LuaRateLimitArgs where
  key := (buckets kind).keyPrefix ++ ":" ++ tokenFingerprint
  limit := (buckets kind).limit
  windowSeconds := (buckets kind).windowSeconds

/-- What `\s` matches. Source: `lib/admin/auth.ts` `requireAdmin`. Kind: D -/
def isSpace (c : Char) : Bool :=
  c.isWhitespace || c.toNat ∈ [0x0b, 0x0c, 0xa0, 0x1680, 0x2028, 0x2029, 0x202f, 0x205f, 0x3000, 0xfeff] ||
    (0x2000 ≤ c.toNat && c.toNat ≤ 0x200a)

/-- What `.` does not match. Source: `lib/admin/auth.ts` `requireAdmin`. Kind: D -/
def isLineEnd (c : Char) : Bool := c.toNat ∈ [0x0a, 0x0d, 0x2028, 0x2029]

/-- The trimmed token of a header that matches `/^Bearer\s+(.+)$/`. A header with nothing but white space
after the scheme has no token here; the source may match it with an empty one, which no secret equals.
Source: `lib/admin/auth.ts` `requireAdmin`. Kind: D -/
def bearerToken (header : String) : Option String :=
  let rest := header.toList.drop 6
  let token := rest.dropWhile isSpace
  if header.toList.take 6 = "Bearer".toList ∧ rest.head?.any isSpace ∧ token ≠ [] ∧
      token.all (fun c => !isLineEnd c) then
    some (String.ofList (token.reverse.dropWhile isSpace).reverse)
  else none

/-- What the caller sees of an evaluation: the reply, or an error of Redis before or after the script has
run. Source: `lib/admission/lua-sliding-log.ts` `luaSlidingWindowLog`. Kind: D -/
inductive Transport
  | answered
  | refused
  | lost
deriving DecidableEq

/-- The outcome of an evaluation over that transport. Source: `lib/admission/lua-sliding-log.ts`
`luaSlidingWindowLog`. Kind: D -/
def evaluateOver (transport : Transport) (redis : Redis) (e : Evaluation) : LuaRateLimitOutcome × Redis :=
  match transport with
  | .answered => evaluate redis e
  | .refused => (luaSlidingWindowLog e.args none, redis)
  | .lost => (luaSlidingWindowLog e.args none, (evaluate redis e).2)

/-- A request to an admin endpoint: its header, the kind its route asks for, and how its check goes.
Source: `lib/admin/auth.ts` `requireAdmin`. Kind: D -/
structure AdminRequest where
  header : Option String
  kind : Option AdminAuthKind
  now : ℚ
  member : String
  server : ℚ
  transport : Transport

/-- The bucket a request counts in: the strict one unless its route asks for the other.
Source: `lib/admin/auth.ts` `requireAdmin`. Kind: D -/
def AdminRequest.bucket (r : AdminRequest) : AdminAuthKind := r.kind.getD .write

/-- The verdict on a request, `secret` being `ADMIN_SECRET` and `fingerprint` the hash of a token, or the
text of the error thrown. Source: `lib/admin/auth.ts` `requireAdmin`. Kind: D -/
def requireAdmin (secret : Option String) (fingerprint : String → String) (redis : Redis)
    (r : AdminRequest) : Except String AdminAuthResult × Redis :=
  match r.header.bind bearerToken with
  | none => (.ok ⟨false, none, some .adminUnauthorized, none⟩, redis)
  | some token =>
    match secret with
    | none => (.error "env var ADMIN_SECRET missing", redis)
    | some expected =>
      if expected = "" then (.error "env var ADMIN_SECRET missing", redis)
      else if token = expected then
        let tokenFingerprint := fingerprint token
        let (rl, redis) := evaluateOver r.transport redis
          ⟨adminArgs r.bucket tokenFingerprint, r.now, r.member, r.server⟩
        if rl.success then (.ok ⟨true, some tokenFingerprint, none, none⟩, redis)
        else
          (.ok ⟨false, some tokenFingerprint, some .rateLimitExceeded, some rl.retryAfterSeconds⟩, redis)
      else (.ok ⟨false, none, some .adminUnauthorized, none⟩, redis)

/-- The verdicts on requests, in order. Source: `lib/admin/auth.ts` `requireAdmin`. Kind: D -/
def adminVerdicts (secret : Option String) (fingerprint : String → String) (redis : Redis) :
    List AdminRequest → List (AdminRequest × Except String AdminAuthResult)
  | [] => []
  | r :: rs =>
    (r, (requireAdmin secret fingerprint redis r).1) ::
      adminVerdicts secret fingerprint (requireAdmin secret fingerprint redis r).2 rs

/-! ## One evaluation -/

/-- The members that the script counts: those it finds that are newer than one window.
Source: `lib/admission/lua-sliding-log.ts` `SCRIPT`. Kind: D -/
def kept (key : Option (Stored SortedSet)) (e : Evaluation) : List Hit :=
  (hitsOf (seen e.server key)).filter fun hit => e.now - e.args.windowMs < hit.score

section one

variable {key : Option (Stored SortedSet)} {e : Evaluation} {hit : Hit}

/-- A member that is counted. Source: `lib/admission/lua-sliding-log.ts` `SCRIPT`. Kind: L -/
theorem mem_kept :
    hit ∈ kept key e ↔ hit ∈ hitsOf (seen e.server key) ∧ e.now - e.args.windowMs < hit.score := by
  unfold kept
  simp

/-- No member is counted twice. Source: `lib/admission/lua-sliding-log.ts` `SCRIPT`. Kind: L -/
theorem kept_nodup : (kept key e).Nodup := by
  have hmem : ((hitsOf (seen e.server key)).map Hit.member).Nodup := by
    cases seen e.server key with
    | none => exact List.nodup_nil
    | some stored => exact stored.value.nodup
  exact (List.Nodup.of_map _ hmem).filter _

/-- The members that are left when the old ones are removed are the ones counted. Source:
`lib/admission/lua-sliding-log.ts` `SCRIPT`. Kind: L -/
theorem zcard_eq :
    zcard (zremrangebyscore (seen e.server key) (e.now - e.args.windowMs)) = (kept key e).length := by
  unfold zcard kept
  rw [hitsOf_zremrangebyscore]

/-- The branch that records the hit. Source: `lib/admission/lua-sliding-log.ts` `SCRIPT`. Kind: L -/
theorem script_of_lt (h : (kept key e).length < e.args.limit) :
    script e.server key e.now e.args.windowMs e.args.limit e.member =
      (⟨1, e.args.limit - (kept key e).length - 1, 0⟩,
        some (pexpire e.server
          (zadd (zremrangebyscore (seen e.server key) (e.now - e.args.windowMs)) e.now e.member)
          (e.args.windowMs * 2))) := by
  rw [← zcard_eq] at h ⊢
  exact if_pos h

/-- The branch over the limit. Source: `lib/admission/lua-sliding-log.ts` `SCRIPT`. Kind: L -/
theorem script_of_not_lt (h : ¬ (kept key e).length < e.args.limit) :
    ∃ retryAfterMs, script e.server key e.now e.args.windowMs e.args.limit e.member =
      (⟨0, 0, retryAfterMs⟩,
        zremrangebyscore (seen e.server key) (e.now - e.args.windowMs)) := by
  rw [← zcard_eq] at h
  exact ⟨_, if_neg h⟩

/-- The caller is admitted when fewer than `limit` members are counted. Source:
`lib/admission/lua-sliding-log.ts` `SCRIPT`. Kind: L -/
theorem admits_iff : (answer key e).success = true ↔ (kept key e).length < e.args.limit := by
  unfold answer
  by_cases h : (kept key e).length < e.args.limit
  · rw [script_of_lt h]
    exact iff_of_true rfl h
  · obtain ⟨retryAfterMs, hscript⟩ := script_of_not_lt h
    rw [hscript]
    exact iff_of_false Bool.false_ne_true h

/-- The remaining calls, admitted or not. Source: `lib/admission/lua-sliding-log.ts` `SCRIPT`. Kind: L -/
theorem remaining_eq (key : Option (Stored SortedSet)) (e : Evaluation) :
    (answer key e).remaining = e.args.limit - (kept key e).length - 1 := by
  unfold answer
  by_cases h : (kept key e).length < e.args.limit
  · rw [script_of_lt h]
    rfl
  · obtain ⟨retryAfterMs, hscript⟩ := script_of_not_lt h
    rw [hscript]
    show 0 = e.args.limit - (kept key e).length - 1
    omega

/-- What an admission leaves: the counted members and the new one, for two windows.
Source: `lib/admission/lua-sliding-log.ts` `SCRIPT`. Kind: L -/
theorem next_of_admits (h : (answer key e).success = true) :
    ∃ stored, next key e = some stored ∧
      stored.value.hits = (kept key e).filter (fun hit => hit.member ≠ e.member) ++ [e.hit] ∧
      stored.expireAt = some (e.server + e.args.windowMs * 2) := by
  unfold next
  rw [script_of_lt (admits_iff.mp h)]
  refine ⟨_, rfl, ?_, rfl⟩
  show (hitsOf (zremrangebyscore _ _)).filter _ ++ _ = _
  rw [hitsOf_zremrangebyscore]
  rfl

/-- What a refusal leaves: the counted members, under the expiry they had. Source:
`lib/admission/lua-sliding-log.ts` `SCRIPT`. Kind: L -/
theorem next_of_refuses (h : (answer key e).success ≠ true) :
    hitsOf (next key e) = kept key e ∧
      ∀ stored, next key e = some stored →
        (seen e.server key).bind Stored.expireAt = stored.expireAt := by
  unfold next
  obtain ⟨retryAfterMs, hscript⟩ := script_of_not_lt (mt admits_iff.mpr h)
  rw [hscript]
  exact ⟨hitsOf_zremrangebyscore, fun stored hstored => expireAt_zremrangebyscore hstored⟩

/-- What is under the key afterwards was counted or is the new member. Source:
`lib/admission/lua-sliding-log.ts` `SCRIPT`. Kind: L -/
theorem mem_next (h : hit ∈ hitsOf (next key e)) :
    hit ∈ kept key e ∨ (answer key e).success = true ∧ hit = e.hit := by
  by_cases hs : (answer key e).success = true
  · obtain ⟨stored, hnext, hhits, -⟩ := next_of_admits hs
    rw [hnext] at h
    have hmem : hit ∈ stored.value.hits := h
    rw [hhits, List.mem_append, List.mem_singleton] at hmem
    rcases hmem with hold | hnew
    · exact .inl (List.mem_of_mem_filter hold)
    · exact .inr ⟨hs, hnew⟩
  · rw [(next_of_refuses hs).1] at h
    exact .inl h

end one

/-! ## Histories -/

section histories

variable {key : Option (Stored SortedSet)} {redis : Redis} {e : Evaluation} {es fs : List Evaluation}

/-- One more evaluation. Source: none: bookkeeping. Kind: L -/
theorem keyDecisions_append :
    keyDecisions key (es ++ fs) = keyDecisions key es ++ keyDecisions (keyAfter key es) fs := by
  induction es generalizing key with
  | nil => rfl
  | cons e es ih => exact congrArg (_ :: ·) ih

/-- One more evaluation. Source: none: bookkeeping. Kind: L -/
theorem keyDecisions_snoc :
    keyDecisions key (es ++ [e]) = keyDecisions key es ++ [(e, answer (keyAfter key es) e)] :=
  keyDecisions_append

/-- One more evaluation. Source: none: bookkeeping. Kind: L -/
theorem keyAfter_snoc : keyAfter key (es ++ [e]) = next (keyAfter key es) e := by
  unfold keyAfter
  rw [List.foldl_append]
  rfl

/-- Admissions go decision by decision. Source: none: bookkeeping. Kind: L -/
theorem admitted_append {ds ds' : List (Evaluation × LuaRateLimitOutcome)} :
    admitted (ds ++ ds') = admitted ds ++ admitted ds' := by
  unfold admitted
  rw [List.filter_append, List.map_append]

/-- One more decision that admits. Source: none: bookkeeping. Kind: L -/
theorem admitted_snoc {ds : List (Evaluation × LuaRateLimitOutcome)} {out : LuaRateLimitOutcome} :
    admitted (ds ++ [(e, out)]) = admitted ds ++ if out.success then [e] else [] := by
  rw [admitted_append]
  unfold admitted
  cases h : out.success <;> simp [h]

/-- Who was admitted was evaluated, in this order. Source: none: bookkeeping. Kind: L -/
theorem admitted_sublist : (admitted (keyDecisions key es)).Sublist es := by
  induction es generalizing key with
  | nil => exact .refl _
  | cons e es ih =>
    unfold keyDecisions admitted
    rw [List.filter_cons]
    split
    · exact ih.cons_cons e
    · exact ih.cons e

/-- The key of an evaluation after it. Source: `lib/admission/lua-sliding-log.ts` `SCRIPT`. Kind: L -/
theorem evaluate_key : (evaluate redis e).2 e.args.key = next (redis e.args.key) e := by
  unfold evaluate
  exact Function.update_self ..

/-- The other keys after an evaluation. Source: `lib/admission/lua-sliding-log.ts` `SCRIPT`. Kind: L -/
theorem evaluate_other {k : String} (hk : e.args.key ≠ k) : (evaluate redis e).2 k = redis k := by
  unfold evaluate
  exact Function.update_of_ne (Ne.symm hk) ..

/-- What is left under a key depends on the evaluations on it. Source:
`lib/admission/lua-sliding-log.ts` `SCRIPT`. Kind: L -/
theorem after_on (k : String) : after redis es k = keyAfter (redis k) (onKey k es) := by
  induction es generalizing redis with
  | nil => rfl
  | cons e es ih =>
    refine ih.trans ?_
    unfold onKey
    dsimp only
    by_cases hk : e.args.key = k
    · subst hk
      rw [List.filter_cons_of_pos (by simp), evaluate_key]
      rfl
    · rw [List.filter_cons_of_neg (by simpa using hk), evaluate_other hk]

/-- **Decisions on a key depend on the evaluations on it.** Source: `lib/admission/lua-sliding-log.ts`
`SCRIPT`. Kind: L -/
theorem decisions_on (k : String) :
    decisionsOn k (decisions redis es) = keyDecisions (redis k) (onKey k es) := by
  induction es generalizing redis with
  | nil => rfl
  | cons e es ih =>
    unfold decisions decisionsOn onKey
    by_cases hk : e.args.key = k
    · subst hk
      rw [List.filter_cons_of_pos (by simp), List.filter_cons_of_pos (by simp)]
      unfold keyDecisions
      refine congrArg (_ :: ·) (ih.trans ?_)
      rw [evaluate_key]
      rfl
    · rw [List.filter_cons_of_neg (by simpa using hk), List.filter_cons_of_neg (by simpa using hk)]
      refine ih.trans ?_
      rw [evaluate_other hk]
      rfl

/-- What is under the key was admitted. Source: `lib/admission/lua-sliding-log.ts` `SCRIPT`. Kind: L -/
theorem mem_hitsOf_after {hit : Hit} (h : hit ∈ hitsOf (keyAfter none es)) :
    ∃ a ∈ admitted (keyDecisions none es), a.hit = hit := by
  induction es using List.reverseRecOn with
  | nil => cases h
  | append_singleton es e ih =>
    rw [keyAfter_snoc] at h
    rw [keyDecisions_snoc, admitted_snoc]
    rcases mem_next h with hkept | ⟨hs, rfl⟩
    · obtain ⟨a, ha, rfl⟩ := ih (mem_seen (mem_kept.mp hkept).1)
      exact ⟨a, List.mem_append_left _ ha, rfl⟩
    · rw [if_pos hs]
      exact ⟨e, List.mem_append_right _ (List.mem_singleton_self e), rfl⟩

end histories

end TrainsAndTracks.Admission
