import TrainsAndTracks.Admission.SlidingLog

/-!
# How many callers the sliding-window log admits

* `LimitKept` — no window holds more admissions on a key than its limit. `bounded_of_remembered` proves it
  for any clocks of the callers under the condition that no evaluation misses what another clock has had
  evicted; `limit_exceeded` is the run without it, two instances whose clocks are a tenth of a second apart.
* `slidingWindowLog_exact` — with the server's clock for everyone the log is exact: who is admitted, what
  remains, and what each key and each bucket sees of the others.

`length_kept` carries the exact case: what is under the key is what was admitted within one window
(`mem_seen_after`), although entries are removed by whoever comes next and the key may have expired.
-/

namespace TrainsAndTracks.Admission

open Found

/-! ## Counting admissions by members -/

section counting

variable {key : Option (Stored SortedSet)} {e : Evaluation} {ds : List (Evaluation × LuaRateLimitOutcome)}
variable {p : ℚ → Bool}

/-- The members of the admissions that `p` picks out by their stamps. Source: none: bookkeeping.
Kind: D -/
def membersAt (p : ℚ → Bool) (ds : List (Evaluation × LuaRateLimitOutcome)) : List Hit :=
  ((admitted ds).filter fun a => p a.now).map Evaluation.hit

/-- A member of an admission. Source: none: bookkeeping. Kind: L -/
theorem mem_membersAt {hit : Hit} :
    hit ∈ membersAt p ds ↔ ∃ a ∈ admitted ds, p a.now = true ∧ a.hit = hit := by
  unfold membersAt
  simp [and_assoc]

/-- There are as many as there are such stamps. Source: none: bookkeeping. Kind: L -/
theorem length_membersAt : (membersAt p ds).length = ((stamps ds).filter p).length := by
  unfold membersAt stamps
  rw [List.filter_map, List.length_map, List.length_map]
  rfl

/-- Admissions with distinct members are distinct. Source: none: bookkeeping. Kind: L -/
theorem nodup_membersAt (h : ((admitted ds).map Evaluation.member).Nodup) :
    (membersAt p ds).Nodup := by
  refine List.Nodup.of_map Hit.member ?_
  unfold membersAt
  rw [List.map_map]
  exact h.sublist (List.filter_sublist.map _)

/-- Admissions that are all counted are no more than what is counted. Source:
`lib/admission/lua-sliding-log.ts` `SCRIPT`. Kind: L -/
theorem length_filter_le (h : ((admitted ds).map Evaluation.member).Nodup)
    (hkept : ∀ a ∈ admitted ds, p a.now = true → a.hit ∈ kept key e) :
    ((stamps ds).filter p).length ≤ (kept key e).length := by
  rw [← length_membersAt]
  refine (List.subperm_of_subset (nodup_membersAt h) fun hit hmem => ?_).length_le
  obtain ⟨a, ha, hp, rfl⟩ := mem_membersAt.mp hmem
  exact hkept a ha hp

end counting

/-! ## Clocks that disagree -/

/-- The evaluation finds `limit` newer members, or everything that was admitted less than a window away
from its stamp is still there: no other caller's clock has made Redis evict or expire it.
Source: `lib/admission/lua-sliding-log.ts` `SCRIPT`. Kind: D -/
def Remembered (key : Option (Stored SortedSet)) (ds : List (Evaluation × LuaRateLimitOutcome))
    (e : Evaluation) : Prop :=
  e.args.limit ≤ (kept key e).length ∨
    ∀ a ∈ admitted ds, e.now - e.args.windowMs < a.now → a.now < e.now + e.args.windowMs →
      a.hit ∈ hitsOf (seen e.server key)

/-- No window holds more admissions than the limit, by the stamps of those admitted. Source:
`lib/admission/lua-sliding-log.ts` `LuaRateLimitArgs`. Kind: D -/
def LimitKept (args : LuaRateLimitArgs) (es : List Evaluation) : Prop :=
  ∀ t, (within args.windowMs t (stamps (keyDecisions none es))).length ≤ args.limit

/-- **The limit when nothing near is forgotten.** Whatever the callers' clocks say, no window ever holds
more than `limit` admissions on a key, provided that each evaluation finds what was admitted less than a
window away from its stamp. Source: `lib/admission/lua-sliding-log.ts` `SCRIPT`. Kind: P -/
theorem bounded_of_remembered (args : LuaRateLimitArgs) (es : List Evaluation)
    (hargs : ∀ e ∈ es, e.args = args) (hdistinct : (es.map Evaluation.member).Nodup)
    (hrem : ∀ before e rest, es = before ++ e :: rest →
      Remembered (keyAfter none before) (keyDecisions none before) e) : LimitKept args es := by
  show Bounded args.limit args.windowMs (stamps (keyDecisions none es))
  induction es using List.reverseRecOn with
  | nil => exact Bounded.nil
  | append_singleton es e ih =>
    have hbound := ih (fun f hf => hargs f (List.mem_append_left _ hf))
      (hdistinct.sublist ((List.sublist_append_left es [e]).map _))
      (fun before f rest heq => hrem before f (rest ++ [e]) (by rw [heq]; simp))
    have he : e.args = args := hargs e (List.mem_append_right _ (List.mem_singleton_self e))
    rw [keyDecisions_snoc]
    unfold stamps
    rw [admitted_snoc]
    split
    · rename_i hs
      rw [List.map_append]
      refine hbound.snoc ?_
      have hlt := admits_iff.mp hs
      have hall := (hrem es e [] rfl).resolve_left (Nat.not_le_of_lt hlt)
      have hnodup : ((admitted (keyDecisions none es)).map Evaluation.member).Nodup :=
        hdistinct.sublist
          ((admitted_sublist.trans (List.sublist_append_left es [e])).map Evaluation.member)
      rw [← he]
      refine lt_of_le_of_lt (length_filter_le hnodup fun a ha hp => ?_) hlt
      have hnear : e.now - e.args.windowMs < a.now ∧ a.now < e.now + e.args.windowMs := by
        simpa using hp
      exact mem_kept.mpr ⟨hall a ha hnear.1 hnear.2, hnear.1⟩
    · rw [List.append_nil]
      exact hbound

/-- Two callers, the second with a clock that is behind, and nothing evicted between them.
Source: `lib/admission/lua-sliding-log.ts` `SCRIPT`. Kind: P -/
theorem bounded_of_remembered_behind :
    LimitKept ⟨"rl:admin:w:1f3a90c2b47d", 1, 60⟩
      [⟨⟨"rl:admin:w:1f3a90c2b47d", 1, 60⟩, 1000, "1000", 900⟩,
        ⟨⟨"rl:admin:w:1f3a90c2b47d", 1, 60⟩, 400, "400", 950⟩] := by
  refine bounded_of_remembered _ _ (by decide +kernel) (by decide +kernel) fun before e rest heq => ?_
  match before with
  | [] =>
    obtain ⟨rfl, -⟩ := List.cons.inj heq
    exact .inr (by decide +kernel)
  | [_] =>
    obtain ⟨rfl, htail⟩ := List.cons.inj heq
    obtain ⟨rfl, -⟩ := List.cons.inj htail
    exact .inl (by decide +kernel)
  | _ :: _ :: before =>
    have hlength := congrArg List.length heq
    simp at hlength

/-! ### Two instances a tenth of a second apart -/

/-- The limit of the mutating admin endpoints, for one token. Source: `lib/admin/auth.ts` `BUCKETS`.
Kind: D -/
def writeArgs : LuaRateLimitArgs := adminArgs .write "1f3a90c2b47d"

/-- Thirty calls in thirty milliseconds; almost a minute later one through an instance whose clock is a
tenth of a second fast; ten milliseconds after that one through an instance that is on time.
Source: `lib/admission/lua-sliding-log.ts` `luaSlidingWindowLog`. Kind: D -/
def skewed : List Evaluation :=
  (List.range 30).map (fun i => ⟨writeArgs, i, toString i, i⟩) ++
    [⟨writeArgs, 60050, "60050", 59950⟩, ⟨writeArgs, 59960, "59960", 59960⟩]

/-- **A limit that is exceeded.** The fast instance evicts thirty hits that the other one still has to
count: thirty-one callers are admitted within one minute. Source: `lib/admission/lua-sliding-log.ts`
`SCRIPT`. Kind: P -/
theorem limit_exceeded :
    ¬ ∀ (args : LuaRateLimitArgs) (es : List Evaluation), 1 ≤ args.limit → 0 < args.windowSeconds →
      (∀ e ∈ es, e.args = args) → (es.map Evaluation.member).Nodup → LimitKept args es := by
  intro h
  have hbound := h writeArgs skewed (by decide) (by decide +kernel) (by decide +kernel)
    (by decide +kernel) 59960
  revert hbound
  decide +kernel

/-! ## One clock -/

/-- Evaluations by the server's own clock, in its order, with the limits and windows of their keys and a
member of their own each. Source: `lib/admission/lua-sliding-log.ts` `luaSlidingWindowLog`. Kind: D -/
structure Regular (es : List Evaluation) : Prop where
  limit_pos : ∀ e ∈ es, 1 ≤ e.args.limit
  window_pos : ∀ e ∈ es, 0 < e.args.windowSeconds
  fixed : ∀ e ∈ es, ∀ f ∈ es, e.args.key = f.args.key → e.args = f.args
  distinct : (es.map Evaluation.member).Nodup
  clock : ∀ e ∈ es, e.server = e.now
  sorted : (es.map Evaluation.now).Pairwise (· ≤ ·)

/-- Evaluations in the order of their stamps, by a server whose clock gains at most a window on the callers'
between two of them; with the limits and windows of their keys and a member of their own each.
Source: `lib/admission/lua-sliding-log.ts` `luaSlidingWindowLog`. Kind: D -/
structure Steady (es : List Evaluation) : Prop where
  limit_pos : ∀ e ∈ es, 1 ≤ e.args.limit
  window_pos : ∀ e ∈ es, 0 < e.args.windowSeconds
  fixed : ∀ e ∈ es, ∀ f ∈ es, e.args.key = f.args.key → e.args = f.args
  distinct : (es.map Evaluation.member).Nodup
  drift : es.Pairwise fun a e => e.server - a.server ≤ e.now - a.now + a.args.windowMs
  sorted : (es.map Evaluation.now).Pairwise (· ≤ ·)

section clock

variable {es : List Evaluation} {e : Evaluation} {args : LuaRateLimitArgs}

/-- Some of the evaluations. Source: none: bookkeeping. Kind: L -/
theorem Regular.sublist {fs : List Evaluation} (h : Regular es) (hsub : fs.Sublist es) : Regular fs where
  limit_pos f hf := h.limit_pos f (hsub.subset hf)
  window_pos f hf := h.window_pos f (hsub.subset hf)
  fixed f hf g hg := h.fixed f (hsub.subset hf) g (hsub.subset hg)
  distinct := h.distinct.sublist (hsub.map _)
  clock f hf := h.clock f (hsub.subset hf)
  sorted := h.sorted.sublist (hsub.map _)

/-- Some of the evaluations. Source: none: bookkeeping. Kind: L -/
theorem Steady.sublist {fs : List Evaluation} (h : Steady es) (hsub : fs.Sublist es) : Steady fs where
  limit_pos f hf := h.limit_pos f (hsub.subset hf)
  window_pos f hf := h.window_pos f (hsub.subset hf)
  fixed f hf g hg := h.fixed f (hsub.subset hf) g (hsub.subset hg)
  distinct := h.distinct.sublist (hsub.map _)
  drift := h.drift.sublist hsub
  sorted := h.sorted.sublist (hsub.map _)

/-- The last evaluation is the latest. Source: none: bookkeeping. Kind: L -/
theorem Steady.le_last (h : Steady (es ++ [e])) {f : Evaluation} (hf : f ∈ es) : f.now ≤ e.now := by
  have hsorted := h.sorted
  rw [List.map_append, List.pairwise_append] at hsorted
  exact hsorted.2.2 f.now (List.mem_map_of_mem hf) e.now (by simp)

/-- The last evaluation has a member of its own. Source: none: bookkeeping. Kind: L -/
theorem Steady.ne_last (h : Steady (es ++ [e])) {f : Evaluation} (hf : f ∈ es) :
    f.member ≠ e.member := by
  have hdistinct := h.distinct
  rw [List.map_append, List.nodup_append] at hdistinct
  exact hdistinct.2.2 f.member (List.mem_map_of_mem hf) e.member (by simp)

/-- How much the server's clock has gained when the last evaluation runs. Source: none: bookkeeping.
Kind: L -/
theorem Steady.drift_last (h : Steady (es ++ [e])) {f : Evaluation} (hf : f ∈ es) :
    e.server - f.server ≤ e.now - f.now + f.args.windowMs := by
  have hdrift := h.drift
  rw [List.pairwise_append] at hdrift
  exact hdrift.2.2 f hf e (List.mem_singleton_self e)

/-- Windows are positive. Source: none: bookkeeping. Kind: L -/
theorem Steady.windowMs_pos (h : Steady es) (he : e ∈ es) : 0 < e.args.windowMs := by
  have hpos := h.window_pos e he
  unfold LuaRateLimitArgs.windowMs
  positivity

/-- One clock gains nothing. Source: none: bookkeeping. Kind: L -/
theorem Regular.steady (h : Regular es) : Steady es where
  limit_pos := h.limit_pos
  window_pos := h.window_pos
  fixed := h.fixed
  distinct := h.distinct
  drift := by
    refine List.pairwise_of_forall_mem_list fun a ha e he => ?_
    have hpos := h.window_pos a ha
    have hwindow : 0 < a.args.windowMs := by
      unfold LuaRateLimitArgs.windowMs
      positivity
    rw [h.clock a ha, h.clock e he]
    linarith
  sorted := h.sorted

/-- The key expires two windows after the last admission, by the server's clock. Source:
`lib/admission/lua-sliding-log.ts` `SCRIPT`. Kind: L -/
theorem expireAt_after (h : Steady es) (hargs : ∀ f ∈ es, f.args = args) {stored : Stored SortedSet}
    (hstored : keyAfter none es = some stored) :
    ∃ b ∈ admitted (keyDecisions none es), stored.expireAt = some (b.server + args.windowMs * 2) ∧
      ∀ a ∈ admitted (keyDecisions none es), a.now ≤ b.now := by
  induction es using List.reverseRecOn generalizing stored with
  | nil => cases hstored
  | append_singleton es e ih =>
    have hes := h.sublist (List.sublist_append_left es [e])
    have hmem : e ∈ es ++ [e] := List.mem_append_right _ (List.mem_singleton_self e)
    have he : e.args = args := hargs e hmem
    rw [keyAfter_snoc] at hstored
    rw [keyDecisions_snoc, admitted_snoc]
    split
    · rename_i hs
      obtain ⟨stored', hnext, -, hexpire⟩ := next_of_admits hs
      obtain rfl : stored' = stored := Option.some.inj (hnext.symm.trans hstored)
      refine ⟨e, List.mem_append_right _ (List.mem_singleton_self e), he ▸ hexpire, fun a ha => ?_⟩
      rcases List.mem_append.mp ha with hold | hnew
      · exact h.le_last (admitted_sublist.subset hold)
      · exact (List.mem_singleton.mp hnew) ▸ le_rfl
    · rename_i hs
      have hbind := (next_of_refuses hs).2 stored hstored
      rw [List.append_nil]
      cases hseen : seen e.server (keyAfter none es) with
      | none =>
        -- the refusal has found nothing, so it leaves nothing
        have hnext := (next_of_refuses hs).1
        rw [hstored] at hnext
        unfold kept at hnext
        rw [hseen] at hnext
        exact absurd hnext stored.value.nonempty
      | some old =>
        obtain ⟨b, hb, hx, hall⟩ :=
          ih hes (fun f hf => hargs f (List.mem_append_left _ hf)) (eq_some_of_seen hseen)
        rw [hseen] at hbind
        exact ⟨b, hb, hbind.symm.trans hx, hall⟩

/-- What is stored under a key that has not expired is found. Source: none: bookkeeping. Kind: L -/
theorem mem_seen_of_lt {key : Option (Stored SortedSet)} {hit : Hit} {n : ℚ} (hhit : hit ∈ hitsOf key)
    (hlt : ∀ stored, key = some stored → ∃ x, stored.expireAt = some x ∧ n < x) :
    hit ∈ hitsOf (seen n key) := by
  cases key with
  | none => cases hhit
  | some stored =>
    obtain ⟨x, hx, hnx⟩ := hlt stored rfl
    have hgone : stored.gone n ≠ true := by
      unfold Stored.gone
      simpa [hx] using hnx
    have hseen : seen n (some stored) = some stored := if_neg hgone
    rw [hseen]
    exact hhit

/-- **Nothing that counts is forgotten**: at any later time the key still has every admission newer than
one window. Source: `lib/admission/lua-sliding-log.ts` `SCRIPT`. Kind: L -/
theorem mem_seen_after (h : Steady (es ++ [e])) (hargs : ∀ f ∈ es ++ [e], f.args = args) {a : Evaluation}
    (ha : a ∈ admitted (keyDecisions none es)) (hnew : e.now - args.windowMs < a.now) :
    a.hit ∈ hitsOf (seen e.server (keyAfter none es)) := by
  induction es using List.reverseRecOn generalizing e with
  | nil => cases ha
  | append_singleton es f ih =>
    have hes := h.sublist (List.sublist_append_left (es ++ [f]) [e])
    have hargs' : ∀ g ∈ es ++ [f], g.args = args := fun g hg => hargs g (List.mem_append_left _ hg)
    have hmem : f ∈ es ++ [f] := List.mem_append_right _ (List.mem_singleton_self f)
    have hf : f.args = args := hargs' f hmem
    refine mem_seen_of_lt ?_ fun stored hstored => ?_
    · -- what was there before is counted by `f`, and stays
      have hold : a ∈ admitted (keyDecisions none es) → a.hit ∈ kept (keyAfter none es) f := by
        intro haes
        have hfe := h.le_last hmem
        have hnew' : f.now - args.windowMs < a.now := by linarith
        exact mem_kept.mpr ⟨ih hes hargs' haes hnew', hf ▸ hnew'⟩
      rw [keyDecisions_snoc, admitted_snoc] at ha
      rw [keyAfter_snoc]
      split at ha
      · rename_i hs
        obtain ⟨stored, hnext, hhits, -⟩ := next_of_admits hs
        rw [hnext]
        show a.hit ∈ stored.value.hits
        rw [hhits]
        rcases List.mem_append.mp ha with haes | haf
        · refine List.mem_append_left _ (List.mem_filter.mpr ⟨hold haes, ?_⟩)
          exact decide_eq_true (hes.ne_last (admitted_sublist.subset haes))
        · rw [List.mem_singleton.mp haf]
          exact List.mem_append_right _ (List.mem_singleton_self _)
      · rename_i hs
        rw [(next_of_refuses hs).1]
        exact hold (by simpa using ha)
    · -- the last admission is no older than `a`
      obtain ⟨b, hb, hx, hall⟩ := expireAt_after hes hargs' hstored
      have hbes := admitted_sublist.subset hb
      have hdrift := h.drift_last hbes
      have hab := hall a ha
      rw [hargs' b hbes] at hdrift
      exact ⟨_, hx, by linarith⟩

/-- **The script counts what was admitted in its window**, no more and no less. Source:
`lib/admission/lua-sliding-log.ts` `SCRIPT`. Kind: L -/
theorem length_kept (h : Steady (es ++ [e])) (hargs : ∀ f ∈ es ++ [e], f.args = args) :
    (kept (keyAfter none es) e).length =
      (within args.windowMs e.now (stamps (keyDecisions none es))).length := by
  have hmem : e ∈ es ++ [e] := List.mem_append_right _ (List.mem_singleton_self e)
  have he : e.args = args := hargs e hmem
  have hnodup : ((admitted (keyDecisions none es)).map Evaluation.member).Nodup :=
    h.distinct.sublist
      ((admitted_sublist.trans (List.sublist_append_left es [e])).map Evaluation.member)
  unfold within
  apply le_antisymm
  · rw [← length_membersAt]
    refine (List.subperm_of_subset kept_nodup fun hit hhit => ?_).length_le
    obtain ⟨hseen, hnew⟩ := mem_kept.mp hhit
    obtain ⟨a, ha, rfl⟩ := mem_hitsOf_after (mem_seen hseen)
    refine mem_membersAt.mpr ⟨a, ha, ?_, rfl⟩
    have hle : a.now ≤ e.now := h.le_last (admitted_sublist.subset ha)
    exact decide_eq_true ⟨he ▸ hnew, hle⟩
  · refine length_filter_le hnodup fun a ha hp => ?_
    have hnew : e.now - args.windowMs < a.now ∧ a.now ≤ e.now := of_decide_eq_true hp
    exact mem_kept.mpr ⟨mem_seen_after h hargs ha hnew.1, he ▸ hnew.1⟩

/-- Steady evaluations on a key keep its limit. Source: `lib/admission/lua-sliding-log.ts` `SCRIPT`.
Kind: L -/
theorem Steady.limitKept (h : Steady es) (hargs : ∀ f ∈ es, f.args = args) : LimitKept args es := by
  refine bounded_of_remembered args es hargs h.distinct fun before e rest heq => .inr fun a ha hnew _ => ?_
  have hsub : (before ++ [e]).Sublist es := by
    rw [heq]
    exact (List.Sublist.refl before).append ((List.nil_sublist rest).cons_cons e)
  have he : e.args = args := hargs e (hsub.subset (List.mem_append_right _ (List.mem_singleton_self e)))
  exact mem_seen_after (h.sublist hsub) (fun f hf => hargs f (hsub.subset hf)) ha (he ▸ hnew)

/-- One more evaluation: what is counted and how many are admitted grow by one when fewer than `limit`
are counted. Source: `lib/admission/lua-sliding-log.ts` `SCRIPT`. Kind: L -/
theorem length_snoc (h : Steady (es ++ [e])) (hargs : ∀ f ∈ es ++ [e], f.args = args) :
    let n := (within args.windowMs e.now (stamps (keyDecisions none es))).length
    let grows := if n < args.limit then 1 else 0
    (within args.windowMs e.now (stamps (keyDecisions none (es ++ [e])))).length = n + grows ∧
      (admitted (keyDecisions none (es ++ [e]))).length =
        (admitted (keyDecisions none es)).length + grows := by
  intro n grows
  have hmem : e ∈ es ++ [e] := List.mem_append_right _ (List.mem_singleton_self e)
  have he : e.args = args := hargs e hmem
  have hpos : 0 < args.windowMs := he ▸ h.windowMs_pos hmem
  have hiff : (answer (keyAfter none es) e).success = true ↔ n < args.limit := by
    rw [admits_iff, length_kept h hargs, he]
  rw [keyDecisions_snoc]
  unfold stamps
  rw [admitted_snoc, List.map_append, within_append, List.length_append, List.length_append]
  by_cases hlt : n < args.limit
  · have hone : within args.windowMs e.now [e.now] = [e.now] := by
      unfold within
      simp [hpos]
    have hgrows : grows = 1 := if_pos hlt
    rw [if_pos (hiff.mpr hlt), hgrows, List.map_singleton, hone]
    exact ⟨rfl, rfl⟩
  · have hgrows : grows = 0 := if_neg hlt
    rw [if_neg (mt hiff.mp hlt), hgrows]
    exact ⟨rfl, rfl⟩

/-- A window that fills up: after one evaluation that counted `n`, of `k + 1` more as many are admitted as
there was room for. Source: none: infrastructure. Kind: L -/
theorem fills {n r limit k : ℕ} (hr : r = limit - n - 1) :
    (min r k + if n + (if n < limit then 1 else 0) + min r k < limit then 1 else 0) = min r (k + 1) := by
  by_cases hn : n < limit
  · rw [if_pos hn]
    split <;> omega
  · rw [if_neg hn, if_neg (by omega)]
    omega

/-- **The reported remaining is what is left**: of further evaluations at the same time, that many are
admitted. Source: `lib/admission/lua-sliding-log.ts` `SCRIPT`. Kind: L -/
theorem admitted_more {more : List Evaluation} (h : Steady (es ++ e :: more))
    (hargs : ∀ f ∈ es ++ e :: more, f.args = args) (hnow : ∀ f ∈ more, f.now = e.now) :
    (admitted (keyDecisions none (es ++ e :: more))).length =
      (admitted (keyDecisions none (es ++ [e]))).length +
        min (answer (keyAfter none es) e).remaining more.length := by
  have hsub : (es ++ [e]).Sublist (es ++ e :: more) :=
    (List.Sublist.refl es).append ((List.nil_sublist more).cons_cons e)
  have hargs₁ : ∀ f ∈ es ++ [e], f.args = args := fun f hf => hargs f (hsub.subset hf)
  have he : e.args = args := hargs₁ e (List.mem_append_right _ (List.mem_singleton_self e))
  have hcount := (length_snoc (h.sublist hsub) hargs₁).1
  have hrem := remaining_eq (keyAfter none es) e
  rw [length_kept (h.sublist hsub) hargs₁, he] at hrem
  generalize (answer (keyAfter none es) e).remaining = r at hrem ⊢
  -- along `more` the window fills up as the admissions grow
  suffices key : (within args.windowMs e.now (stamps (keyDecisions none (es ++ e :: more)))).length =
        (within args.windowMs e.now (stamps (keyDecisions none (es ++ [e])))).length +
          min r more.length ∧
      (admitted (keyDecisions none (es ++ e :: more))).length =
        (admitted (keyDecisions none (es ++ [e]))).length + min r more.length from key.2
  clear hsub hargs₁
  induction more using List.reverseRecOn with
  | nil => simp
  | append_singleton more f ih =>
    have hassoc : es ++ e :: (more ++ [f]) = (es ++ e :: more) ++ [f] := by simp
    rw [hassoc] at h hargs ⊢
    obtain ⟨hwin, hadm⟩ := ih (h.sublist (List.sublist_append_left _ [f]))
      (fun g hg => hargs g (List.mem_append_left _ hg)) (fun g hg => hnow g (List.mem_append_left _ hg))
    have hf : f.now = e.now := hnow f (List.mem_append_right _ (List.mem_singleton_self f))
    obtain ⟨hwin', hadm'⟩ := length_snoc h hargs
    rw [hf] at hwin' hadm'
    rw [hwin', hadm', hwin, hadm, List.length_append, List.length_singleton, Nat.add_assoc, Nat.add_assoc,
      hcount, fills hrem]
    exact ⟨rfl, rfl⟩

/-- The evaluations on a key have the arguments of each other. Source: `lib/admission/lua-sliding-log.ts`
`LuaRateLimitArgs`. Kind: L -/
theorem Steady.args_onKey (h : Steady es) (he : e ∈ es) :
    ∀ f ∈ onKey e.args.key es, f.args = e.args := by
  intro f hf
  obtain ⟨hfes, hkey⟩ := List.mem_filter.mp hf
  exact h.fixed f hfes e he (of_decide_eq_true hkey)

/-- Regular evaluations, followed by more at the time of the last one. Source: none: bookkeeping.
Kind: L -/
theorem Regular.extend {more : List Evaluation} (h : Regular (es ++ [e]))
    (hmore : ∀ f ∈ more, f.args = e.args ∧ f.now = e.now ∧ f.server = e.now)
    (hdistinct : ((es ++ e :: more).map Evaluation.member).Nodup) : Regular (es ++ e :: more) := by
  have hcases : ∀ f ∈ es ++ e :: more, f ∈ es ++ [e] ∨ f ∈ more := by
    intro f hf
    rw [List.append_cons] at hf
    exact List.mem_append.mp hf
  have hlast : e ∈ es ++ [e] := List.mem_append_right _ (List.mem_singleton_self e)
  -- each evaluation has the arguments of one in the list as it was
  have hsame : ∀ f ∈ es ++ e :: more, ∃ g ∈ es ++ [e], f.args = g.args := by
    intro f hf
    rcases hcases f hf with hold | hnew
    · exact ⟨f, hold, rfl⟩
    · exact ⟨e, hlast, (hmore f hnew).1⟩
  constructor
  · intro f hf
    obtain ⟨g, hg, hargs⟩ := hsame f hf
    exact hargs ▸ h.limit_pos g hg
  · intro f hf
    obtain ⟨g, hg, hargs⟩ := hsame f hf
    exact hargs ▸ h.window_pos g hg
  · intro f hf g hg hkey
    obtain ⟨f', hf', hfargs⟩ := hsame f hf
    obtain ⟨g', hg', hgargs⟩ := hsame g hg
    rw [hfargs, hgargs] at hkey ⊢
    exact h.fixed f' hf' g' hg' hkey
  · exact hdistinct
  · intro f hf
    rcases hcases f hf with hold | hnew
    · exact h.clock f hold
    · rw [(hmore f hnew).2.1, (hmore f hnew).2.2]
  · have hmap : more.map Evaluation.now = List.replicate more.length e.now :=
      List.eq_replicate_iff.mpr ⟨List.length_map _, fun t ht => by
        obtain ⟨f, hf, rfl⟩ := List.mem_map.mp ht
        exact (hmore f hf).2.1⟩
    rw [List.append_cons, List.map_append, hmap, List.pairwise_append]
    refine ⟨h.sorted, List.pairwise_replicate.mpr (.inr le_rfl), fun a ha b hb => ?_⟩
    rw [List.eq_of_mem_replicate hb]
    obtain ⟨f, hf, rfl⟩ := List.mem_map.mp ha
    rcases List.mem_append.mp hf with hes | hsingle
    · exact h.steady.le_last hes
    · rw [List.mem_singleton.mp hsingle]

end clock

/-! ## From one key to all -/

section keys

variable {es more : List Evaluation} {e : Evaluation}

/-- The evaluations on the key of the last one. Source: none: bookkeeping. Kind: L -/
theorem onKey_append (key : String) (es more : List Evaluation) (hmore : ∀ f ∈ more, f.args.key = key) :
    onKey key (es ++ more) = onKey key es ++ more := by
  unfold onKey
  rw [List.filter_append, List.filter_eq_self.mpr fun f hf => decide_eq_true (hmore f hf)]

/-- What one evaluation decides after others. Source: `lib/admission/lua-sliding-log.ts` `SCRIPT`.
Kind: L -/
theorem evaluate_after :
    (evaluate (after noKeys es) e).1 = answer (keyAfter none (onKey e.args.key es)) e := by
  unfold evaluate
  rw [after_on]
  rfl

/-- Decisions on a key are those of the evaluations on it alone. Source:
`lib/admission/lua-sliding-log.ts` `SCRIPT`. Kind: L -/
theorem decisionsOn_onKey {key : String} :
    decisionsOn key (decisions noKeys es) = decisions noKeys (onKey key es) := by
  have hall : ∀ (redis : Redis) (fs : List Evaluation), (∀ f ∈ fs, f.args.key = key) →
      decisions redis fs = keyDecisions (redis key) fs := by
    intro redis fs hfs
    induction fs generalizing redis with
    | nil => rfl
    | cons f fs ih =>
      have hkey : f.args.key = key := hfs f (List.mem_cons_self ..)
      rw [decisions, keyDecisions, ih _ fun g hg => hfs g (List.mem_cons_of_mem f hg), ← hkey,
        evaluate_key]
      rfl
  rw [decisions_on, hall noKeys (onKey key es) fun f hf => of_decide_eq_true (List.mem_filter.mp hf).2]

/-- A caller is admitted when fewer than `limit` were in its window. Source:
`lib/admission/lua-sliding-log.ts` `SCRIPT`. Kind: L -/
theorem Steady.admits_iff (h : Steady (es ++ [e])) :
    (evaluate (after noKeys es) e).1.success = true ↔
      (within e.args.windowMs e.now (stamps (decisionsOn e.args.key (decisions noKeys es)))).length <
        e.args.limit := by
  have hlast : e ∈ es ++ [e] := List.mem_append_right _ (List.mem_singleton_self e)
  have hsplit := onKey_append e.args.key es [e] (by simp)
  have hkey : Steady (onKey e.args.key es ++ [e]) := hsplit ▸ h.sublist List.filter_sublist
  rw [evaluate_after, decisions_on, Admission.admits_iff,
    length_kept hkey (hsplit ▸ h.args_onKey hlast)]
  rfl

/-- What a caller is told remains is what is left. Source: `lib/admission/lua-sliding-log.ts` `SCRIPT`.
Kind: L -/
theorem Regular.remaining (h : Regular (es ++ [e]))
    (hmore : ∀ f ∈ more, f.args = e.args ∧ f.now = e.now ∧ f.server = e.now)
    (hdistinct : ((es ++ e :: more).map Evaluation.member).Nodup) :
    (admitted (decisionsOn e.args.key (decisions noKeys (es ++ e :: more)))).length =
      (admitted (decisionsOn e.args.key (decisions noKeys (es ++ [e])))).length +
        min (evaluate (after noKeys es) e).1.remaining more.length := by
  have hall := (h.extend hmore hdistinct).steady
  have hmem : e ∈ es ++ e :: more := List.mem_append_right _ (List.mem_cons_self ..)
  have hsplit := onKey_append e.args.key es (e :: more) (by
    intro f hf
    rcases List.mem_cons.mp hf with rfl | hf
    · rfl
    · rw [(hmore f hf).1])
  have hone := onKey_append e.args.key es [e] (by simp)
  have hkey : Steady (onKey e.args.key es ++ e :: more) := hsplit ▸ hall.sublist List.filter_sublist
  rw [evaluate_after, decisions_on, decisions_on, hsplit, hone]
  exact admitted_more hkey (hsplit ▸ hall.args_onKey hmem) fun f hf => (hmore f hf).2.1

end keys

/-! ## The two buckets -/

section buckets

variable {secret : Option String} {fingerprint : String → String} {redis redis' : Redis}

/-- No token's read bucket is a token's write bucket. Source: `lib/admin/auth.ts` `BUCKETS`. Kind: L -/
theorem read_ne_write (f g : String) : (adminArgs .read f).key ≠ (adminArgs .write g).key := by
  intro h
  have hchar := congrArg (fun s => s.toList[9]?) h
  simp [adminArgs, Admission.buckets] at hchar

/-- An evaluation over any transport leaves the other keys. Source: `lib/admission/lua-sliding-log.ts`
`luaSlidingWindowLog`. Kind: L -/
theorem evaluateOver_other {t : Transport} {e : Evaluation} {k : String} (hk : e.args.key ≠ k) :
    (evaluateOver t redis e).2 k = redis k := by
  cases t with
  | answered => exact evaluate_other hk
  | refused => rfl
  | lost => exact evaluate_other hk

/-- An evaluation reads and writes its own key only. Source: `lib/admission/lua-sliding-log.ts`
`luaSlidingWindowLog`. Kind: L -/
theorem evaluateOver_congr {t : Transport} {e : Evaluation} (h : redis e.args.key = redis' e.args.key) :
    (evaluateOver t redis e).1 = (evaluateOver t redis' e).1 ∧
      (evaluateOver t redis e).2 e.args.key = (evaluateOver t redis' e).2 e.args.key := by
  have houtcome : (evaluate redis e).1 = (evaluate redis' e).1 := by
    unfold evaluate
    rw [h]
  have hkey : (evaluate redis e).2 e.args.key = (evaluate redis' e).2 e.args.key := by
    rw [evaluate_key, evaluate_key, h]
  cases t with
  | answered => exact ⟨houtcome, hkey⟩
  | refused => exact ⟨rfl, h⟩
  | lost => exact ⟨rfl, hkey⟩

/-- A request leaves the buckets of the other kind. Source: `lib/admin/auth.ts` `requireAdmin`. Kind: L -/
theorem requireAdmin_other {r : AdminRequest} (hr : r.bucket = .read) (f : String) :
    (requireAdmin secret fingerprint redis r).2 (adminArgs .write f).key =
      redis (adminArgs .write f).key := by
  unfold requireAdmin
  split
  · rfl
  split
  · rfl
  split
  · rfl
  split
  · dsimp only
    split
    all_goals
      refine evaluateOver_other ?_
      rw [hr]
      exact read_ne_write _ f
  · rfl

/-- A request of the strict kind sees the write buckets only. Source: `lib/admin/auth.ts` `requireAdmin`.
Kind: L -/
theorem requireAdmin_write {r : AdminRequest} (hr : r.bucket = .write)
    (h : ∀ f, redis (adminArgs .write f).key = redis' (adminArgs .write f).key) :
    (requireAdmin secret fingerprint redis r).1 = (requireAdmin secret fingerprint redis' r).1 ∧
      ∀ f, (requireAdmin secret fingerprint redis r).2 (adminArgs .write f).key =
        (requireAdmin secret fingerprint redis' r).2 (adminArgs .write f).key := by
  unfold requireAdmin
  split
  · exact ⟨rfl, h⟩
  split
  · exact ⟨rfl, h⟩
  split
  · exact ⟨rfl, h⟩
  split
  · rename_i token _ _ _ _ _
    rw [hr]
    obtain ⟨hout, hkey⟩ := evaluateOver_congr (t := r.transport)
      (e := ⟨adminArgs .write (fingerprint token), r.now, r.member, r.server⟩) (h (fingerprint token))
    have hall : ∀ f, (evaluateOver r.transport redis
          ⟨adminArgs .write (fingerprint token), r.now, r.member, r.server⟩).2 (adminArgs .write f).key =
        (evaluateOver r.transport redis'
          ⟨adminArgs .write (fingerprint token), r.now, r.member, r.server⟩).2 (adminArgs .write f).key := by
      intro f
      by_cases hf : (adminArgs .write (fingerprint token)).key = (adminArgs .write f).key
      · rw [← hf]
        exact hkey
      · rw [evaluateOver_other hf, evaluateOver_other hf]
        exact h f
    dsimp only
    rw [← hout]
    split
    · exact ⟨rfl, hall⟩
    · exact ⟨rfl, hall⟩
  · exact ⟨rfl, h⟩

/-- **Polling does not use up the strict bucket**: what requests of the strict kind are told is what they
would be told if no other request had been made. Source: `lib/admin/auth.ts` `requireAdmin`. Kind: L -/
theorem adminVerdicts_write (rs : List AdminRequest)
    (h : ∀ f, redis (adminArgs .write f).key = redis' (adminArgs .write f).key) :
    (adminVerdicts secret fingerprint redis rs).filter (fun v => v.1.bucket = .write) =
      adminVerdicts secret fingerprint redis' (rs.filter fun r => r.bucket = .write) := by
  induction rs generalizing redis redis' with
  | nil => rfl
  | cons r rs ih =>
    rw [adminVerdicts]
    by_cases hr : r.bucket = .write
    · rw [List.filter_cons_of_pos (by simpa using hr), List.filter_cons_of_pos (by simpa using hr),
        adminVerdicts]
      obtain ⟨hverdict, hkeys⟩ := requireAdmin_write hr h
      rw [hverdict, ih hkeys]
    · rw [List.filter_cons_of_neg (by simpa using hr), List.filter_cons_of_neg (by simpa using hr)]
      have hread : r.bucket = .read := by
        cases hb : r.bucket with
        | read => rfl
        | write => exact absurd hb hr
      exact ih fun f => (requireAdmin_other hread f).trans (h f)

end buckets

/-! ## The log is exact -/

/-- **The sliding-window log is exact.** Under one clock a caller is admitted if and only if fewer than
`limit` were admitted on its key in the window that ends with it; what it is told remains is what further
calls at the same time would get; no half-open window holds more than `limit` admissions; and decisions
depend on the key's own calls, so the strict admin bucket never sees the polling of the other.
Source: `lib/admission/lua-sliding-log.ts` `luaSlidingWindowLog`, `lib/admin/auth.ts` `requireAdmin`.
Kind: P -/
theorem slidingWindowLog_exact (es : List Evaluation) (h : Regular es) :
    (∀ before e rest, es = before ++ e :: rest →
      ((evaluate (after noKeys before) e).1.success = true ↔
        (within e.args.windowMs e.now
          (stamps (decisionsOn e.args.key (decisions noKeys before)))).length < e.args.limit) ∧
      ∀ more : List Evaluation, (∀ f ∈ more, f.args = e.args ∧ f.now = e.now ∧ f.server = e.now) →
        ((before ++ e :: more).map Evaluation.member).Nodup →
        (admitted (decisionsOn e.args.key (decisions noKeys (before ++ e :: more)))).length =
          (admitted (decisionsOn e.args.key (decisions noKeys (before ++ [e])))).length +
            min (evaluate (after noKeys before) e).1.remaining more.length) ∧
    (∀ e ∈ es, ∀ t,
      (within e.args.windowMs t (stamps (decisionsOn e.args.key (decisions noKeys es)))).length ≤
          e.args.limit ∧
        ((stamps (decisionsOn e.args.key (decisions noKeys es))).filter
          fun a => t ≤ a ∧ a < t + e.args.windowMs).length ≤ e.args.limit) ∧
    (∀ key, decisionsOn key (decisions noKeys es) = decisions noKeys (onKey key es)) ∧
    ∀ secret fingerprint (rs : List AdminRequest),
      (adminVerdicts secret fingerprint noKeys rs).filter (fun v => v.1.bucket = .write) =
        adminVerdicts secret fingerprint noKeys (rs.filter fun r => r.bucket = .write) := by
  refine ⟨fun before e rest heq => ?_, fun e he t => ?_, fun key => ?_, fun secret fingerprint rs =>
    adminVerdicts_write rs fun _ => rfl⟩
  · have hsub : (before ++ [e]).Sublist es := by
      rw [heq]
      exact (List.Sublist.refl before).append ((List.nil_sublist rest).cons_cons e)
    have hbefore := h.sublist hsub
    exact ⟨hbefore.steady.admits_iff, fun more hmore hdistinct => hbefore.remaining hmore hdistinct⟩
  · have hbound : Bounded e.args.limit e.args.windowMs (stamps (keyDecisions none (onKey e.args.key es))) :=
      (h.steady.sublist List.filter_sublist).limitKept (h.steady.args_onKey he)
    rw [decisions_on]
    refine ⟨hbound t, hbound.sublist_length_le List.filter_sublist fun a ha b hb => ?_⟩
    have hat : t ≤ a ∧ a < t + e.args.windowMs := by simpa using List.of_mem_filter ha
    have hbt : t ≤ b ∧ b < t + e.args.windowMs := by simpa using List.of_mem_filter hb
    linarith
  · exact decisionsOn_onKey

/-- Three calls with a limit of two: the third comes when the first is one window old and is admitted.
Source: `lib/admission/lua-sliding-log.ts` `SCRIPT`. Kind: P -/
theorem slidingWindowLog_exact_boundary :
    let es : List Evaluation :=
      [⟨⟨"k", 2, 60⟩, 0, "a", 0⟩, ⟨⟨"k", 2, 60⟩, 30000, "b", 30000⟩, ⟨⟨"k", 2, 60⟩, 60000, "c", 60000⟩]
    (stamps (decisions noKeys es)).length = 3 ∧ ∀ e ∈ es, ∀ t,
      (within e.args.windowMs t (stamps (decisionsOn e.args.key (decisions noKeys es)))).length ≤
        e.args.limit := by
  refine ⟨by decide +kernel, fun e he t => ((slidingWindowLog_exact _ ?_).2.1 e he t).1⟩
  constructor <;> decide +kernel

end TrainsAndTracks.Admission
