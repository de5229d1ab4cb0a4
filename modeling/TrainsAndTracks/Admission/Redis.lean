import Mathlib.Algebra.Order.Ring.Rat
import Mathlib.Data.List.MinMax
import Mathlib.Data.List.Nodup

/-!
# The Redis commands of the admission code

A key that exists stores a value and may have an expiry, from which on no command sees it. Every command
runs at the server's own clock, which `seen` takes; time is in milliseconds.

* `Hit`, `SortedSet` — a sorted set: members with scores, no member twice, never empty, since Redis drops a
  key whose last member is removed.
* `zremrangebyscore`, `zcard`, `zadd`, `pexpire`, `zrangeFirst` — the commands of the sliding-window log.
* `setNxEx`, `del` — the commands of a claim with a lease. `setEx` — that of a cache.

`hitsOf` reads the members of a key, absent or not; each command has one lemma in its terms.
-/

namespace TrainsAndTracks.Admission

/-- What is stored under a key that exists. Source: none: infrastructure. Kind: D -/
structure Stored (ν : Type*) where
  value : ν
  /-- The time from which the key is gone; `none` for a key without expiry. -/
  expireAt : Option ℚ

section keys

variable {ν : Type*}

/-- The key has expired. Source: none: infrastructure. Kind: D -/
def Stored.gone (now : ℚ) (key : Stored ν) : Bool := key.expireAt.any fun e => decide (e ≤ now)

/-- What a command that runs at `now` finds under the key. Source: none: infrastructure. Kind: D -/
def seen (now : ℚ) : Option (Stored ν) → Option (Stored ν)
  | none => none
  | some key => if key.gone now then none else some key

/-- `SET key value NX EX seconds`: what it replies and what it leaves under the key.
Source: none: infrastructure. Kind: D -/
def setNxEx (now : ℚ) (key : Option (Stored ν)) (value : ν) (ex : ℚ) :
    Option String × Option (Stored ν) :=
  match seen now key with
  | some held => (none, some held)
  | none => (some "OK", some ⟨value, some (now + ex * 1000)⟩)

/-- `SET key value EX seconds`, whatever is stored there. Source: none: infrastructure. Kind: D -/
def setEx (now : ℚ) (_ : Option (Stored ν)) (value : ν) (ex : ℚ) : Option (Stored ν) :=
  some ⟨value, some (now + ex * 1000)⟩

/-- `DEL key`, whatever is stored there. Source: none: infrastructure. Kind: D -/
def del (_ : Option (Stored ν)) : Option (Stored ν) := none

end keys

/-! ## Sorted sets -/

/-- A member of a sorted set. Source: none: infrastructure. Kind: D -/
structure Hit where
  member : String
  score : ℚ
deriving DecidableEq

/-- A sorted set that is stored under a key. Source: none: infrastructure. Kind: D -/
structure SortedSet where
  hits : List Hit
  /-- No member is there twice. -/
  nodup : (hits.map Hit.member).Nodup
  /-- A set without members is not stored. -/
  nonempty : hits ≠ []

/-- The members under a key. Source: none: infrastructure. Kind: D -/
def hitsOf : Option (Stored SortedSet) → List Hit
  | none => []
  | some key => key.value.hits

/-- The hits that are left when those up to `max` are removed are pairwise distinct members still.
Source: none: infrastructure. Kind: L -/
theorem nodup_filter {hits : List Hit} (p : Hit → Bool) (h : (hits.map Hit.member).Nodup) :
    ((hits.filter p).map Hit.member).Nodup :=
  h.sublist (List.filter_sublist.map _)

/-- `ZREMRANGEBYSCORE key -inf max`: the scores up to `max`, `max` included, are removed.
Source: none: infrastructure. Kind: D -/
def zremrangebyscore (key : Option (Stored SortedSet)) (max : ℚ) : Option (Stored SortedSet) :=
  match key with
  | none => none
  | some stored =>
    if h : stored.value.hits.filter (fun hit => max < hit.score) = [] then none
    else some { stored with value := ⟨_, nodup_filter _ stored.value.nodup, h⟩ }

/-- `ZCARD key`. Source: none: infrastructure. Kind: D -/
def zcard (key : Option (Stored SortedSet)) : ℕ := (hitsOf key).length

/-- `ZADD key score member`: a member that is there gets the new score. A new key has no expiry.
Source: none: infrastructure. Kind: D -/
def zadd (key : Option (Stored SortedSet)) (score : ℚ) (member : String) : Stored SortedSet where
  value :=
    { hits := (hitsOf key).filter (fun hit => hit.member ≠ member) ++ [⟨member, score⟩]
      nodup := by
        have hkey : ((hitsOf key).map Hit.member).Nodup := by
          cases key with
          | none => exact List.nodup_nil
          | some stored => exact stored.value.nodup
        rw [List.map_append, List.nodup_append]
        refine ⟨nodup_filter _ hkey, List.nodup_singleton _, ?_⟩
        intro a ha b hb
        obtain ⟨hit, hmem, rfl⟩ := List.mem_map.mp ha
        obtain rfl : b = member := by simpa using hb
        simpa using List.of_mem_filter hmem
      nonempty := List.append_ne_nil_of_right_ne_nil _ (List.cons_ne_nil _ _) }
  expireAt := key.bind Stored.expireAt

/-- `PEXPIRE key ms`. Source: none: infrastructure. Kind: D -/
def pexpire (now : ℚ) (key : Stored SortedSet) (ms : ℚ) : Stored SortedSet :=
  { key with expireAt := some (now + ms) }

/-- The score that `ZRANGE key 0 0 WITHSCORES` returns: the lowest one. Source: none: infrastructure.
Kind: D -/
def zrangeFirst (key : Option (Stored SortedSet)) : Option ℚ := ((hitsOf key).map Hit.score).min?

/-! ## The commands in terms of members -/

section members

variable {key : Option (Stored SortedSet)} {now max : ℚ}

/-- What is left after a removal. Source: none: infrastructure. Kind: L -/
@[simp] theorem hitsOf_zremrangebyscore :
    hitsOf (zremrangebyscore key max) = (hitsOf key).filter fun hit => max < hit.score := by
  cases key with
  | none => rfl
  | some stored =>
    unfold zremrangebyscore
    dsimp only
    split
    · rename_i h
      exact h.symm
    · rfl

/-- A removal leaves the expiry of a key that stays. Source: none: infrastructure. Kind: L -/
theorem expireAt_zremrangebyscore {stored : Stored SortedSet}
    (h : zremrangebyscore key max = some stored) : key.bind Stored.expireAt = stored.expireAt := by
  cases key with
  | none => cases h
  | some old =>
    unfold zremrangebyscore at h
    dsimp only at h
    split at h
    · cases h
    · cases h
      rfl

/-- What a command finds is stored. Source: none: infrastructure. Kind: L -/
theorem eq_some_of_seen {ν : Type*} {key : Option (Stored ν)} {stored : Stored ν}
    (h : seen now key = some stored) : key = some stored := by
  cases key with
  | none => cases h
  | some old =>
    by_cases hgone : old.gone now = true
    · simp [seen, hgone] at h
    · simpa [seen, hgone] using h

/-- What a command finds is found again at the same time. Source: none: infrastructure. Kind: L -/
theorem seen_seen {ν : Type*} {key : Option (Stored ν)} : seen now (seen now key) = seen now key := by
  cases hseen : seen now key with
  | none => rfl
  | some stored =>
    rw [← hseen]
    exact congrArg (seen now) (hseen.trans (eq_some_of_seen hseen).symm)

/-- A command finds the members of a key or, once it has expired, none. Source: none: infrastructure.
Kind: L -/
theorem mem_seen {hit : Hit} (h : hit ∈ hitsOf (seen now key)) : hit ∈ hitsOf key := by
  cases hseen : seen now key with
  | none =>
    rw [hseen] at h
    cases h
  | some stored =>
    rw [hseen] at h
    rw [eq_some_of_seen hseen]
    exact h

end members

end TrainsAndTracks.Admission
