import TrainsAndTracks.Found.Table

/-!
# Row versions and row locks under READ COMMITTED

`Versioned τ ρ` is a table written by concurrent transactions `τ`. Readers see the `committed`
table. A transaction that updates a row takes the row's lock and keeps the new version to itself
until it commits: `lock k = some (t, w)` says that `t` has locked the row with key `k` and will
make it `w`. One owner per row is built into the type, and a version carries the key it is for.

* `Update ρ` — an `UPDATE … SET set WHERE cond`; the assignment keeps the key.
* `Versioned.update v t u` — run the statement in `t`: `none` while a row it would change is locked
  by another transaction (the statement waits, and takes no lock meanwhile), else every committed row
  satisfying `cond` gets a version. The `WHERE` clause is evaluated on the committed rows at the moment
  the statement runs, which is what a statement re-checks after a wait. A statement never reads its own
  transaction's versions, so a transaction is expected to update a row at most once.
* `Versioned.take v t k` — lock one row without changing it, as `SELECT … FOR UPDATE` does.
* `Versioned.commit`, `Versioned.rollback` — publish or drop the versions of `t`.
* `Versioned.insert`, `Versioned.modify`, `Versioned.delete` — statements in a transaction of their own,
  which commit at once. The last two have to wait while a row they are for is `held`.

`Versioned.Based R` is the invariant form used everywhere: each open version is related by `R` to
the row that is committed under it. Since the lock keeps every other writer out, the committed row
stays what it was when the version was made, so `R` need only be checked when a version is made.
-/

set_option linter.unusedSectionVars false

namespace TrainsAndTracks.Found

/-- An `UPDATE` statement: the rows it is for and the assignment. Source: none: infrastructure.
Kind: D -/
structure Update (ρ : Type*) {κ : outParam Type*} [Keyed ρ κ] where
  /-- The `WHERE` clause. -/
  cond : ρ → Bool
  /-- The `SET` clause. -/
  set : ρ → ρ
  /-- The primary key is not assigned. -/
  key_set : ∀ r, key (set r) = key r

/-- The update of no row. Source: none: infrastructure. Kind: D -/
def Update.skip {ρ κ : Type*} [Keyed ρ κ] : Update ρ := ⟨fun _ => false, id, fun _ => rfl⟩

/-- The row with key `k`, which stays as it is (`SELECT … FOR UPDATE`). Source: none: infrastructure.
Kind: D -/
def Update.keep {ρ κ : Type*} [Keyed ρ κ] [DecidableEq κ] (k : κ) : Update ρ :=
  ⟨fun r => key r == k, id, fun _ => rfl⟩

/-- What a statement that commits at once makes of a row. Source: none: infrastructure. Kind: D -/
def Update.apply {ρ κ : Type*} [Keyed ρ κ] (u : Update ρ) (r : ρ) : ρ :=
  if u.cond r then u.set r else r

/-- It keeps the key. Source: none: infrastructure. Kind: L -/
theorem Update.key_apply {ρ κ : Type*} [Keyed ρ κ] (u : Update ρ) (r : ρ) :
    key (u.apply r) = key r := by
  unfold Update.apply
  split
  · exact u.key_set r
  · rfl

/-- What the assignment keeps, the statement keeps. Source: none: infrastructure. Kind: L -/
theorem Update.apply_congr {ρ κ γ : Type*} [Keyed ρ κ] {u : Update ρ} {f : ρ → γ}
    (h : ∀ r, f (u.set r) = f r) (r : ρ) : f (u.apply r) = f r := by
  unfold Update.apply
  split
  · exact h r
  · rfl

/-- A table with committed rows and locked, uncommitted versions.
Source: none: infrastructure. Kind: D -/
structure Versioned (τ ρ : Type*) {κ : outParam Type*} [Keyed ρ κ] where
  /-- The rows every reader sees. -/
  committed : Table ρ
  /-- Who has locked a row, and the version that transaction made of it. -/
  lock : κ → Option (τ × ρ)
  /-- A version is a version of the row it is stored under. -/
  lock_key : ∀ k t w, lock k = some (t, w) → key w = k

namespace Versioned

variable {τ ρ κ : Type*} [Keyed ρ κ] [DecidableEq κ] [DecidableEq τ]

/-- A table without locks. Source: none: infrastructure. Kind: D -/
def ofTable (t : Table ρ) : Versioned τ ρ := ⟨t, fun _ => none, by simp⟩

/-- Some transaction other than `t` has locked the row with key `k`.
Source: none: infrastructure. Kind: D -/
def lockedFor (v : Versioned τ ρ) (t : τ) (k : κ) : Bool :=
  (v.lock k).any fun own => own.1 ≠ t

/-- The statement `u` of `t` has to wait: it would change a row another transaction has locked.
Source: none: infrastructure. Kind: D -/
def blocked (v : Versioned τ ρ) (t : τ) (u : Update ρ) : Bool :=
  v.committed.rows.any fun r => u.cond r && v.lockedFor t (key r)

/-- The locks after `t` has run `u`. Source: none: infrastructure. Kind: D -/
def lockAfter (v : Versioned τ ρ) (t : τ) (u : Update ρ) (k : κ) : Option (τ × ρ) :=
  match v.committed.find? k with
  | some r => if u.cond r then some (t, u.set r) else v.lock k
  | none => v.lock k

/-- Run `u` in `t`; `none` while it has to wait. Source: none: infrastructure. Kind: D -/
def update (v : Versioned τ ρ) (t : τ) (u : Update ρ) : Option (Versioned τ ρ) :=
  if v.blocked t u then none
  else some
    { committed := v.committed
      lock := v.lockAfter t u
      lock_key := by
        intro k s w h
        unfold lockAfter at h
        cases hf : v.committed.find? k with
        | none => rw [hf] at h; exact v.lock_key k s w h
        | some r =>
          rw [hf] at h
          by_cases hc : u.cond r
          · simp only [hc, if_true, Option.some.injEq, Prod.mk.injEq] at h
            rw [← h.2, u.key_set, Table.key_of_find? hf]
          · simp only [hc] at h
            exact v.lock_key k s w h }

/-- `t` has locked the row with key `k`. Source: none: infrastructure. Kind: D -/
def lockedBy (v : Versioned τ ρ) (t : τ) (k : κ) : Bool := (v.lock k).any fun own => own.1 = t

/-- `t` locks the row with key `k`; `none` while it has to wait, and where it has locked it already.
Source: none: infrastructure. Kind: D -/
def take (v : Versioned τ ρ) (t : τ) (k : κ) : Option (Versioned τ ρ) :=
  if v.lockedBy t k then none else v.update t (.keep k)

/-- What a committed row becomes when `t` commits. Source: none: infrastructure. Kind: D -/
def publish (v : Versioned τ ρ) (t : τ) (r : ρ) : ρ :=
  match v.lock (key r) with
  | some (s, w) => if s = t then w else r
  | none => r

/-- Publishing keeps the key. Source: none: infrastructure. Kind: L -/
theorem key_publish (v : Versioned τ ρ) (t : τ) (r : ρ) : key (v.publish t r) = key r := by
  unfold publish
  cases hl : v.lock (key r) with
  | none => rfl
  | some own =>
    obtain ⟨s, w⟩ := own
    by_cases hs : s = t
    · simp only [hs, if_true]
      exact v.lock_key _ s w hl
    · simp only [hs, if_false]

/-- The locks of every transaction but `t`. Source: none: infrastructure. Kind: D -/
def unlock (v : Versioned τ ρ) (t : τ) (k : κ) : Option (τ × ρ) :=
  (v.lock k).filter fun own => own.1 ≠ t

/-- What is left of the locks is what was there. Source: none: infrastructure. Kind: L -/
theorem unlock_eq_some_iff {v : Versioned τ ρ} {t s : τ} {k : κ} {w : ρ} :
    v.unlock t k = some (s, w) ↔ v.lock k = some (s, w) ∧ s ≠ t := by
  simp [unlock, Option.filter_eq_some_iff]

/-- Publish the versions of `t` and release its locks. Source: none: infrastructure. Kind: D -/
def commit (v : Versioned τ ρ) (t : τ) : Versioned τ ρ where
  committed := v.committed.modify (v.publish t) (v.key_publish t)
  lock := v.unlock t
  lock_key k s w h := v.lock_key k s w (unlock_eq_some_iff.mp h).1

/-- Drop the versions of `t` and release its locks. Source: none: infrastructure. Kind: D -/
def rollback (v : Versioned τ ρ) (t : τ) : Versioned τ ρ where
  committed := v.committed
  lock := v.unlock t
  lock_key k s w h := v.lock_key k s w (unlock_eq_some_iff.mp h).1

/-- Insert and commit a row at once (a statement in a transaction of its own).
Source: none: infrastructure. Kind: D -/
def insert (v : Versioned τ ρ) (r : ρ) (h : v.committed.find? (key r) = none) : Versioned τ ρ where
  committed := v.committed.insert r h
  lock := v.lock
  lock_key := v.lock_key

/-- A row satisfying `p` is locked. Source: none: infrastructure. Kind: D -/
def held (v : Versioned τ ρ) (p : ρ → Bool) : Bool :=
  v.committed.rows.any fun r => p r && (v.lock (key r)).isSome

/-- An open version satisfies `p`. Source: none: infrastructure. Kind: D -/
def pending (v : Versioned τ ρ) (p : ρ → Bool) : Bool :=
  v.committed.rows.any fun r => (v.lock (key r)).any fun own => p own.2

/-- Run `u` and commit at once (a statement in a transaction of its own), when it need not wait.
Source: none: infrastructure. Kind: D -/
def modify (v : Versioned τ ρ) (u : Update ρ) : Versioned τ ρ where
  committed := v.committed.modify u.apply u.key_apply
  lock := v.lock
  lock_key := v.lock_key

/-- Delete the rows satisfying `p` and commit at once (a statement in a transaction of its own), when it
need not wait. Source: none: infrastructure. Kind: D -/
def delete (v : Versioned τ ρ) (p : ρ → Bool) : Versioned τ ρ where
  committed := v.committed.delete p
  lock := v.lock
  lock_key := v.lock_key

/-! ## What each operation leaves behind -/

/-- A statement that runs leaves the committed rows alone. Source: none: infrastructure. Kind: L -/
theorem update_committed {v v' : Versioned τ ρ} {t : τ} {u : Update ρ}
    (h : v.update t u = some v') : v'.committed = v.committed := by
  unfold update at h
  split at h
  · cases h
  · cases h; rfl

/-- **What a statement does to one lock**: a committed row satisfying `cond` is now locked by `t`
with the assigned version, and before it was not locked by anyone else; every other lock is as it
was. Source: none: infrastructure. Kind: L -/
theorem update_lock {v v' : Versioned τ ρ} {t : τ} {u : Update ρ} (h : v.update t u = some v')
    (k : κ) :
    (∃ r, v.committed.find? k = some r ∧ u.cond r = true ∧ v'.lock k = some (t, u.set r) ∧
      ∀ s w, v.lock k = some (s, w) → s = t) ∨
    ((∀ r, v.committed.find? k = some r → u.cond r = false) ∧ v'.lock k = v.lock k) := by
  unfold update at h
  split at h
  · cases h
  · rename_i hb
    cases h
    simp only [lockAfter]
    cases hf : v.committed.find? k with
    | none => exact .inr ⟨by simp, rfl⟩
    | some r =>
      by_cases hc : u.cond r = true
      · refine .inl ⟨r, rfl, hc, by simp [hc], fun s w hl => ?_⟩
        by_contra hne
        apply hb
        rw [blocked, List.any_eq_true]
        refine ⟨r, Table.mem_of_find? hf, ?_⟩
        rw [Table.key_of_find? hf, hc, lockedFor, hl]
        simpa using hne
      · refine .inr ⟨fun r' hr' => ?_, by simp [hc]⟩
        cases hr'
        simpa using hc

/-- A version made by a statement is a version of a committed row that satisfies `cond`, or it was
there before. Source: none: infrastructure. Kind: L -/
theorem lock_of_update {v v' : Versioned τ ρ} {t s : τ} {u : Update ρ} {k : κ} {w : ρ}
    (h : v.update t u = some v') (hl : v'.lock k = some (s, w)) :
    (s = t ∧ ∃ r, v.committed.find? k = some r ∧ u.cond r = true ∧ w = u.set r) ∨
    v.lock k = some (s, w) := by
  rcases update_lock h k with ⟨r, hr, hc, hl', -⟩ | ⟨-, hl'⟩
  · rw [hl'] at hl
    cases hl
    exact .inl ⟨rfl, r, hr, hc, rfl⟩
  · exact .inr (hl' ▸ hl)

/-- A lock of another transaction survives a statement. Source: none: infrastructure. Kind: L -/
theorem lock_update_of_ne {v v' : Versioned τ ρ} {t s : τ} {u : Update ρ} {k : κ} {w : ρ}
    (h : v.update t u = some v') (hl : v.lock k = some (s, w)) (hs : s ≠ t) :
    v'.lock k = some (s, w) := by
  rcases update_lock h k with ⟨_, _, _, _, hown⟩ | ⟨-, hl'⟩
  · exact absurd (hown s w hl) hs
  · rw [hl', hl]

/-- A statement that would change a row locks it. Source: none: infrastructure. Kind: L -/
theorem lock_update_of_cond {v v' : Versioned τ ρ} {t : τ} {u : Update ρ} {k : κ} {r : ρ}
    (h : v.update t u = some v') (hr : v.committed.find? k = some r) (hc : u.cond r = true) :
    v'.lock k = some (t, u.set r) := by
  rcases update_lock h k with ⟨r', hr', -, hl, -⟩ | ⟨hno, -⟩
  · obtain rfl := Option.eq_some_unique hr hr'
    exact hl
  · rw [hno r hr] at hc
    cases hc

/-- A statement of a transaction without locks that runs has found its rows unlocked. Source: none:
infrastructure. Kind: L -/
theorem lock_eq_none_of_update {v v' : Versioned τ ρ} {t : τ} {u : Update ρ} {k : κ} {r : ρ}
    (h : v.update t u = some v') (hown : ∀ k w, v.lock k ≠ some (t, w))
    (hr : v.committed.find? k = some r) (hc : u.cond r = true) : v.lock k = none := by
  rcases update_lock h k with ⟨_, -, -, -, hfree⟩ | ⟨hno, -⟩
  · refine Option.eq_none_iff_forall_ne_some.mpr fun own hl => ?_
    obtain rfl : own.1 = t := hfree own.1 own.2 hl
    exact hown k own.2 hl
  · rw [hno r hr] at hc
    cases hc

/-- A statement whose rows are unlocked need not wait. Source: none: infrastructure. Kind: L -/
theorem exists_update {v : Versioned τ ρ} {u : Update ρ} (t : τ)
    (h : ∀ r ∈ v.committed, u.cond r = true → v.lock (key r) = none) : ∃ v', v.update t u = some v' := by
  have hfree : v.blocked t u = false := by
    refine List.any_eq_false.mpr fun r hr => ?_
    cases hc : u.cond r with
    | false => simp
    | true => simp [lockedFor, h r hr hc]
  exact ⟨_, by rw [update, hfree]; rfl⟩

/-- A statement that has to wait, waits for somebody. Source: none: infrastructure. Kind: L -/
theorem exists_owner {v : Versioned τ ρ} {t : τ} {u : Update ρ} (h : v.update t u = none) :
    ∃ r ∈ v.committed, u.cond r = true ∧ ∃ s w, s ≠ t ∧ v.lock (key r) = some (s, w) := by
  unfold update at h
  split at h
  · rename_i hblocked
    obtain ⟨r, hr, hown⟩ := List.any_eq_true.mp hblocked
    obtain ⟨hcond, hlocked⟩ := Bool.and_eq_true_iff.mp hown
    obtain ⟨⟨s, w⟩, hlock, hne⟩ := (Option.any_eq_true _ _).mp hlocked
    exact ⟨r, hr, hcond, s, w, of_decide_eq_true hne, hlock⟩
  · cases h

/-- The update of no row changes nothing. Source: none: infrastructure. Kind: L -/
@[simp] theorem update_skip (v : Versioned τ ρ) (t : τ) : v.update t .skip = some v := by
  have hb : v.blocked t .skip = false := by simp [blocked, Update.skip]
  have hl : v.lockAfter t .skip = v.lock := by
    funext k
    simp only [lockAfter, Update.skip]
    cases v.committed.find? k <;> rfl
  simp only [update, hb, hl, Bool.false_eq_true, if_false]

/-- Who has locked a row. Source: none: infrastructure. Kind: L -/
theorem lockedBy_iff {v : Versioned τ ρ} {t : τ} {k : κ} :
    v.lockedBy t k = true ↔ ∃ w, v.lock k = some (t, w) := by
  unfold lockedBy
  cases v.lock k with
  | none => simp
  | some own =>
    obtain ⟨s, w⟩ := own
    simp

/-- A row has one owner. Source: none: infrastructure. Kind: L -/
theorem lockedBy_unique {v : Versioned τ ρ} {s t : τ} {k : κ} (hs : v.lockedBy s k = true)
    (ht : v.lockedBy t k = true) : s = t := by
  obtain ⟨w, hw⟩ := lockedBy_iff.mp hs
  obtain ⟨w', hw'⟩ := lockedBy_iff.mp ht
  rw [hw] at hw'
  cases hw'
  rfl

/-- A transaction that locks a row has not locked it before. Source: none: infrastructure. Kind: L -/
theorem update_of_take {v v' : Versioned τ ρ} {t : τ} {k : κ} (h : v.take t k = some v') :
    v.lockedBy t k = false ∧ v.update t (.keep k) = some v' := by
  unfold take at h
  split at h
  · cases h
  · rename_i hfree
    exact ⟨Bool.eq_false_of_not_eq_true hfree, h⟩

/-- **A lock more**: the other locks are as they were. Source: none: infrastructure. Kind: L -/
theorem lockedBy_take {v v' : Versioned τ ρ} {s t : τ} {k j : κ} (h : v.take t k = some v') :
    v'.lockedBy s j = true ↔ v.lockedBy s j = true ∨ s = t ∧ j = k ∧ v'.lockedBy t k = true := by
  obtain ⟨hfree, hu⟩ := update_of_take h
  constructor
  · intro hlocked
    obtain ⟨w, hw⟩ := lockedBy_iff.mp hlocked
    rcases lock_of_update hu hw with ⟨rfl, r, hr, hcond, -⟩ | hold
    · obtain rfl : j = k := (Table.key_of_find? hr).symm.trans (beq_iff_eq.mp hcond)
      exact .inr ⟨rfl, rfl, hlocked⟩
    · exact .inl (lockedBy_iff.mpr ⟨w, hold⟩)
  · rintro (hold | ⟨rfl, rfl, hlocked⟩)
    · obtain ⟨w, hw⟩ := lockedBy_iff.mp hold
      rcases update_lock hu j with ⟨r, hr, hcond, -, hown⟩ | ⟨-, hsame⟩
      · obtain rfl : j = k := (Table.key_of_find? hr).symm.trans (beq_iff_eq.mp hcond)
        obtain rfl := hown s w hw
        rw [hfree] at hold
        cases hold
      · exact lockedBy_iff.mpr ⟨w, hsame.trans hw⟩
    · exact hlocked

/-- The committed row after a commit. Source: none: infrastructure. Kind: L -/
theorem find?_commit (v : Versioned τ ρ) (t : τ) (k : κ) :
    (v.commit t).committed.find? k = (v.committed.find? k).map (v.publish t) :=
  Table.find?_modify _ _ (v.key_publish t) k

/-- A commit publishes the committer's version. Source: none: infrastructure. Kind: L -/
theorem find?_commit_of_own {v : Versioned τ ρ} {t : τ} {k : κ} {r w : ρ}
    (hr : v.committed.find? k = some r) (hl : v.lock k = some (t, w)) :
    (v.commit t).committed.find? k = some w := by
  have hk := Table.key_of_find? hr
  rw [find?_commit, hr, Option.map_some, publish, hk, hl]
  simp

/-- A commit leaves a row the committer has not locked. Source: none: infrastructure. Kind: L -/
theorem publish_of_not_own {v : Versioned τ ρ} {t : τ} {r : ρ}
    (hl : ∀ w, v.lock (key r) ≠ some (t, w)) : v.publish t r = r := by
  unfold publish
  cases hlk : v.lock (key r) with
  | none => rfl
  | some own =>
    obtain ⟨s, w⟩ := own
    have hs : s ≠ t := by
      rintro rfl
      exact hl w hlk
    simp [hs]

/-- A commit leaves a key the committer has not locked. Source: none: infrastructure. Kind: L -/
theorem find?_commit_of_not_own {v : Versioned τ ρ} {t : τ} {k : κ}
    (hl : ∀ w, v.lock k ≠ some (t, w)) :
    (v.commit t).committed.find? k = v.committed.find? k := by
  rw [find?_commit]
  cases hr : v.committed.find? k with
  | none => rfl
  | some r =>
    obtain rfl := Table.key_of_find? hr
    rw [Option.map_some, publish_of_not_own hl]

/-- A commit without versions changes nothing. Source: none: infrastructure. Kind: L -/
theorem commit_committed_of_unlocked {v : Versioned τ ρ} {t : τ}
    (hl : ∀ k w, v.lock k ≠ some (t, w)) : (v.commit t).committed = v.committed := by
  show v.committed.modify (v.publish t) (v.key_publish t) = v.committed
  exact Table.modify_eq_self fun r _ => publish_of_not_own (hl (key r))

/-- **A committed row after a commit** is the committer's version or the row it was.
Source: none: infrastructure. Kind: L -/
theorem find?_commit_cases {v : Versioned τ ρ} {t : τ} {k : κ} {r' : ρ}
    (h : (v.commit t).committed.find? k = some r') :
    (v.lock k = some (t, r') ∧ ∃ r, v.committed.find? k = some r) ∨
    (v.committed.find? k = some r' ∧ ∀ w, v.lock k ≠ some (t, w)) := by
  by_cases hl : ∃ w, v.lock k = some (t, w)
  · obtain ⟨w, hw⟩ := hl
    cases hr : v.committed.find? k with
    | none => rw [find?_commit, hr] at h; cases h
    | some r =>
      obtain rfl := Option.eq_some_unique (find?_commit_of_own hr hw) h
      exact .inl ⟨hw, r, rfl⟩
  · have hl' : ∀ w, v.lock k ≠ some (t, w) := fun w hw => hl ⟨w, hw⟩
    rw [find?_commit_of_not_own hl'] at h
    exact .inr ⟨h, hl'⟩

/-- The locks after a commit. Source: none: infrastructure. Kind: L -/
theorem lock_commit_iff {v : Versioned τ ρ} {t s : τ} {k : κ} {w : ρ} :
    (v.commit t).lock k = some (s, w) ↔ v.lock k = some (s, w) ∧ s ≠ t :=
  unlock_eq_some_iff

/-- The locks after a rollback. Source: none: infrastructure. Kind: L -/
theorem lock_rollback_iff {v : Versioned τ ρ} {t s : τ} {k : κ} {w : ρ} :
    (v.rollback t).lock k = some (s, w) ↔ v.lock k = some (s, w) ∧ s ≠ t :=
  unlock_eq_some_iff

/-- A commit ends the locks of the committer. Source: none: infrastructure. Kind: L -/
theorem lockedBy_commit (v : Versioned τ ρ) (t : τ) (k : κ) : (v.commit t).lockedBy t k = false := by
  refine Bool.eq_false_of_not_eq_true fun h => ?_
  obtain ⟨w, hw⟩ := lockedBy_iff.mp h
  exact (lock_commit_iff.mp hw).2 rfl

/-- A rollback ends the locks of the transaction. Source: none: infrastructure. Kind: L -/
theorem lockedBy_rollback (v : Versioned τ ρ) (t : τ) (k : κ) : (v.rollback t).lockedBy t k = false := by
  refine Bool.eq_false_of_not_eq_true fun h => ?_
  obtain ⟨w, hw⟩ := lockedBy_iff.mp h
  exact (lock_rollback_iff.mp hw).2 rfl

/-- The committed row after a statement of its own. Source: none: infrastructure. Kind: L -/
theorem find?_modify (v : Versioned τ ρ) (u : Update ρ) (k : κ) :
    (v.modify u).committed.find? k = (v.committed.find? k).map u.apply :=
  Table.find?_modify _ _ u.key_apply k

/-- A committed row after a statement of its own comes from one before. Source: none: infrastructure.
Kind: L -/
theorem mem_modify {v : Versioned τ ρ} {u : Update ρ} {r : ρ} :
    r ∈ (v.modify u).committed ↔ ∃ r₀ ∈ v.committed, u.apply r₀ = r :=
  @Table.mem_modify ρ κ _ _ v.committed u.apply u.key_apply r

/-- A statement of its own changes the rows it is for. Source: none: infrastructure. Kind: L -/
theorem find?_modify_of {v : Versioned τ ρ} {u : Update ρ} {k : κ} {r : ρ}
    (hr : v.committed.find? k = some r) (hc : u.cond r = true) :
    (v.modify u).committed.find? k = some (u.set r) := by
  rw [find?_modify, hr, Option.map_some, Update.apply, if_pos hc]

/-- A statement of its own leaves the rows it is not for. Source: none: infrastructure. Kind: L -/
theorem find?_modify_of_not {v : Versioned τ ρ} {u : Update ρ} {k : κ} {r : ρ}
    (hr : v.committed.find? k = some r) (hc : u.cond r = false) :
    (v.modify u).committed.find? k = some r := by
  rw [find?_modify, hr, Option.map_some, Update.apply, hc]
  rfl

/-- A locked row is not one that a statement may change while nothing it is for is held. Source: none:
infrastructure. Kind: L -/
theorem not_of_held {v : Versioned τ ρ} {p : ρ → Bool} (hfree : v.held p = false) {k : κ} {r : ρ}
    (hr : v.committed.find? k = some r) (hlock : (v.lock k).isSome = true) : p r = false := by
  have hrow := List.any_eq_false.mp hfree r (Table.mem_of_find? hr)
  rw [Table.key_of_find? hr, hlock] at hrow
  simpa using hrow

/-- No open version of a row satisfies `p` while none is pending. Source: none: infrastructure.
Kind: L -/
theorem not_of_pending {v : Versioned τ ρ} {p : ρ → Bool} (hfree : v.pending p = false) {k : κ} {t : τ}
    {r w : ρ} (hr : v.committed.find? k = some r) (hlock : v.lock k = some (t, w)) : p w = false := by
  have hrow := List.any_eq_false.mp hfree r (Table.mem_of_find? hr)
  rw [Table.key_of_find? hr, hlock] at hrow
  simpa using hrow

/-! ## Transactions that run alone -/

/-- A table is given by its rows and its locks. Source: none: infrastructure. Kind: L -/
theorem ext_committed_lock {v v' : Versioned τ ρ} (hcommitted : v.committed = v'.committed)
    (hlock : ∀ k, v.lock k = v'.lock k) : v = v' := by
  obtain ⟨rows, lock, hkey⟩ := v
  obtain ⟨rows', lock', hkey'⟩ := v'
  obtain rfl : rows = rows' := hcommitted
  obtain rfl : lock = lock' := funext hlock
  rfl

/-- A statement of its own that is for no row changes nothing. Source: none: infrastructure. Kind: L -/
theorem modify_eq_self {v : Versioned τ ρ} {u : Update ρ} (h : ∀ r ∈ v.committed, u.cond r = false) :
    v.modify u = v := by
  have hrows : v.committed.modify u.apply u.key_apply = v.committed :=
    Table.modify_eq_self fun r hr => by
      rw [Update.apply, h r hr]
      rfl
  exact ext_committed_lock hrows fun _ => rfl

/-- A deletion of its own that is for no row changes nothing. Source: none: infrastructure. Kind: L -/
theorem delete_eq_self {v : Versioned τ ρ} {p : ρ → Bool} (h : ∀ r ∈ v.committed, p r = false) :
    v.delete p = v :=
  ext_committed_lock (Table.delete_eq_self h) fun _ => rfl

/-- A table without locks is its rows. Source: none: infrastructure. Kind: L -/
theorem eq_ofTable {v : Versioned τ ρ} (h : ∀ k, v.lock k = none) : v = .ofTable v.committed :=
  ext_committed_lock rfl h

/-- A commit without versions changes nothing. Source: none: infrastructure. Kind: L -/
@[simp] theorem commit_ofTable (rows : Table ρ) (t : τ) :
    (ofTable rows : Versioned τ ρ).commit t = .ofTable rows :=
  ext_committed_lock (commit_committed_of_unlocked fun _ _ => nofun) fun _ => rfl

/-- A commit without versions changes nothing. Source: none: infrastructure. Kind: L -/
theorem commit_eq_self {v : Versioned τ ρ} {t : τ} (hown : ∀ k w, v.lock k ≠ some (t, w)) :
    v.commit t = v := by
  refine ext_committed_lock (commit_committed_of_unlocked hown) fun k => Option.ext fun own => ?_
  obtain ⟨s, w⟩ := own
  rw [lock_commit_iff]
  refine and_iff_left_of_imp fun hl hs => ?_
  exact hown k w (hs ▸ hl)

/-- **A transaction of one statement**: its commit makes of each row what the statement assigns and
leaves the locks of the others. Source: none: infrastructure. Kind: L -/
theorem commit_update {v v' : Versioned τ ρ} {t : τ} {u : Update ρ} (h : v.update t u = some v')
    (hown : ∀ k w, v.lock k ≠ some (t, w)) : v'.commit t = v.modify u := by
  refine ext_committed_lock ?_ fun k => Option.ext fun own => ?_
  · show v'.committed.modify (v'.publish t) (v'.key_publish t) = v.committed.modify u.apply u.key_apply
    rw [← update_committed h]
    refine Table.modify_congr fun r hr => ?_
    rw [update_committed h] at hr
    have hfound := Table.find?_of_mem hr
    unfold publish Update.apply
    rcases update_lock h (key r) with ⟨r', hr', hc, hl, -⟩ | ⟨hno, hl⟩
    · obtain rfl := Option.eq_some_unique hfound hr'
      simp [hl, hc]
    · rw [hno r hfound, hl]
      cases hlock : v.lock (key r) with
      | none => rfl
      | some own =>
        have hne : own.1 ≠ t := by
          rintro rfl
          exact hown (key r) own.2 hlock
        simp [hne]
  · obtain ⟨s, w⟩ := own
    rw [lock_commit_iff]
    show v'.lock k = some (s, w) ∧ s ≠ t ↔ v.lock k = some (s, w)
    constructor
    · rintro ⟨hl, hs⟩
      exact (lock_of_update h hl).resolve_left fun hnew => hs hnew.1
    · intro hl
      have hs : s ≠ t := by
        rintro rfl
        exact hown k w hl
      exact ⟨lock_update_of_ne h hl hs, hs⟩

/-- **A transaction that runs alone**: its statement does not wait, and its commit makes of each row
what the statement assigns. Source: none: infrastructure. Kind: L -/
theorem exists_update_ofTable (rows : Table ρ) (t : τ) (u : Update ρ) :
    ∃ v : Versioned τ ρ, (ofTable rows).update t u = some v ∧
      v.commit t = .ofTable (rows.modify u.apply u.key_apply) := by
  have hfree : (ofTable rows : Versioned τ ρ).blocked t u = false := by
    simp [blocked, lockedFor, ofTable]
  obtain ⟨v, hv⟩ : ∃ v, (ofTable rows : Versioned τ ρ).update t u = some v := by
    simp [update, hfree]
  have hlock : ∀ k r, rows.find? k = some r →
      v.lock k = if u.cond r then some (t, u.set r) else none := by
    intro k r hr
    rcases update_lock hv k with ⟨r', hr', hc, hl, -⟩ | ⟨hno, hl⟩
    · obtain rfl := Option.eq_some_unique hr hr'
      rw [hl, hc, if_pos rfl]
    · rw [hl, hno r hr]
      rfl
  refine ⟨v, hv, ext_committed_lock ?_ fun k => ?_⟩
  · have hrows : v.committed = rows := update_committed hv
    show v.committed.modify (v.publish t) (v.key_publish t) = rows.modify u.apply u.key_apply
    rw [← hrows]
    refine Table.modify_congr fun r hr => ?_
    rw [hrows] at hr
    unfold publish Update.apply
    rw [hlock _ r (Table.find?_of_mem hr)]
    cases u.cond r <;> simp
  · show v.unlock t k = none
    unfold unlock
    rcases update_lock hv k with ⟨r, -, -, hl, -⟩ | ⟨-, hl⟩
    · simp [hl]
    · rw [hl]
      rfl

/-! ## Versions stay related to the rows under them -/

/-- Each open version is related by `R` (which may name its owner) to the committed row under it.
Source: none: infrastructure. Kind: D -/
def Based (R : τ → ρ → ρ → Prop) (v : Versioned τ ρ) : Prop :=
  ∀ k t w, v.lock k = some (t, w) → ∃ r, v.committed.find? k = some r ∧ R t r w

section based

variable {R S : τ → ρ → ρ → Prop} {v v' : Versioned τ ρ} {t : τ}

/-- The relation may be weakened. Source: none: infrastructure. Kind: L -/
theorem Based.mono (h : Based R v) (hRS : ∀ s r w, R s r w → S s r w) : Based S v := by
  intro k s w hl
  obtain ⟨r, hr, hR⟩ := h k s w hl
  exact ⟨r, hr, hRS s r w hR⟩

/-- A statement keeps the versions based when its assignment is related on the rows it is for.
Source: none: infrastructure. Kind: L -/
theorem Based.update (h : Based R v) {u : Update ρ}
    (hu : ∀ r ∈ v.committed, u.cond r = true → R t r (u.set r))
    (hv : v.update t u = some v') : Based R v' := by
  intro k s w hl
  rw [update_committed hv]
  rcases lock_of_update hv hl with ⟨rfl, r, hr, hc, rfl⟩ | hold
  · exact ⟨r, hr, hu r (Table.mem_of_find? hr) hc⟩
  · exact h k s w hold

/-- A commit keeps the versions of the other transactions based: their rows are locked, so the
committer has not changed them. Source: none: infrastructure. Kind: L -/
theorem Based.commit (h : Based R v) : Based (fun s r w => s ≠ t ∧ R s r w) (v.commit t) := by
  intro k s w hl
  obtain ⟨hl, hs⟩ := lock_commit_iff.mp hl
  obtain ⟨r, hr, hR⟩ := h k s w hl
  refine ⟨r, ?_, hs, hR⟩
  rw [find?_commit_of_not_own, hr]
  intro w' hw'
  rw [hl] at hw'
  cases hw'
  exact hs rfl

/-- A rollback keeps the versions of the other transactions based.
Source: none: infrastructure. Kind: L -/
theorem Based.rollback (h : Based R v) : Based (fun s r w => s ≠ t ∧ R s r w) (v.rollback t) := by
  intro k s w hl
  obtain ⟨hl, hs⟩ := lock_rollback_iff.mp hl
  obtain ⟨r, hr, hR⟩ := h k s w hl
  exact ⟨r, hr, hs, hR⟩

/-- What a statement that does not wait is for is not locked, so it leaves the row under a version.
Source: none: infrastructure. Kind: L -/
theorem Based.not_of_held (h : Based R v) {p : ρ → Bool} (hfree : v.held p = false) {k : κ} {s : τ}
    {w : ρ} (hl : v.lock k = some (s, w)) :
    ∃ r, v.committed.find? k = some r ∧ p r = false ∧ R s r w := by
  obtain ⟨r, hr, hR⟩ := h k s w hl
  exact ⟨r, hr, Versioned.not_of_held hfree hr (by simp [hl]), hR⟩

/-- A statement of its own keeps the versions based. Source: none: infrastructure. Kind: L -/
theorem Based.modify (h : Based R v) {u : Update ρ} (hfree : v.held u.cond = false) :
    Based R (v.modify u) := by
  intro k s w hl
  obtain ⟨r, hr, hno, hR⟩ := h.not_of_held hfree hl
  exact ⟨r, find?_modify_of_not hr hno, hR⟩

/-- A deletion of its own keeps the versions based. Source: none: infrastructure. Kind: L -/
theorem Based.delete (h : Based R v) {p : ρ → Bool} (hfree : v.held p = false) :
    Based R (v.delete p) := by
  intro k s w hl
  obtain ⟨r, hr, hno, hR⟩ := h.not_of_held hfree hl
  exact ⟨r, Table.find?_delete.mpr ⟨hr, hno⟩, hR⟩

end based

end Versioned

end TrainsAndTracks.Found
