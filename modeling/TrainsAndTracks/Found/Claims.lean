import Mathlib.Logic.Function.Basic
import TrainsAndTracks.Found.Table

/-!
# Inserts on a unique key under READ COMMITTED

`Claims τ ρ` is a table into which concurrent transactions `τ` insert rows. A row that is inserted and not
yet committed claims its key: nobody else sees the row, and nobody else can insert one with that key until
the transaction has ended. A claimed key has no committed row, which is built into the type.

* `Claims.arbitrate v t r` — `INSERT … ON CONFLICT DO NOTHING` of `r` by `t`. The conflict is decided on
  the rows committed at that moment, whatever snapshot the statement reads.
* `Claims.commit v t k`, `Claims.rollback v t k` — the end of a transaction that may have claimed `k`.
-/

set_option linter.unusedSectionVars false

namespace TrainsAndTracks.Found

/-- A table with committed rows and claimed keys. Source: none: infrastructure. Kind: D -/
structure Claims (τ ρ : Type*) {κ : outParam Type*} [Keyed ρ κ] [DecidableEq κ] where
  /-- The rows every new snapshot sees. -/
  committed : Table ρ
  /-- Who has inserted a row with this key without having committed, and the row. -/
  claim : κ → Option (τ × ρ)
  /-- A row claims its own key. -/
  claim_key : ∀ k own, claim k = some own → key own.2 = k
  /-- A claimed key is not in use. -/
  claim_new : ∀ k t r, claim k = some (t, r) → committed.find? k = none

/-- What becomes of an insert. Source: none: infrastructure. Kind: D -/
inductive Arbitration (τ ρ : Type*) {κ : outParam Type*} [Keyed ρ κ] [DecidableEq κ]
  /-- Another transaction has claimed the key: the statement waits for its end. -/
  | waits
  /-- The key is in use: nothing is inserted. -/
  | conflict
  | inserted (v : Claims τ ρ)

namespace Claims

variable {τ ρ κ : Type*} [Keyed ρ κ] [DecidableEq κ] [DecidableEq τ]

/-- A table without claims. Source: none: infrastructure. Kind: D -/
def ofTable (t : Table ρ) : Claims τ ρ := ⟨t, fun _ => none, nofun, nofun⟩

/-- The claims without the one on `k`. Source: none: infrastructure. Kind: D -/
def unclaim (v : Claims τ ρ) (k k' : κ) : Option (τ × ρ) := if k' = k then none else v.claim k'

/-- What is left of the claims was there. Source: none: infrastructure. Kind: L -/
theorem unclaim_eq_some_iff {v : Claims τ ρ} {k k' : κ} {own : τ × ρ} :
    v.unclaim k k' = some own ↔ k' ≠ k ∧ v.claim k' = some own := by
  unfold unclaim
  split <;> simp [*]

/-- `t` inserts `r` unless its key is in use. Source: none: infrastructure. Kind: D -/
def arbitrate (v : Claims τ ρ) (t : τ) (r : ρ) : Arbitration τ ρ :=
  if h : v.committed.find? (key r) = none then
    match v.claim (key r) with
    | some (s, _) => if s = t then .conflict else .waits
    | none => .inserted
        { v with
          claim := fun k => if k = key r then some (t, r) else v.claim k
          claim_key := by
            intro k own hk
            split at hk
            · rename_i heq
              cases hk
              exact heq.symm
            · exact v.claim_key k own hk
          claim_new := by
            intro k s w hk
            split at hk
            · rename_i heq
              rw [heq, h]
            · exact v.claim_new k s w hk }
  else .conflict

/-- `t` commits; its row, if it has claimed `k`, becomes visible. Source: none: infrastructure. Kind: D -/
def commit (v : Claims τ ρ) (t : τ) (k : κ) : Claims τ ρ :=
  match h : v.claim k with
  | some (s, r) =>
    if s = t then
      { committed := v.committed.insert r (by rw [v.claim_key k (s, r) h]; exact v.claim_new k s r h)
        claim := v.unclaim k
        claim_key := fun k' own hk => v.claim_key k' own (unclaim_eq_some_iff.mp hk).2
        claim_new := by
          intro k' s' w hk
          obtain ⟨hne, hk⟩ := unclaim_eq_some_iff.mp hk
          rw [Table.find?_insert, if_neg (by rw [v.claim_key k (s, r) h]; exact Ne.symm hne)]
          exact v.claim_new k' s' w hk }
    else v
  | none => v

/-- `t` is rolled back; its claim of `k`, if it has one, is gone. Source: none: infrastructure. Kind: D -/
def rollback (v : Claims τ ρ) (t : τ) (k : κ) : Claims τ ρ :=
  match v.claim k with
  | some (s, _) =>
    if s = t then
      { committed := v.committed
        claim := v.unclaim k
        claim_key := fun k' own hk => v.claim_key k' own (unclaim_eq_some_iff.mp hk).2
        claim_new := fun k' s' w hk => v.claim_new k' s' w (unclaim_eq_some_iff.mp hk).2 }
    else v
  | none => v

/-! ## What each operation does -/

variable {v v' : Claims τ ρ} {t : τ} {r : ρ} {k : κ}

/-- An insert meets a conflict where the key is in use or claimed by the transaction itself.
Source: none: infrastructure. Kind: L -/
theorem arbitrate_eq_conflict (h : v.arbitrate t r = .conflict) :
    (∃ w, v.committed.find? (key r) = some w) ∨ ∃ w, v.claim (key r) = some (t, w) := by
  unfold arbitrate at h
  split at h
  · split at h
    · rename_i s w hclaim
      split at h
      · rename_i heq
        subst heq
        exact .inr ⟨w, hclaim⟩
      · cases h
    · cases h
  · rename_i hne
    exact .inl (Option.ne_none_iff_exists'.mp hne)

/-- An insert that goes through claims a key that was free. Source: none: infrastructure. Kind: L -/
theorem arbitrate_eq_inserted (h : v.arbitrate t r = .inserted v') :
    v.committed.find? (key r) = none ∧ v.claim (key r) = none ∧ v'.committed = v.committed ∧
      ∀ k, v'.claim k = if k = key r then some (t, r) else v.claim k := by
  unfold arbitrate at h
  split at h
  · rename_i hnone
    split at h
    · split at h <;> cases h
    · rename_i hclaim
      cases h
      exact ⟨hnone, hclaim, rfl, fun _ => rfl⟩
  · cases h

/-- **A commit** publishes the row that claims the key, or changes nothing.
Source: none: infrastructure. Kind: L -/
theorem commit_cases (v : Claims τ ρ) (t : τ) (k : κ) :
    (∃ r, v.claim k = some (t, r) ∧ (v.commit t k).claim = v.unclaim k ∧
      ∀ k', (v.commit t k).committed.find? k' = if k' = k then some r else v.committed.find? k') ∨
    (∀ r, v.claim k ≠ some (t, r)) ∧ v.commit t k = v := by
  unfold commit
  split
  · rename_i s r hclaim
    split
    · rename_i heq
      subst heq
      refine .inl ⟨r, hclaim, rfl, fun k' => ?_⟩
      rw [Table.find?_insert, v.claim_key k (s, r) hclaim]
      exact if_congr eq_comm rfl rfl
    · rename_i hne
      refine .inr ⟨fun r' hr' => ?_, rfl⟩
      rw [hclaim] at hr'
      cases hr'
      exact hne rfl
  · rename_i hclaim
    refine .inr ⟨fun r' hr' => ?_, rfl⟩
    rw [hclaim] at hr'
    cases hr'

/-- A rollback leaves the committed rows. Source: none: infrastructure. Kind: L -/
theorem rollback_committed (v : Claims τ ρ) (t : τ) (k : κ) :
    (v.rollback t k).committed = v.committed := by
  unfold rollback
  split
  · split <;> rfl
  · rfl

/-- A rollback withdraws the claims of its transaction on the key. Source: none: infrastructure. Kind: L -/
theorem rollback_claim_iff {k' : κ} {s : τ} :
    (v.rollback t k).claim k' = some (s, r) ↔ v.claim k' = some (s, r) ∧ ¬ (k' = k ∧ s = t) := by
  unfold rollback
  split
  · rename_i s' w hclaim
    split
    · rename_i heq
      subst heq
      refine unclaim_eq_some_iff.trans ⟨fun ⟨hne, h⟩ => ⟨h, fun hk => hne hk.1⟩, fun ⟨h, hno⟩ => ⟨?_, h⟩⟩
      rintro rfl
      rw [hclaim] at h
      cases h
      exact hno ⟨rfl, rfl⟩
    · rename_i hne
      refine ⟨fun h => ⟨h, ?_⟩, And.left⟩
      rintro ⟨rfl, rfl⟩
      rw [hclaim] at h
      cases h
      exact hne rfl
  · rename_i hclaim
    refine ⟨fun h => ⟨h, ?_⟩, And.left⟩
    rintro ⟨rfl, -⟩
    rw [hclaim] at h
    cases h

end Claims

end TrainsAndTracks.Found
