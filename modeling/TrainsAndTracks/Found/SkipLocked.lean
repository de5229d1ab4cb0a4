import Mathlib.Data.List.MinMax
import Mathlib.Data.List.Perm.Subperm
import TrainsAndTracks.Found.RowLock

/-!
# Rows that nobody has locked

`SELECT … FOR UPDATE SKIP LOCKED` passes over the rows that other transactions have locked and takes one of
the others. The rows it may take are the free ones.

* `Versioned.free p` — the rows that satisfy `p` and are not locked.
* `Versioned.pickFree p` — the free row with the lowest key.
* `Update.lockRow k` — `FOR UPDATE`: the row with key `k` is locked and keeps its version.
* `Versioned.length_free_le` — what was free is free, or is one of the rows that were taken: the free rows
  are at least as many as there were, less the rows taken.
-/

set_option linter.unusedSectionVars false

namespace TrainsAndTracks.Found

variable {τ ρ κ : Type*} [Keyed ρ κ] [DecidableEq κ]

namespace Update

/-- Lock the row with key `k`. Source: none: infrastructure. Kind: D -/
def lockRow (k : κ) : Update ρ where
  cond r := decide (key r = k)
  set r := r
  key_set _ := rfl

/-- The update is for one row only. Source: none: infrastructure. Kind: D -/
def OneRow (u : Update ρ) (k : κ) : Prop := ∀ r, u.cond r = true ↔ key r = k

/-- `FOR UPDATE` of one row. Source: none: infrastructure. Kind: L -/
theorem oneRow_lockRow (k : κ) : (lockRow k : Update ρ).OneRow k := fun _ => decide_eq_true_iff

end Update

namespace Versioned

variable [DecidableEq τ]

/-! ## Updates of one row -/

section oneRow

variable {v v' : Versioned τ ρ} {t : τ} {u : Update ρ} {k : κ} {r : ρ}

/-- **The locks after the update of one row.** Source: none: infrastructure. Kind: L -/
theorem lock_update_oneRow (hu : u.OneRow k) (hr : v.committed.find? k = some r)
    (h : v.update t u = some v') (k' : κ) :
    v'.lock k' = if k' = k then some (t, u.set r) else v.lock k' := by
  by_cases hk : k' = k
  · subst hk
    rw [if_pos rfl]
    exact lock_update_of_cond h hr ((hu r).mpr (Table.key_of_find? hr))
  · rw [if_neg hk]
    rcases update_lock h k' with ⟨r', hr', hc, -, -⟩ | ⟨-, hl⟩
    · exact absurd ((Table.key_of_find? hr').symm.trans ((hu r').mp hc)) hk
    · exact hl

/-- The update of one row runs if nobody else has locked it. Source: none: infrastructure. Kind: L -/
theorem exists_update_oneRow (hu : u.OneRow k) (t : τ) (hk : v.lockedFor t k = false) :
    ∃ v', v.update t u = some v' := by
  have hfree : v.blocked t u = false := by
    refine List.any_eq_false.mpr fun r _ => ?_
    cases hc : u.cond r with
    | false => simp
    | true => simp [(hu r).mp hc, hk]
  exact ⟨_, by rw [update, hfree]; rfl⟩

end oneRow

/-! ## Free rows -/

section free

variable {v v₀ : Versioned τ ρ} {p : ρ → Bool} {r : ρ} {k : κ}

/-- The rows that satisfy `p` and are not locked. Source: none: infrastructure. Kind: D -/
def free (v : Versioned τ ρ) (p : ρ → Bool) : List ρ :=
  v.committed.select fun r => p r && (v.lock (key r)).isNone

/-- The free row with the lowest key. Source: none: infrastructure. Kind: D -/
def pickFree [LinearOrder κ] (v : Versioned τ ρ) (p : ρ → Bool) : Option ρ :=
  (v.free p).argmin (key : ρ → κ)

/-- A free row. Source: none: infrastructure. Kind: L -/
theorem mem_free : r ∈ v.free p ↔ r ∈ v.committed ∧ p r = true ∧ v.lock (key r) = none := by
  rw [free, Table.mem_select, Bool.and_eq_true, Option.isNone_iff_eq_none]

/-- The keys of the free rows are distinct. Source: none: infrastructure. Kind: L -/
theorem nodup_free (v : Versioned τ ρ) (p : ρ → Bool) : ((v.free p).map (key : ρ → κ)).Nodup :=
  v.committed.keys_nodup.sublist (List.filter_sublist.map _)

/-- **Counting free rows.** If each row that was free is free or has one of the keys `taken`, there are as
many free rows as there were, less `taken`. Source: none: infrastructure. Kind: L -/
theorem length_free_le {taken : List κ}
    (h : ∀ r ∈ v₀.free p, (∃ r' ∈ v.free p, key r' = key r) ∨ key r ∈ taken) :
    (v₀.free p).length ≤ (v.free p).length + taken.length := by
  have hsub : (v₀.free p).map (key : ρ → κ) ⊆ (v.free p).map key ++ taken := by
    intro k hk
    obtain ⟨r, hr, rfl⟩ := List.mem_map.mp hk
    rcases h r hr with ⟨r', hr', heq⟩ | htaken
    · exact List.mem_append_left _ (List.mem_map.mpr ⟨r', hr', heq⟩)
    · exact List.mem_append_right _ htaken
  have hle := (List.subperm_of_subset (nodup_free v₀ p) hsub).length_le
  simpa using hle

/-- Locking a free row leaves fewer. Source: none: infrastructure. Kind: L -/
theorem length_free_lt (hsub : ∀ x ∈ v.free p, x ∈ v₀.free p) (hr : r ∈ v₀.free p)
    (hlock : v.lock (key r) ≠ none) : (v.free p).length < (v₀.free p).length := by
  have hnot : key r ∉ (v.free p).map (key : ρ → κ) := by
    intro hk
    obtain ⟨x, hx, heq⟩ := List.mem_map.mp hk
    rw [← heq] at hlock
    exact hlock (mem_free.mp hx).2.2
  have hsubset : key r :: (v.free p).map (key : ρ → κ) ⊆ (v₀.free p).map key := by
    intro k hk
    rcases List.mem_cons.mp hk with rfl | hk
    · exact List.mem_map.mpr ⟨r, hr, rfl⟩
    · obtain ⟨x, hx, rfl⟩ := List.mem_map.mp hk
      exact List.mem_map.mpr ⟨x, hsub x hx, rfl⟩
  have hle := (List.subperm_of_subset (List.nodup_cons.mpr ⟨hnot, nodup_free v p⟩) hsubset).length_le
  rwa [List.length_cons, List.length_map, List.length_map] at hle

/-- The free rows depend on what is locked, not on who has locked it. Source: none: infrastructure. Kind: L -/
theorem free_congr (hrows : v.committed = v₀.committed)
    (hlock : ∀ k, (v.lock k).isNone = (v₀.lock k).isNone) : v.free p = v₀.free p := by
  unfold free
  rw [hrows]
  exact congrArg _ (funext fun r => by rw [hlock])

/-- The pick is a free row, and no free row has a lower key. Source: none: infrastructure. Kind: L -/
theorem pickFree_eq_some [LinearOrder κ] (h : v.pickFree p = some r) :
    r ∈ v.free p ∧ ∀ x ∈ v.free p, key r ≤ key x :=
  ⟨List.argmin_mem h, fun _ hx => List.le_of_mem_argmin hx h⟩

/-- A free row that no free row is below is the pick. Source: none: infrastructure. Kind: L -/
theorem pickFree_of_le [LinearOrder κ] (hr : r ∈ v.free p) (hle : ∀ x ∈ v.free p, key r ≤ key x) :
    v.pickFree p = some r := by
  obtain ⟨m, hm⟩ : ∃ m, v.pickFree p = some m := by
    refine Option.ne_none_iff_exists'.mp fun hnone => ?_
    have hempty : v.free p = [] := List.argmin_eq_none.mp hnone
    rw [hempty] at hr
    exact absurd hr List.not_mem_nil
  obtain ⟨hmem, hlow⟩ := pickFree_eq_some hm
  have hkey : key m = key r := le_antisymm (hlow r hr) (hle m hmem)
  rw [hm, Table.eq_of_key_eq (mem_free.mp hmem).1 (mem_free.mp hr).1 hkey]

end free

end Versioned

end TrainsAndTracks.Found
