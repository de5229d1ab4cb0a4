import Mathlib.Data.Fintype.EquivFin
import Mathlib.Data.List.Nodup
import Mathlib.Data.List.Basic

/-!
# Keyed tables

A `Table ρ` is a finite list of rows with pairwise distinct primary keys (`Keyed.key`); the
distinctness is a field, so no operation can build a table with a duplicated key.

* `Table.find? t k` — the row with key `k`. All facts below are stated through it: a table is
  read as a finite partial function from keys to rows.
* `Table.modify t g` — every row `r` becomes `g r`, for a `g` that keeps keys (`UPDATE`).
* `Table.insert t r` — append a row whose key is new (`INSERT`).
* `Table.delete t p` — the rows not satisfying `p` are left (`DELETE`).
* `Table.select t p` — the rows satisfying `p` (`SELECT … WHERE`).
-/

set_option linter.unusedSectionVars false

namespace TrainsAndTracks.Found

/-- A row type with a primary key. Source: none: infrastructure. Kind: D -/
class Keyed (ρ : Type*) (κ : outParam Type*) where
  /-- The primary key of a row. -/
  key : ρ → κ

export Keyed (key)

/-- A table: rows with pairwise distinct keys. Source: none: infrastructure. Kind: D -/
structure Table (ρ : Type*) {κ : outParam Type*} [Keyed ρ κ] where
  /-- The rows, in physical order. -/
  rows : List ρ
  /-- The primary key is unique. -/
  keys_nodup : (rows.map key).Nodup

namespace Table

variable {ρ κ : Type*} [Keyed ρ κ] [DecidableEq κ]

instance : Membership ρ (Table ρ) := ⟨fun t r => r ∈ t.rows⟩

/-- The table without rows. Source: none: infrastructure. Kind: D -/
def empty : Table ρ := ⟨[], by simp⟩

/-- The row with key `k`. Source: none: infrastructure. Kind: D -/
def find? (t : Table ρ) (k : κ) : Option ρ := t.rows.find? fun r => key r = k

/-- The rows satisfying `p`. Source: none: infrastructure. Kind: D -/
def select (t : Table ρ) (p : ρ → Bool) : List ρ := t.rows.filter p

/-- Every row `r` replaced by `g r`, which keeps the key. Source: none: infrastructure. Kind: D -/
def modify (t : Table ρ) (g : ρ → ρ) (hg : ∀ r, key (g r) = key r) : Table ρ :=
  ⟨t.rows.map g, by
    have : key ∘ g = (key : ρ → κ) := funext hg
    rw [List.map_map, this]
    exact t.keys_nodup⟩

/-- A row with a new key appended. Source: none: infrastructure. Kind: D -/
def insert (t : Table ρ) (r : ρ) (h : t.find? (key r) = none) : Table ρ :=
  ⟨t.rows ++ [r], by
    simp only [find?, List.find?_eq_none, decide_eq_true_eq] at h
    rw [List.map_append, List.nodup_append]
    refine ⟨t.keys_nodup, by simp, fun a ha b hb => ?_⟩
    obtain ⟨r', hr', rfl⟩ := List.mem_map.mp ha
    obtain rfl : b = key r := by simpa using hb
    exact h r' hr'⟩

/-- The rows satisfying `p` removed. Source: none: infrastructure. Kind: D -/
def delete (t : Table ρ) (p : ρ → Bool) : Table ρ :=
  ⟨t.rows.filter fun r => !p r, t.keys_nodup.sublist (List.filter_sublist.map key)⟩

/-! ## Reading a table -/

/-- Membership is membership among the rows. Source: none: infrastructure. Kind: L -/
theorem mem_def (t : Table ρ) (r : ρ) : r ∈ t ↔ r ∈ t.rows := Iff.rfl

/-- What `find?` returns has the key asked for. Source: none: infrastructure. Kind: L -/
theorem key_of_find? {t : Table ρ} {k : κ} {r : ρ} (h : t.find? k = some r) : key r = k := by
  simpa using List.find?_some h

/-- What `find?` returns is a row. Source: none: infrastructure. Kind: L -/
theorem mem_of_find? {t : Table ρ} {k : κ} {r : ρ} (h : t.find? k = some r) : r ∈ t :=
  List.mem_of_find?_eq_some h

/-- No row is there twice. Source: none: infrastructure. Kind: L -/
theorem nodup_rows (t : Table ρ) : t.rows.Nodup := t.keys_nodup.of_map

/-- Two rows with one key are the same row. Source: none: infrastructure. Kind: L -/
theorem eq_of_key_eq {t : Table ρ} {r r' : ρ} (h : r ∈ t) (h' : r' ∈ t) (hk : key r = key r') :
    r = r' :=
  List.inj_on_of_nodup_map t.keys_nodup h h' hk

/-- A row is found under its key. Source: none: infrastructure. Kind: L -/
theorem find?_of_mem {t : Table ρ} {r : ρ} (h : r ∈ t) : t.find? (key r) = some r := by
  cases hf : t.find? (key r) with
  | none =>
    simp only [find?, List.find?_eq_none, decide_eq_true_eq] at hf
    exact absurd rfl (hf r h)
  | some r' => rw [eq_of_key_eq (mem_of_find? hf) h (key_of_find? hf)]

/-- What `find?` returns. Source: none: infrastructure. Kind: L -/
theorem find?_eq_some_iff {t : Table ρ} {k : κ} {r : ρ} : t.find? k = some r ↔ r ∈ t ∧ key r = k := by
  constructor
  · intro h
    exact ⟨mem_of_find? h, key_of_find? h⟩
  · rintro ⟨hr, rfl⟩
    exact find?_of_mem hr

/-- Some key is not in use. Source: none: infrastructure. Kind: L -/
theorem exists_find?_eq_none [Infinite κ] (t : Table ρ) : ∃ k, t.find? k = none := by
  obtain ⟨k, hk⟩ := Infinite.exists_notMem_finset (t.rows.map key).toFinset
  refine ⟨k, List.find?_eq_none.mpr fun r hr => ?_⟩
  simp only [decide_eq_true_eq]
  rintro rfl
  exact hk (List.mem_toFinset.mpr (List.mem_map_of_mem hr))

/-- The rows `select` returns. Source: none: infrastructure. Kind: L -/
theorem mem_select {t : Table ρ} {p : ρ → Bool} {r : ρ} :
    r ∈ t.select p ↔ r ∈ t ∧ p r = true := by
  simp [select, mem_def]

/-- Where the rows that satisfy `p` have one key there is at most one. Source: none: infrastructure.
Kind: L -/
theorem length_select_le_one {t : Table ρ} {p : ρ → Bool}
    (h : ∀ r ∈ t.select p, ∀ r' ∈ t.select p, key r = key r') : (t.select p).length ≤ 1 := by
  have hnodup : (t.select p).Nodup := t.nodup_rows.filter p
  cases hrows : t.select p with
  | nil => exact Nat.zero_le 1
  | cons r rows =>
    have hnone : rows = [] := by
      refine List.eq_nil_iff_forall_not_mem.mpr fun r' hr' => ?_
      have hmem : r' ∈ t.select p := by simp [hrows, hr']
      have hhead : r ∈ t.select p := by simp [hrows]
      obtain rfl := eq_of_key_eq (mem_select.mp hhead).1 (mem_select.mp hmem).1 (h r hhead r' hmem)
      rw [hrows] at hnodup
      exact (List.nodup_cons.mp hnodup).1 hr'
    simp [hnone]

/-- The empty table holds nothing. Source: none: infrastructure. Kind: L -/
@[simp] theorem not_mem_empty (r : ρ) : ¬ r ∈ (empty : Table ρ) := by simp [mem_def, empty]

/-! ## Updates -/

/-- An update acts row by row. Source: none: infrastructure. Kind: L -/
@[simp] theorem find?_modify (t : Table ρ) (g : ρ → ρ) (hg : ∀ r, key (g r) = key r) (k : κ) :
    (t.modify g hg).find? k = (t.find? k).map g := by
  simp only [find?, modify, List.find?_map, Function.comp_def, hg]

/-- Two modifications that agree on the rows. Source: none: infrastructure. Kind: L -/
theorem modify_congr {t : Table ρ} {g g' : ρ → ρ} {hg : ∀ r, key (g r) = key r}
    {hg' : ∀ r, key (g' r) = key r} (h : ∀ r ∈ t, g r = g' r) : t.modify g hg = t.modify g' hg' := by
  have hrows : t.rows.map g = t.rows.map g' := List.map_congr_left h
  simp only [modify, hrows]

/-- An update that changes no row changes nothing. Source: none: infrastructure. Kind: L -/
theorem modify_eq_self {t : Table ρ} {g : ρ → ρ} {hg : ∀ r, key (g r) = key r}
    (h : ∀ r ∈ t, g r = r) : t.modify g hg = t := by
  obtain ⟨rows, hnodup⟩ := t
  simp only [modify, mk.injEq]
  exact (List.map_congr_left h).trans (List.map_id' rows)

/-- The rows after an update. Source: none: infrastructure. Kind: L -/
theorem mem_modify {t : Table ρ} {g : ρ → ρ} {hg : ∀ r, key (g r) = key r} {r : ρ} :
    r ∈ t.modify g hg ↔ ∃ r₀ ∈ t, g r₀ = r := by
  simp [modify, mem_def]

/-- An insertion adds one key. Source: none: infrastructure. Kind: L -/
theorem find?_insert (t : Table ρ) (r : ρ) (h : t.find? (key r) = none) (k : κ) :
    (t.insert r h).find? k = if key r = k then some r else t.find? k := by
  simp only [find?, insert, List.find?_append, List.find?_singleton, decide_eq_true_eq]
  by_cases hk : key r = k
  · subst hk
    have h' : t.rows.find? (fun r' => decide (key r' = key r)) = none := h
    simp [h']
  · simp [hk]

/-- The rows after an insertion. Source: none: infrastructure. Kind: L -/
theorem mem_insert {t : Table ρ} {r r' : ρ} {h : t.find? (key r) = none} :
    r' ∈ t.insert r h ↔ r' ∈ t ∨ r' = r := by
  simp [insert, mem_def]

/-- An insertion keeps every row there was. Source: none: infrastructure. Kind: L -/
theorem find?_insert_of_some {t : Table ρ} {r r' : ρ} {h : t.find? (key r) = none} {k : κ}
    (hk : t.find? k = some r') : (t.insert r h).find? k = some r' := by
  rw [find?_insert, if_neg, hk]
  rintro rfl
  rw [h] at hk
  cases hk

/-- The rows after a deletion. Source: none: infrastructure. Kind: L -/
theorem mem_delete {t : Table ρ} {p : ρ → Bool} {r : ρ} : r ∈ t.delete p ↔ r ∈ t ∧ p r = false := by
  simp [delete, mem_def]

/-- A row after a deletion was there and was not to be deleted. Source: none: infrastructure.
Kind: L -/
theorem find?_delete {t : Table ρ} {p : ρ → Bool} {k : κ} {r : ρ} :
    (t.delete p).find? k = some r ↔ t.find? k = some r ∧ p r = false := by
  rw [find?_eq_some_iff, find?_eq_some_iff, mem_delete]
  exact and_right_comm

/-- A deletion of no row changes nothing. Source: none: infrastructure. Kind: L -/
theorem delete_eq_self {t : Table ρ} {p : ρ → Bool} (h : ∀ r ∈ t, p r = false) : t.delete p = t := by
  obtain ⟨rows, hnodup⟩ := t
  simp only [delete, mk.injEq]
  exact List.filter_eq_self.mpr fun r hr => by rw [h r hr]; rfl

end Table

end TrainsAndTracks.Found
