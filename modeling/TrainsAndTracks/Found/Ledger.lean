import Mathlib.Algebra.Order.BigOperators.Group.List
import Mathlib.Algebra.Order.Ring.Nat
import Mathlib.Data.List.Nodup

/-!
# Ledgers

Two sets of books that should agree: each side lists its rows as entries, a key with an amount. Where no
side lists an entry twice, the totals compare as the sets of entries do (`total_le`, `total_eq`), whatever
the order of the rows. With every amount `1` the totals are counts (`total_ones`).
-/

namespace TrainsAndTracks.Found

/-- The rows of one side as entries. Source: none: infrastructure. Kind: D -/
def entries {ρ κ : Type*} (k : ρ → κ) (amount : ρ → ℕ) (rows : List ρ) : List (κ × ℕ) :=
  rows.map fun r => (k r, amount r)

/-- The total of one side. Source: none: infrastructure. Kind: D -/
def total {κ : Type*} (l : List (κ × ℕ)) : ℕ := (l.map Prod.snd).sum

/-- One summand changes. Source: none: infrastructure. Kind: L -/
theorem sum_map_modify {α : Type*} {f : α → ℕ} {g : α → α} {x : α} :
    ∀ {l : List α} {i : ℕ}, l[i]? = some x →
      ((l.modify i g).map f).sum + f x = (l.map f).sum + f (g x)
  | [], i, h => by cases h
  | y :: l, 0, h => by
    obtain rfl : y = x := Option.some.inj h
    simp only [List.modify_zero_cons, List.map_cons, List.sum_cons]
    omega
  | y :: l, i + 1, h => by
    have ih := sum_map_modify (f := f) (g := g) (l := l) (i := i) h
    simp only [List.modify_succ_cons, List.map_cons, List.sum_cons]
    omega

/-- One summand is replaced. Source: none: infrastructure. Kind: L -/
theorem sum_map_set {α : Type*} {f : α → ℕ} {l : List α} {i : ℕ} {x : α} (h : l[i]? = some x) (y : α) :
    ((l.set i y).map f).sum + f x = (l.map f).sum + f y := by
  have hset : l.set i y = l.modify i fun _ => y := by
    rw [List.modify_eq_set_getElem?, h]
    rfl
  rw [hset]
  exact sum_map_modify (g := fun _ => y) h

/-- Summands that are bounded and mostly zero. Source: none: infrastructure. Kind: L -/
theorem sum_map_le_countP {α : Type*} {f : α → ℕ} {p : α → Bool} {n : ℕ} :
    ∀ {l : List α}, (∀ x ∈ l, f x ≤ n * if p x then 1 else 0) → (l.map f).sum ≤ n * l.countP p
  | [], _ => Nat.zero_le _
  | x :: l, h => by
    have ih := sum_map_le_countP (l := l) fun y hy => h y (List.mem_cons_of_mem _ hy)
    have hx := h x List.mem_cons_self
    simp only [List.map_cons, List.sum_cons, List.countP_cons, Nat.mul_add]
    omega

section ledger

variable {ρ κ : Type*} {k : ρ → κ} {amount : ρ → ℕ} {rows : List ρ} {l l' : List (κ × ℕ)}

/-- What one side lists. Source: none: infrastructure. Kind: L -/
theorem mem_entries {x : κ × ℕ} : x ∈ entries k amount rows ↔ ∃ r ∈ rows, (k r, amount r) = x :=
  List.mem_map

/-- Rows with keys of their own give no entry twice. Source: none: infrastructure. Kind: L -/
theorem nodup_entries (hrows : rows.Nodup)
    (hkey : ∀ r ∈ rows, ∀ r' ∈ rows, k r = k r' → r = r') : (entries k amount rows).Nodup :=
  hrows.map_on fun r hr r' hr' heq => hkey r hr r' hr' (congrArg Prod.fst heq)

/-- The total of the rows. Source: none: infrastructure. Kind: L -/
theorem total_entries : total (entries k amount rows) = (rows.map amount).sum := by
  simp [total, entries, Function.comp_def]

/-- The count of the rows. Source: none: infrastructure. Kind: L -/
theorem total_ones : total (entries k (fun _ => 1) rows) = rows.length := by
  simp [total_entries]

/-- Books in another order have the same total. Source: none: infrastructure. Kind: L -/
theorem total_perm (h : l.Perm l') : total l = total l' := (h.map Prod.snd).sum_eq

/-- **What is listed on one side is covered by the other.** Source: none: infrastructure. Kind: L -/
theorem total_le (hnodup : l.Nodup) (hsub : ∀ x ∈ l, x ∈ l') : total l ≤ total l' := by
  obtain ⟨m, hperm, hsublist⟩ := List.subperm_of_subset hnodup hsub
  rw [← total_perm hperm]
  exact (hsublist.map Prod.snd).sum_le_sum fun _ _ => Nat.zero_le _

/-- **The two sides agree.** Source: none: infrastructure. Kind: L -/
theorem total_eq (hnodup : l.Nodup) (hnodup' : l'.Nodup) (h : ∀ x, x ∈ l ↔ x ∈ l') :
    total l = total l' :=
  total_perm ((List.perm_ext_iff_of_nodup hnodup hnodup').mpr h)

end ledger

end TrainsAndTracks.Found
