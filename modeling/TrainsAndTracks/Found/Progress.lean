import TrainsAndTracks.Found.Run

/-!
# Systems that get on

Two general reasons why a system of processes does not stop half way.

* `Ranked waits rank` — whoever waits, waits for somebody of higher rank. Then nobody waits for himself,
  round any number of corners (`Ranked.not_cycle`), and where ranks are bounded everybody who waits leads to
  somebody who does not (`Ranked.exists_free`): the classical lock order.
* `countP_add_le_tally` — the work of a run is bounded by what there was to do and what its steps have added
  (`tally`).
-/

namespace TrainsAndTracks.Found

/-! ## Waiting in ranks -/

section waiting

variable {ι μ : Type*} [Preorder μ] {waits : ι → ι → Prop} {rank : ι → μ}

/-- Whoever waits, waits for somebody of higher rank. Source: none: infrastructure. Kind: D -/
def Ranked (waits : ι → ι → Prop) (rank : ι → μ) : Prop := ∀ i j, waits i j → rank i < rank j

/-- At the end of a chain of waits stands a higher rank. Source: none: infrastructure. Kind: L -/
theorem Ranked.lt_of_chain (h : Ranked waits rank) {i j : ι} (hij : Relation.TransGen waits i j) :
    rank i < rank j := by
  induction hij with
  | single hw => exact h _ _ hw
  | tail _ hw ih => exact ih.trans (h _ _ hw)

/-- **No circle of waits.** Source: none: infrastructure. Kind: L -/
theorem Ranked.not_cycle (h : Ranked waits rank) (i : ι) : ¬ Relation.TransGen waits i i :=
  fun hii => lt_irrefl _ (h.lt_of_chain hii)

/-- **Somebody does not wait**: every chain of waits ends. Source: none: infrastructure. Kind: L -/
theorem Ranked.exists_free [WellFoundedGT μ] (h : Ranked waits rank) (i : ι) :
    ∃ j, Relation.ReflTransGen waits i j ∧ ∀ k, ¬ waits j k := by
  induction i using (InvImage.wf rank (wellFounded_gt (α := μ))).induction with
  | _ i ih =>
    by_cases hfree : ∀ k, ¬ waits i k
    · exact ⟨i, .refl, hfree⟩
    · push Not at hfree
      obtain ⟨j, hij⟩ := hfree
      obtain ⟨k, hjk, hfree⟩ := ih j (h i j hij)
      exact ⟨k, .head hij hjk, hfree⟩

end waiting

/-! ## Schedules that end -/

section schedules

variable {σ α : Type*} {step : σ → α → Option σ} {works : α → Prop} {P : σ → Prop} {left : σ → ℕ}

/-- What each step of a schedule keeps, the schedule keeps. Source: none: infrastructure. Kind: L -/
theorem invariant_of_run (hP : ∀ s a s', P s → works a → step s a = some s' → P s') :
    ∀ {as : List α} {s t : σ}, P s → (∀ a ∈ as, works a) → run step s as = some t → P t
  | [], s, t, hs, _, h => by
      simp only [run, Option.some.injEq] at h
      rwa [← h]
  | a :: as, s, t, hs, hw, h => by
      simp only [run, Option.bind_eq_some_iff] at h
      obtain ⟨s', ha, hrest⟩ := h
      exact invariant_of_run hP (hP s a s' hs (hw a (by simp)) ha) (fun b hb => hw b (by simp [hb])) hrest

/-- What the steps of a schedule come to, each valued in the state before it. Source: none: infrastructure.
Kind: D -/
def tally (step : σ → α → Option σ) (f : σ → α → ℕ) : σ → List α → ℕ
  | _, [] => 0
  | s, a :: as => f s a + match step s a with
    | some s' => tally step f s' as
    | none => 0

/-- Two values are tallied one by one. Source: none: infrastructure. Kind: L -/
theorem tally_add (f g : σ → α → ℕ) (s : σ) (as : List α) :
    tally step (fun s a => f s a + g s a) s as = tally step f s as + tally step g s as := by
  induction as generalizing s with
  | nil => rfl
  | cons a as ih =>
    simp only [tally]
    split
    · rw [ih]
      omega
    · omega

/-- A value that the state has no part in is counted. Source: none: infrastructure. Kind: L -/
theorem tally_ite {q : α → Bool} {k : ℕ} {as : List α} {s t : σ} (h : run step s as = some t) :
    tally step (fun _ a => if q a then k else 0) s as = k * as.countP q := by
  induction as generalizing s with
  | nil => simp [tally]
  | cons a as ih =>
    simp only [run, Option.bind_eq_some_iff] at h
    obtain ⟨s', ha, hrest⟩ := h
    simp only [tally, ha, ih hrest, List.countP_cons]
    by_cases hq : q a = true
    · rw [if_pos hq, if_pos hq, Nat.mul_succ, Nat.add_comm]
    · rw [if_neg hq, if_neg hq, Nat.zero_add, Nat.add_zero]

/-- **Work is paid for.** Where each step that works takes one of what is left to do, and a step adds to it no
more than its value, a run does no more work than was left and was added: the banker's account. Source: none:
infrastructure. Kind: L -/
theorem countP_add_le_tally {p : α → Bool} {f : σ → α → ℕ} (hP : ∀ s a s', P s → step s a = some s' → P s')
    (hpaid : ∀ s a s', P s → step s a = some s' → left s' + (if p a then 1 else 0) ≤ left s + f s a)
    {as : List α} {s t : σ} (hs : P s) (h : run step s as = some t) :
    as.countP p + left t ≤ left s + tally step f s as := by
  induction as generalizing s with
  | nil =>
    simp only [run, Option.some.injEq] at h
    simp [h, tally]
  | cons a as ih =>
    simp only [run, Option.bind_eq_some_iff] at h
    obtain ⟨s', ha, hrest⟩ := h
    have hone := hpaid s a s' hs ha
    have hmore := ih (hP s a s' hs ha) hrest
    simp only [tally, ha, List.countP_cons]
    omega

/-- The same where some steps add, at most `k` each. Source: none: infrastructure. Kind: L -/
theorem countP_add_le_of_run {p q : α → Bool} {k : ℕ} (hP : ∀ s a s', P s → step s a = some s' → P s')
    (hpaid : ∀ s a s', P s → step s a = some s' →
      left s' + (if p a then 1 else 0) ≤ left s + if q a then k else 0)
    {as : List α} {s t : σ} (hs : P s) (h : run step s as = some t) :
    as.countP p + left t ≤ left s + k * as.countP q := by
  rw [← tally_ite h]
  exact countP_add_le_tally hP hpaid hs h

end schedules

end TrainsAndTracks.Found
