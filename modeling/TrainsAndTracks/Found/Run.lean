import Mathlib.Data.Nat.Notation
import Mathlib.Logic.Relation
import Mathlib.Order.WellFounded

/-!
# Runs of a system that takes guarded steps

A system here is a partial step function `step : σ → α → Option σ`: action `a` is possible in
state `s` when `step s a` is a state. Properties of runs are stated over three notions.

* `Steps step C s t` — a run from `s` to `t` every step of which meets the condition `C` (a
  condition on the state before the step and the action taken).
* `Reach step init C t` — `t` is reached from an initial state by such a run.
* `Endless step C s` — a run that goes on for ever.
* `run step s as` — the executable run along a list of actions, for evaluating one schedule.

`Reach.invariant` is the induction rule: a property that holds initially and survives each step
that meets `C` holds in every state reached. `Reach.simulate` carries reachability along a map of
states, which is how a result about a component is used in the system that contains it.
`not_endless` is the rule for runs that end and `exists_end` the rule for runs to an end, `occurs_le_one` the
rule for steps that a run takes at most once.
-/

namespace TrainsAndTracks.Found

variable {σ τ α β : Type*}

/-- One step of `step` by some action that meets `C` in the state before it.
Source: none: infrastructure. Kind: D -/
def StepUnder (step : σ → α → Option σ) (C : σ → α → Prop) (s t : σ) : Prop :=
  ∃ a, C s a ∧ step s a = some t

/-- A run from `s` to `t` every step of which meets `C`. Source: none: infrastructure. Kind: D -/
abbrev Steps (step : σ → α → Option σ) (C : σ → α → Prop) : σ → σ → Prop :=
  Relation.ReflTransGen (StepUnder step C)

/-- The states that runs meeting `C` reach from an initial state.
Source: none: infrastructure. Kind: D -/
def Reach (step : σ → α → Option σ) (init : σ → Prop) (C : σ → α → Prop) (t : σ) : Prop :=
  ∃ s, init s ∧ Steps step C s t

/-- The condition that every action meets. Source: none: infrastructure. Kind: D -/
def Always : σ → α → Prop := fun _ _ => True

/-! ## Building runs -/

section build

variable {step : σ → α → Option σ} {init : σ → Prop} {C D : σ → α → Prop}

/-- A run is extended by one step at its end. Source: none: infrastructure. Kind: L -/
theorem Steps.snoc {s t u : σ} {a : α} (h : Steps step C s t) (hC : C t a)
    (ha : step t a = some u) : Steps step C s u :=
  h.tail ⟨a, hC, ha⟩

/-- An initial state is reached. Source: none: infrastructure. Kind: L -/
theorem Reach.start {s : σ} (h : init s) : Reach step init C s := ⟨s, h, .refl⟩

/-- What is reached under a condition is reached. Source: none: infrastructure. Kind: L -/
theorem Reach.always {s : σ} (h : Reach step init C s) : Reach step init Always s := by
  obtain ⟨s₀, h₀, hs⟩ := h
  exact ⟨s₀, h₀, Relation.ReflTransGen.mono (fun _ _ ⟨a, _, ha⟩ => ⟨a, trivial, ha⟩) s₀ s hs⟩

/-- A reached state and one more step. Source: none: infrastructure. Kind: L -/
theorem Reach.snoc {s t : σ} {a : α} (h : Reach step init C s) (hC : C s a)
    (ha : step s a = some t) : Reach step init C t := by
  obtain ⟨s₀, h₀, hs⟩ := h
  exact ⟨s₀, h₀, Steps.snoc hs hC ha⟩

end build

/-! ## Induction along runs -/

section induction

variable {step : σ → α → Option σ} {init : σ → Prop} {C : σ → α → Prop}

/-- A property kept by every step that meets `C` is kept along a run.
Source: none: infrastructure. Kind: L -/
theorem Steps.invariant {P : σ → Prop}
    (hstep : ∀ s a s', P s → C s a → step s a = some s' → P s') {s t : σ}
    (h : Steps step C s t) (hs : P s) : P t := by
  induction h with
  | refl => exact hs
  | tail _ hst ih =>
    obtain ⟨a, hC, ha⟩ := hst
    exact hstep _ a _ ih hC ha

/-- **The invariant rule.** A property that holds initially and survives each step from a reached
state holds in every reached state; the step may use that its state is reached.
Source: none: infrastructure. Kind: L -/
theorem Reach.invariant {P : σ → Prop} (hinit : ∀ s, init s → P s)
    (hstep : ∀ s a s', Reach step init C s → P s → C s a → step s a = some s' → P s') {t : σ}
    (h : Reach step init C t) : P t := by
  obtain ⟨s₀, h₀, hs⟩ := h
  have key : Reach step init C t ∧ P t := by
    induction hs with
    | refl => exact ⟨.start h₀, hinit _ h₀⟩
    | tail _ hst ih =>
      obtain ⟨a, hC, ha⟩ := hst
      exact ⟨ih.1.snoc hC ha, hstep _ a _ ih.1 ih.2 hC ha⟩
  exact key.2

end induction

/-! ## Runs that end -/

section termination

variable {step : σ → α → Option σ} {C : σ → α → Prop}

/-- A run from `s` that goes on for ever. Source: none: infrastructure. Kind: D -/
def Endless (step : σ → α → Option σ) (C : σ → α → Prop) (s : σ) : Prop :=
  ∃ f : ℕ → σ, f 0 = s ∧ ∀ n, StepUnder step C (f n) (f (n + 1))

/-- **The variant rule.** A system whose steps keep an invariant and decrease a well-founded measure has no
endless run. Source: none: infrastructure. Kind: L -/
theorem not_endless {μ : Type*} [Preorder μ] [WellFoundedLT μ] {P : σ → Prop} (variant : σ → μ)
    (hinv : ∀ s a s', P s → C s a → step s a = some s' → P s')
    (hlt : ∀ s a s', P s → C s a → step s a = some s' → variant s' < variant s) {s : σ} (hs : P s) :
    ¬ Endless step C s := by
  rintro ⟨f, hstart, hsteps⟩
  have hall : ∀ n, P (f n) := by
    intro n
    induction n with
    | zero =>
      rw [hstart]
      exact hs
    | succ n ih =>
      obtain ⟨a, hC, ha⟩ := hsteps n
      exact hinv _ a _ ih hC ha
  obtain ⟨n, hn⟩ := WellFounded.not_rel_apply_succ (r := (· < ·)) fun n => variant (f n)
  obtain ⟨a, hC, ha⟩ := hsteps n
  exact hn (hlt _ a _ (hall n) hC ha)

/-- **The progress rule.** Where every state that is not at an end has a step that keeps an invariant and
decreases a well-founded measure, a run leads to an end. Source: none: infrastructure. Kind: L -/
theorem exists_end {μ : Type*} [Preorder μ] [WellFoundedLT μ] {R : σ → σ → Prop} {P E : σ → Prop}
    (variant : σ → μ) (hstep : ∀ s, P s → ¬ E s → ∃ t, R s t ∧ P t ∧ variant t < variant s) {s : σ}
    (hs : P s) : ∃ t, Relation.ReflTransGen R s t ∧ P t ∧ E t := by
  induction s using (InvImage.wf variant wellFounded_lt).induction with
  | _ s ih =>
    by_cases hend : E s
    · exact ⟨s, .refl, hs, hend⟩
    · obtain ⟨s', hR, hs', hlt⟩ := hstep s hs hend
      obtain ⟨t, hsteps, ht, hend⟩ := ih s' hlt hs'
      exact ⟨t, .head hR hsteps, ht, hend⟩

end termination

/-! ## Projecting a system onto a component -/

section simulate

variable {step : σ → α → Option σ} {init : σ → Prop} {C : σ → α → Prop}
variable {step' : τ → β → Option τ} {init' : τ → Prop} {C' : τ → β → Prop}

/-- **Simulation rule.** When every step of the system leaves the component alone or is one of the
component's own steps, the component of a reached state is reached by the component.
Source: none: infrastructure. Kind: L -/
theorem Reach.simulate (f : σ → τ) (hinit : ∀ s, init s → init' (f s))
    (hstep : ∀ s a s', Reach step init C s → C s a → step s a = some s' →
      f s' = f s ∨ ∃ b, C' (f s) b ∧ step' (f s) b = some (f s'))
    {t : σ} (h : Reach step init C t) : Reach step' init' C' (f t) := by
  refine Reach.invariant (P := fun s => Reach step' init' C' (f s))
    (fun s hs => .start (hinit s hs)) (fun s a s' hr hs hC ha => ?_) h
  rcases hstep s a s' hr hC ha with heq | ⟨b, hb, hb'⟩
  · rw [heq]; exact hs
  · exact hs.snoc hb hb'

end simulate

/-! ## Lists of processes -/

/-- The processes after one of them has moved. Source: none: infrastructure. Kind: L -/
theorem getElem?_modify_of_some {l : List σ} {i : ℕ} {x : σ} (h : l[i]? = some x) (g : σ → σ) (j : ℕ) :
    (l.modify i g)[j]? = if j = i then some (g x) else l[j]? := by
  rw [List.getElem?_modify]
  by_cases hj : j = i
  · subst hj
    simp [h]
  · simp [hj, Ne.symm hj]

/-- How many processes have a property after one of them has moved. Source: none: infrastructure. Kind: L -/
theorem countP_set_of_some {l : List σ} {i : ℕ} {x : σ} (h : l[i]? = some x) (p : σ → Bool) (y : σ) :
    (l.set i y).countP p + (if p x then 1 else 0) = l.countP p + if p y then 1 else 0 := by
  obtain ⟨hi, hx⟩ := List.getElem?_eq_some_iff.mp h
  have hpos : p x = true → 0 < l.countP p := fun hp =>
    List.countP_pos_iff.mpr ⟨x, List.mem_of_getElem? h, hp⟩
  rw [List.countP_set hi, hx]
  split <;> split <;> simp_all

/-- A process in another state than the one that has moved is there still.
Source: none: infrastructure. Kind: L -/
theorem mem_set_of_ne {l : List σ} {i : ℕ} {x y z : σ} (hi : l[i]? = some x) (hz : z ∈ l) (hne : z ≠ x) :
    z ∈ l.set i y := by
  obtain ⟨j, hj⟩ := List.mem_iff_getElem?.mp hz
  have hij : i ≠ j := by
    rintro rfl
    rw [hi] at hj
    exact hne (Option.some.inj hj).symm
  apply List.mem_iff_getElem?.mpr
  exact ⟨j, (List.getElem?_set_ne hij).trans hj⟩

/-! ## Executable schedules -/

/-- The run along a list of actions. Source: none: infrastructure. Kind: D -/
def run (step : σ → α → Option σ) : σ → List α → Option σ
  | s, [] => some s
  | s, a :: as => (step s a).bind fun s' => run step s' as

/-- A schedule that runs through is a run. Source: none: infrastructure. Kind: L -/
theorem steps_of_run {step : σ → α → Option σ} :
    ∀ {as : List α} {s t : σ}, run step s as = some t → Steps step Always s t
  | [], s, t, h => by
      simp only [run, Option.some.injEq] at h
      rw [h]
  | a :: as, s, t, h => by
      simp only [run, Option.bind_eq_some_iff] at h
      obtain ⟨s', ha, hrest⟩ := h
      exact (Relation.ReflTransGen.single ⟨a, trivial, ha⟩).trans (steps_of_run hrest)

/-- A reached state and a run that goes on from it. Source: none: infrastructure. Kind: L -/
theorem Reach.run {step : σ → α → Option σ} {init : σ → Prop} {as : List α} {s t : σ}
    (h : Reach step init Always s) (hrun : run step s as = some t) : Reach step init Always t := by
  obtain ⟨s₀, h₀, hs⟩ := h
  exact ⟨s₀, h₀, hs.trans (steps_of_run hrun)⟩

/-- How often a run along a list of actions takes a step that `p` picks out.
Source: none: infrastructure. Kind: D -/
def occurs (step : σ → α → Option σ) (p : σ → α → Bool) : σ → List α → ℕ
  | _, [] => 0
  | s, a :: as =>
    match step s a with
    | some s' => (if p s a then 1 else 0) + occurs step p s' as
    | none => 0

section occurs

variable {step : σ → α → Option σ} {p : σ → α → Bool} {I Spent : σ → Prop}

/-- Once the occasion is spent the step is never taken again. Source: none: infrastructure. Kind: L -/
theorem occurs_eq_zero (hI : ∀ s a s', I s → step s a = some s' → I s')
    (hkeep : ∀ s a s', I s → Spent s → step s a = some s' → Spent s')
    (hno : ∀ s a, I s → Spent s → p s a = false) :
    ∀ (as : List α) (s : σ), I s → Spent s → occurs step p s as = 0
  | [], _, _, _ => rfl
  | a :: as, s, hs, hspent => by
    unfold occurs
    split
    · rename_i s' ha
      rw [hno s a hs hspent, occurs_eq_zero hI hkeep hno as s' (hI s a s' hs ha)
        (hkeep s a s' hs hspent ha)]
      rfl
    · rfl

/-- **At most once**: a step that spends its own occasion is taken at most once in a run.
Source: none: infrastructure. Kind: L -/
theorem occurs_le_one (hI : ∀ s a s', I s → step s a = some s' → I s')
    (hkeep : ∀ s a s', I s → Spent s → step s a = some s' → Spent s')
    (hno : ∀ s a, I s → Spent s → p s a = false)
    (hspend : ∀ s a s', I s → step s a = some s' → p s a = true → Spent s') :
    ∀ (as : List α) (s : σ), I s → occurs step p s as ≤ 1
  | [], _, _ => Nat.zero_le 1
  | a :: as, s, hs => by
    unfold occurs
    split
    · rename_i s' ha
      have hs' := hI s a s' hs ha
      by_cases hp : p s a = true
      · have hrest := occurs_eq_zero hI hkeep hno as s' hs' (hspend s a s' hs ha hp)
        rw [if_pos hp]
        exact Nat.le_of_eq (congrArg (1 + ·) hrest)
      · rw [if_neg hp, Nat.zero_add]
        exact occurs_le_one hI hkeep hno hspend as s' hs'
    · exact Nat.zero_le 1

end occurs

/-- The steps that meet a decidable condition. Source: none: infrastructure. Kind: D -/
def guarded (step : σ → α → Option σ) (C : σ → α → Prop) [∀ s a, Decidable (C s a)] (s : σ)
    (a : α) : Option σ :=
  if C s a then step s a else none

/-- A guarded schedule that runs through is a run that meets the condition.
Source: none: infrastructure. Kind: L -/
theorem steps_of_guarded {step : σ → α → Option σ} {C : σ → α → Prop} [∀ s a, Decidable (C s a)]
    {as : List α} {s t : σ} (h : run (guarded step C) s as = some t) : Steps step C s t := by
  refine Relation.ReflTransGen.mono (fun s t hst => ?_) s t (steps_of_run h)
  obtain ⟨a, -, ha⟩ := hst
  unfold guarded at ha
  split at ha
  · rename_i hC
    exact ⟨a, hC, ha⟩
  · cases ha

/-- A schedule whose last state passes a check reaches a state that does.
Source: none: infrastructure. Kind: L -/
theorem reach_of_run {step : σ → α → Option σ} {init : σ → Prop} {s : σ} (hs : init s)
    {as : List α} {p : σ → Bool} (h : (run step s as).map p = some true) :
    ∃ t, Reach step init Always t ∧ p t = true := by
  obtain ⟨t, ht, hp⟩ := Option.map_eq_some_iff.mp h
  exact ⟨t, ⟨s, hs, steps_of_run ht⟩, hp⟩

/-- A guarded schedule whose last state passes a check reaches a state that does.
Source: none: infrastructure. Kind: L -/
theorem reach_of_guarded {step : σ → α → Option σ} {init : σ → Prop} {C : σ → α → Prop}
    [∀ s a, Decidable (C s a)] {s : σ} (hs : init s) {as : List α} {p : σ → Bool}
    (h : (run (guarded step C) s as).map p = some true) :
    ∃ t, Reach step init C t ∧ p t = true := by
  obtain ⟨t, ht, hp⟩ := Option.map_eq_some_iff.mp h
  exact ⟨t, ⟨s, hs, steps_of_guarded ht⟩, hp⟩

end TrainsAndTracks.Found
