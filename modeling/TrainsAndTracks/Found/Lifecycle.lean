import TrainsAndTracks.Found.Run
import TrainsAndTracks.Found.Table

/-!
# Rows with a life cycle

A life cycle is a relation `M` on rows: `M r r'` when a row `r` may become `r'` in one move.

* `Advances M t t'` — between two tables: no row disappears, and each is as it was or has made one move.
* `Evolves M t t'` — the same with any number of moves.
* `evolves_of_steps` — a system whose steps advance a table evolves it along its runs.
* `Evolves.final` — a row that has no move left is the same row for good.
-/

set_option linter.unusedSectionVars false

namespace TrainsAndTracks.Found

variable {ρ κ : Type*} [Keyed ρ κ] [DecidableEq κ] {M N : ρ → ρ → Prop} {t t' t'' : Table ρ}

/-- No row disappears, and each is as it was or has made one move. Source: none: infrastructure.
Kind: D -/
def Advances (M : ρ → ρ → Prop) (t t' : Table ρ) : Prop :=
  ∀ k r, t.find? k = some r → ∃ r', t'.find? k = some r' ∧ Relation.ReflGen M r r'

/-- No row disappears, and each has made some moves. Source: none: infrastructure. Kind: D -/
def Evolves (M : ρ → ρ → Prop) (t t' : Table ρ) : Prop :=
  ∀ k r, t.find? k = some r → ∃ r', t'.find? k = some r' ∧ Relation.ReflTransGen M r r'

/-- Nothing happens. Source: none: infrastructure. Kind: L -/
theorem Advances.refl (M : ρ → ρ → Prop) (t : Table ρ) : Advances M t t :=
  fun _ r h => ⟨r, h, .refl⟩

/-- One move is some moves. Source: none: infrastructure. Kind: L -/
theorem Advances.evolves (h : Advances M t t') : Evolves M t t' := by
  intro k r hr
  obtain ⟨r', hr', hmove⟩ := h k r hr
  exact ⟨r', hr', hmove.to_reflTransGen⟩

/-- Nothing happens. Source: none: infrastructure. Kind: L -/
theorem Evolves.refl (M : ρ → ρ → Prop) (t : Table ρ) : Evolves M t t :=
  (Advances.refl M t).evolves

/-- Moves compose. Source: none: infrastructure. Kind: L -/
theorem Evolves.trans (h : Evolves M t t') (h' : Evolves M t' t'') : Evolves M t t'' := by
  intro k r hr
  obtain ⟨r', hr', hmoves⟩ := h k r hr
  obtain ⟨r'', hr'', hmoves'⟩ := h' k r' hr'
  exact ⟨r'', hr'', hmoves.trans hmoves'⟩

/-- **A row without moves stays.** Source: none: infrastructure. Kind: L -/
theorem Evolves.final (h : Evolves M t t') {k : κ} {r : ρ} (hr : t.find? k = some r)
    (hfinal : ∀ r', ¬ M r r') : t'.find? k = some r := by
  obtain ⟨r', hr', hmoves⟩ := h k r hr
  rw [(Relation.reflTransGen_iff_eq hfinal).mp hmoves] at hr'
  exact hr'

/-- **Along a run a table evolves** when every step advances it. `P` is what the steps need to know of
the states on the way. Source: none: infrastructure. Kind: L -/
theorem evolves_of_steps {σ α : Type*} {step : σ → α → Option σ} {C : σ → α → Prop} {P : σ → Prop}
    (f : σ → Table ρ)
    (hstep : ∀ s a s', P s → C s a → step s a = some s' → P s' ∧ Advances M (f s) (f s'))
    {s u : σ} (h : Steps step C s u) (hs : P s) : Evolves M (f s) (f u) := by
  have key : P u ∧ Evolves M (f s) (f u) := by
    refine Steps.invariant (P := fun u => P u ∧ Evolves M (f s) (f u)) ?_ h ⟨hs, .refl _ _⟩
    intro v a v' hv hC ha
    obtain ⟨hP, hadvance⟩ := hstep v a v' hv.1 hC ha
    exact ⟨hP, hv.2.trans hadvance.evolves⟩
  exact key.2

end TrainsAndTracks.Found
