import TrainsAndTracks.Found.Ledger
import TrainsAndTracks.Store.Executes

/-!
# Sweeps, alone and together

A sweep that is not skipped frees the expired holds and expires the `PENDING` bookings they name, all on
the rows as they were before its statement. Several sweeps may be under way at once, with anything else
going on in the store.

* `Sweeps` — the store, with a log of the holds the sweeps have freed. A hold is a seat with its version.
* `owned`, `Counted` — the count a sweep returns is that of the rows it has locked.
* `Acquired`, `Skips` — a sweep is skipped because of one that has the advisory lock.
* `Reclaims` — what a sweep is for, row by row and without the code's own updates.
* `sweeps_exact` — both together.
-/

namespace TrainsAndTracks

open Found

namespace Store

/-- The expired holds. Source: migration `130_fn_sweep_expired_holds` (`targets`). Kind: D -/
def expiredHolds (σ : Store) : List Seat := σ.seats.committed.select (·.expiredAt σ.now)

/-- Execution `i` is a sweep. Source: migration `130_fn_sweep_expired_holds`. Kind: D -/
def isSweep (σ : Store) (i : ℕ) : Bool := σ.execs[i]?.any fun e => e.call = .sweepExpiredHolds

/-- The holds of `σ` whose seats are `AVAILABLE` in `σ'`. Source: migration
`130_fn_sweep_expired_holds`. Kind: D -/
def freedHolds (σ σ' : Store) : List (SeatId × ℕ) :=
  (σ.seats.committed.select fun s => s.status == .reserved &&
    (σ'.seats.committed.find? s.id).any (·.status == .available)).map fun s => (s.id, s.version)

/-- What a sweep that has committed has returned. Source: migration `130_fn_sweep_expired_holds`
(`swept_count`). Kind: D -/
def sweptCount (e : Exec) : ℕ :=
  match e.call, e.pc with
  | .sweepExpiredHolds, .done (.swept n _) => n
  | _, _ => 0

end Store

/-- The store, and the holds its sweeps have freed. Source: none: infrastructure. Kind: D -/
structure Sweeps where
  store : Store
  freed : List (SeatId × ℕ)

namespace Sweeps

/-- A step of the store; what the commit of a sweep frees is logged. Source: migration
`130_fn_sweep_expired_holds`. Kind: D -/
def step (w : Sweeps) (a : Store.Action) : Option Sweeps :=
  (w.store.step a).map fun store => ⟨store, w.freed ++
    match a with
    | .commit i => if w.store.isSweep i then w.store.freedHolds store else []
    | _ => []⟩

/-- Any rows, with nothing under way. Source: none: infrastructure. Kind: D -/
structure Initial (w : Sweeps) : Prop where
  idle : w.store.Idle
  advisory : w.store.advisory = none
  execs : w.store.execs = []
  freed : w.freed = []

/-- Every hold is freed at most once, the counts of the sweeps add up to the holds freed, and of sweeps
that have all committed one was not skipped. Source: migration `130_fn_sweep_expired_holds`. Kind: D -/
structure Shared (w : Sweeps) : Prop where
  once : w.freed.Nodup
  total : (w.store.execs.map Store.sweptCount).sum = w.freed.length
  fired : (∃ e ∈ w.store.execs, e.call = .sweepExpiredHolds) →
    (∀ e ∈ w.store.execs, e.call = .sweepExpiredHolds → ∃ n skipped, e.pc = .done (.swept n skipped)) →
    ∃ e ∈ w.store.execs, e.call = .sweepExpiredHolds ∧ ∃ n, e.pc = .done (.swept n false)

end Sweeps

namespace Store

variable {σ σ' : Store} {a : Action} {i j : ℕ} {ch : Choice} {e e' : Exec}

/-! ## The rows a sweep has locked -/

/-- The seats execution `i` has locked. Source: none: infrastructure. Kind: D -/
def owned (σ : Store) (i : ℕ) : List SeatId :=
  (σ.seats.committed.rows.map Seat.id).filter fun k => (σ.seats.lock k).any (·.1 = i)

/-- No step adds or removes a seat. Source: none: infrastructure. Kind: L -/
theorem Stepped.seat_ids (hs : Stepped σ a σ') :
    σ'.seats.committed.rows.map Seat.id = σ.seats.committed.rows.map Seat.id := by
  rcases hs.seats_committed with heq | ⟨i, e, r, -, -, -, heq⟩
  · rw [heq]
  · rw [heq]
    show (σ.seats.committed.rows.map (σ.seats.publish i)).map Seat.id = _
    rw [List.map_map]
    exact List.map_congr_left fun s _ => σ.seats.key_publish i s

/-- The others keep their locks. Source: none: infrastructure. Kind: L -/
theorem Stepped.owned_eq (hs : Stepped σ a σ') (ha : a.actor ≠ some i) : σ'.owned i = σ.owned i := by
  unfold owned
  rw [hs.seat_ids]
  refine List.filter_congr fun k _ => ?_
  rw [Bool.eq_iff_iff, Option.any_eq_true, Option.any_eq_true]
  have hlock : ∀ w, σ'.seats.lock k = some (i, w) ↔ σ.seats.lock k = some (i, w) :=
    fun w => hs.seat_lock_iff ha
  constructor
  · rintro ⟨⟨t, w⟩, hl, ht⟩
    obtain rfl : t = i := by simpa using ht
    exact ⟨(t, w), (hlock w).mp hl, ht⟩
  · rintro ⟨⟨t, w⟩, hl, ht⟩
    obtain rfl : t = i := by simpa using ht
    exact ⟨(t, w), (hlock w).mpr hl, ht⟩

/-- An execution without locks owns no seat. Source: none: infrastructure. Kind: L -/
theorem owned_eq_nil (hno : ∀ k w, σ.seats.lock k ≠ some (i, w)) : σ.owned i = [] := by
  refine List.filter_eq_nil_iff.mpr fun k _ hk => ?_
  obtain ⟨⟨t, w⟩, hl, ht⟩ := (Option.any_eq_true _ _).mp hk
  obtain rfl : t = i := by simpa using ht
  exact hno k w hl

/-- After its first `UPDATE` an execution owns the rows the statement is for. Source: none:
infrastructure. Kind: L -/
theorem owned_of_update {us : Update Seat} (hno : ∀ k w, σ.seats.lock k ≠ some (i, w))
    (hseats : σ.seats.update i us = some σ'.seats) :
    (σ'.owned i).length = (σ.seats.committed.select us.cond).length := by
  unfold owned
  rw [Versioned.update_committed hseats, List.filter_map, List.length_map]
  unfold Table.select
  refine congrArg List.length (List.filter_congr fun s hs => ?_)
  show (σ'.seats.lock s.id).any (fun own => decide (own.1 = i)) = us.cond s
  have hfound : σ.seats.committed.find? s.id = some s := Table.find?_of_mem hs
  rcases Versioned.update_lock hseats s.id with ⟨r, hr, hc, hl, -⟩ | ⟨hc, hl⟩
  · obtain rfl := Option.eq_some_unique hfound hr
    simp [hl, hc]
  · rw [hc s hfound, hl]
    cases hlock : σ.seats.lock s.id with
    | none => rfl
    | some own =>
      have hne : own.1 ≠ i := by
        rintro rfl
        exact hno s.id own.2 hlock
      simpa using hne

/-- **How a sweep comes to return**: skipped, or having run its statement. Source: migration
`130_fn_sweep_expired_holds`. Kind: L -/
theorem sweep_returns {r : Reply} (ha : σ.step (.exec i ch) = some σ') (he : σ.execs[i]? = some e)
    (hcall : e.call = .sweepExpiredHolds) (he' : σ'.execs[i]? = some e') (hret : e'.pc = .ret r) :
    (e.pc = .start ∧ r = .swept 0 true ∧ σ.advisory.isSome = true ∧ σ'.seats = σ.seats) ∨
    ∃ snapshot, e.pc = .sweepRun snapshot ∧
      r = .swept (σ.seats.committed.select (sweepSeatsUpdate snapshot e.now).cond).length false ∧
      σ.seats.update i (sweepSeatsUpdate snapshot e.now) = some σ'.seats := by
  obtain ⟨call, client, now, pc⟩ := e
  obtain rfl : call = .sweepExpiredHolds := hcall
  simp only [step, exec, he, Option.bind_eq_bind, Option.bind_some, Option.bind_eq_some_iff] at ha
  obtain ⟨st, hst, hrun⟩ := ha
  have hst' : σ.sweepExpiredHolds now pc = some st := hst
  cases pc with
  | start =>
    simp only [sweepExpiredHolds] at hst'
    split at hst'
    · rename_i hadvisory
      cases hst'
      cases hrun
      obtain rfl := goto_exec_eq he he'
      cases hret
      exact .inl ⟨rfl, rfl, hadvisory, rfl⟩
    · cases hst'
      cases hrun
      obtain rfl := goto_exec_eq he he'
      cases hret
  | sweepSnapshot =>
    cases hst'
    cases hrun
    obtain rfl := goto_exec_eq he he'
    cases hret
  | sweepRun snapshot =>
    cases hst'
    simp only [runStmt] at hrun
    split at hrun
    · rename_i seats bookings hseats hbookings
      cases hrun
      obtain rfl := goto_exec_eq he he'
      cases hret
      exact .inr ⟨snapshot, rfl, rfl, hseats⟩
    · cases hrun
  | _ => cases hst'

/-- A sweep that has returned counts the rows it has locked. Source: migration
`130_fn_sweep_expired_holds` (`v_count`). Kind: D -/
def Counted (σ : Store) : Prop :=
  ∀ (i : ℕ) (e : Exec) (r : Reply), σ.execs[i]? = some e → e.call = .sweepExpiredHolds →
    e.pc = .ret r → ∃ skipped, r = .swept (σ.owned i).length skipped

/-- It stays so. Source: migration `130_fn_sweep_expired_holds`. Kind: L -/
theorem Counted.step (hl : LocksOk σ) (h : Counted σ) (ha : σ.step a = some σ') : Counted σ' := by
  intro i e' r he' hcall' hret
  have hs := step_cases ha
  rcases hs.exec_new he' with ⟨e, he⟩ | ⟨_, _, -, -, rfl⟩
  · obtain ⟨e'', he'', hcall, -⟩ := hs.exec_old he
    obtain rfl := Option.eq_some_unique he' he''
    rw [hcall] at hcall'
    by_cases hact : a.actor = some i
    · rcases hs.exec_moved hact he he' with ⟨-, hpc⟩ | ⟨ch, st, rfl, -, -⟩ | ⟨hpc, -⟩ | ⟨r', -, hpc⟩
      · rw [hpc] at hret
        cases hret
      · rcases sweep_returns ha he hcall' he' hret with ⟨hpc, rfl, -, hseats⟩ |
          ⟨snapshot, hpc, rfl, hseats⟩
        · have hno := hl.no_seat_lock he (by rw [hpc]; rfl)
          rw [owned_eq_nil (by rw [hseats]; exact hno)]
          exact ⟨true, rfl⟩
        · have hno := hl.no_seat_lock he (by rw [hpc]; rfl)
          rw [owned_of_update hno hseats]
          exact ⟨false, rfl⟩
      · rw [hpc] at hret
        cases hret
      · rw [hpc] at hret
        cases hret
    · obtain rfl := Option.eq_some_unique he' (hs.exec_of_ne hact he)
      rw [hs.owned_eq hact]
      exact h i e' r he hcall' hret
  · cases hret

/-! ## What the commit of a sweep frees -/

/-- What a commit does to the seats of other owners. Source: none: infrastructure. Kind: L -/
theorem sweep_frees (hl : LocksOk σ) (hs : Stepped σ (.commit i) σ') (he : σ.execs[i]? = some e)
    (hcall : e.call = .sweepExpiredHolds) :
    (σ.freedHolds σ').length = (σ.owned i).length := by
  obtain ⟨hseats, -, -, -⟩ := hs.of_commit
  unfold freedHolds owned
  rw [List.length_map, List.filter_map, List.length_map, hseats]
  unfold Table.select
  refine congrArg List.length (List.filter_congr fun s hs => ?_)
  show (s.status == .reserved && _) = (σ.seats.lock s.id).any fun own => decide (own.1 = i)
  have hfound : σ.seats.committed.find? s.id = some s := Table.find?_of_mem hs
  by_cases hown : ∃ w, σ.seats.lock s.id = some (i, w)
  · -- a version of a sweep is the freed one of an expired hold
    obtain ⟨w, hw⟩ := hown
    rw [Versioned.find?_commit_of_own hfound hw, hw]
    obtain ⟨r, hr, hwrite⟩ := hl.seat_write he hw
    obtain rfl := Option.eq_some_unique hfound hr
    rw [hcall] at hwrite
    cases hwrite with
    | sweep hcall hexp =>
      have hreserved := (Seat.expiredAt_iff.mp hexp).1
      simp [freed, hreserved]
    | reserve hcall | confirm hcall | release hcall => cases hcall
  · have hno : ∀ w, σ.seats.lock s.id ≠ some (i, w) := fun w hw => hown ⟨w, hw⟩
    rw [Versioned.find?_commit_of_not_own hno, hfound]
    have hlock : (σ.seats.lock s.id).any (fun own => decide (own.1 = i)) = false := by
      cases hl' : σ.seats.lock s.id with
      | none => rfl
      | some own =>
        have hne : own.1 ≠ i := by
          rintro rfl
          exact hno own.2 hl'
        simpa using hne
    rw [hlock]
    cases hstatus : s.status <;> simp [hstatus]

/-- A hold that a step frees is one of a row that goes on with a higher version. Source: none:
infrastructure. Kind: L -/
theorem lt_version_of_freed (hl : LocksOk σ) (hs : Stepped σ a σ') {x : SeatId × ℕ}
    (hx : x ∈ σ.freedHolds σ') : ∃ s s', σ.seats.committed.find? x.1 = some s ∧ x.2 = s.version ∧
      σ'.seats.committed.find? x.1 = some s' ∧ s.version < s'.version := by
  obtain ⟨s, hmem, rfl⟩ := List.mem_map.mp hx
  obtain ⟨hs₀, hcond⟩ := Table.mem_select.mp hmem
  simp only [Bool.and_eq_true, beq_iff_eq, Option.any_eq_true] at hcond
  obtain ⟨hreserved, s', hs', havailable⟩ := hcond
  have hfound : σ.seats.committed.find? s.id = some s := Table.find?_of_mem hs₀
  refine ⟨s, s', hfound, rfl, hs', ?_⟩
  rcases seat_change hl hs hfound hs' with rfl | ⟨_, _, _, -, -, -, -, hw⟩
  · rw [hreserved] at havailable
    cases havailable
  · rw [hw.version]
    exact Nat.lt_succ_self s.version

/-- The holds that one step frees are different. Source: none: infrastructure. Kind: L -/
theorem freedHolds_nodup (σ σ' : Store) : (σ.freedHolds σ').Nodup := by
  have hids : ((σ.freedHolds σ').map Prod.fst).Nodup := by
    unfold freedHolds
    rw [List.map_map]
    exact σ.seats.committed.keys_nodup.sublist (List.filter_sublist.map Seat.id)
  exact List.Nodup.of_map Prod.fst hids

/-! ## What the sweeps have returned -/

/-- An execution that has not committed has returned nothing. Source: none: infrastructure. Kind: L -/
theorem sweptCount_eq_zero (h : ∀ r, e.pc ≠ .done r) : sweptCount e = 0 := by
  unfold sweptCount
  split
  · rename_i n _ _ hpc
    exact absurd hpc (h _)
  · rfl

/-- A commit adds what its execution returns. Source: none: infrastructure. Kind: L -/
theorem Stepped.sum_commit (hs : Stepped σ (.commit i) σ') : ∃ e r, σ.execs[i]? = some e ∧ e.pc = .ret r ∧
    (σ'.execs.map sweptCount).sum = (σ.execs.map sweptCount).sum + sweptCount { e with pc := .done r } := by
  cases hs with
  | @commit _ e r he hpc =>
    have hsum := sum_map_modify (f := sweptCount) (g := fun e => { e with pc := .done r }) he
    have hzero : sweptCount e = 0 := sweptCount_eq_zero (by simp [hpc])
    refine ⟨e, r, he, hpc, ?_⟩
    rw [hzero] at hsum
    exact hsum

/-- Other steps add nothing. Source: none: infrastructure. Kind: L -/
theorem Stepped.sum_of_ne (hs : Stepped σ a σ') (ha : ∀ i, a ≠ .commit i) :
    (σ'.execs.map sweptCount).sum = (σ.execs.map sweptCount).sum := by
  have hmoves : ∀ {i : ℕ} {e : Exec} {g : Exec → Exec}, σ.execs[i]? = some e → (∀ r, e.pc ≠ .done r) →
      (∀ r, (g e).pc ≠ .done r) →
      ((σ.execs.modify i g).map sweptCount).sum = (σ.execs.map sweptCount).sum := by
    intro i e g he hpc hpc'
    have hsum := sum_map_modify (f := sweptCount) (g := g) he
    rw [sweptCount_eq_zero hpc, sweptCount_eq_zero hpc'] at hsum
    exact hsum
  cases hs with
  | begin => simp [Store.begin, sweptCount]
  | tick => rfl
  | start he hpc => exact hmoves he (by simp [hpc]) (by simp)
  | raised he hpc | aborted he hpc => exact hmoves he hpc (by simp)
  | commit => exact absurd rfl (ha _)
  | select he hr | update he hr | lockAdvisory he hr | insertBooking he hr | insertPayment he hr
  | insertKey he hr | updateKeys he hr | insertDlqJob he hr | updateDlqJobs he hr =>
    exact hmoves he hr.ne_done hr.next_ne_done

/-! ## Who has the advisory lock -/

/-- The points of a sweep that has had the advisory lock: it has begun and is not skipped. Source:
migration `130_fn_sweep_expired_holds`. Kind: D -/
def pastLock : Pc → Bool
  | .sent | .start => false
  | .ret (.swept _ skipped) | .done (.swept _ skipped) => !skipped
  | _ => true

/-- A sweep that has had the advisory lock. Source: migration `130_fn_sweep_expired_holds`. Kind: D -/
structure Acquired (e : Exec) : Prop where
  call : e.call = .sweepExpiredHolds
  past : pastLock e.pc = true

/-- It goes on as one. Source: migration `130_fn_sweep_expired_holds`. Kind: L -/
theorem Acquired.step (h : Acquired e) (hs : Stepped σ a σ') (he : σ.execs[i]? = some e) :
    ∃ e', σ'.execs[i]? = some e' ∧ Acquired e' := by
  by_cases hact : a.actor = some i
  · obtain ⟨e', he', hcall, -⟩ := hs.exec_old he
    refine ⟨e', he', hcall.trans h.call, ?_⟩
    have hpast := h.past
    rcases hs.exec_moved hact he he' with ⟨hsent, -⟩ | ⟨_, st, -, hr, hpc⟩ | ⟨hpc, -⟩ | ⟨r, hret, hpc⟩
    · rw [hsent] at hpast
      cases hpast
    · obtain ⟨call, client, now, pc⟩ := e
      obtain rfl : call = .sweepExpiredHolds := h.call
      rw [hpc]
      cases hr with
      | releaseSnapshot hcall | releaseSeatsOnly hcall | releaseSeatsThenRow hcall
      | releaseRow hcall => cases hcall
      | sweepSkipped | sweepLocked => cases hpast
      | sweepSnapshot | sweepRun => rfl
    · rw [hpc]
      rfl
    · rw [hpc]
      rw [hret] at hpast
      cases r <;> exact hpast
  · exact ⟨e, hs.exec_of_ne hact he, h⟩

/-- The holder of the advisory lock is a sweep that is not skipped, and where one is skipped there is one
that is not. Source: migration `130_fn_sweep_expired_holds`. Kind: D -/
structure Skips (σ : Store) : Prop where
  holder : ∀ i, σ.advisory = some i → ∃ e, σ.execs[i]? = some e ∧ Acquired e
  skipped : ∀ (i : ℕ) (e : Exec) n, σ.execs[i]? = some e →
    e.pc = .ret (.swept n true) ∨ e.pc = .done (.swept n true) →
    e.call = .sweepExpiredHolds → ∃ (j : ℕ) (e' : Exec), σ.execs[j]? = some e' ∧ Acquired e'

/-- The advisory lock is taken by a sweep, or kept, or given up. Source: migration
`130_fn_sweep_expired_holds`. Kind: L -/
theorem Stepped.advisory_cases (hs : Stepped σ a σ') (h : σ'.advisory = some j) :
    σ.advisory = some j ∨ ∃ ch e, a = .exec j ch ∧ σ.execs[j]? = some e ∧
      e.call = .sweepExpiredHolds ∧ σ'.execs[j]? = some { e with pc := .sweepSnapshot } := by
  cases hs with
  | @lockAdvisory i ch e next he hr =>
    obtain rfl : i = j := Option.some.inj h
    obtain ⟨call, client, now, pc⟩ := e
    cases hr with
    | sweepLocked => exact .inr ⟨ch, _, rfl, he, rfl, (goto_exec_self _ _ _).trans (congrArg _ he)⟩
  | commit | raised | aborted => exact .inl (Option.filter_eq_some_iff.mp h).1
  | _ => exact .inl h

/-- Both go on. Source: migration `130_fn_sweep_expired_holds`. Kind: L -/
theorem Skips.step (h : Skips σ) (ha : σ.step a = some σ') : Skips σ' := by
  have hs := step_cases ha
  have hkeep : (∃ (j : ℕ) (e' : Exec), σ.execs[j]? = some e' ∧ Acquired e') →
      ∃ (j : ℕ) (e' : Exec), σ'.execs[j]? = some e' ∧ Acquired e' := by
    rintro ⟨j, e, he, hacq⟩
    obtain ⟨e', he', hacq'⟩ := hacq.step hs he
    exact ⟨j, e', he', hacq'⟩
  constructor
  · intro i hi
    rcases hs.advisory_cases hi with hold | ⟨ch, e, -, he, hcall, he'⟩
    · obtain ⟨e, he, hacq⟩ := h.holder i hold
      exact hacq.step hs he
    · exact ⟨_, he', hcall, rfl⟩
  · intro i e' n he' hpc' hcall'
    rcases hs.exec_new he' with ⟨e, he⟩ | ⟨_, _, -, -, rfl⟩
    · obtain ⟨e'', he'', hcall, -⟩ := hs.exec_old he
      obtain rfl := Option.eq_some_unique he' he''
      rw [hcall] at hcall'
      by_cases hact : a.actor = some i
      · rcases hs.exec_moved hact he he' with ⟨-, hpc⟩ | ⟨ch, st, rfl, hr, hpc⟩ | ⟨hpc, -⟩ | ⟨r, hret, hpc⟩
        · rw [hpc] at hpc'
          simp at hpc'
        · -- it is skipped by this step, for the lock is taken
          rcases hpc' with hret | hdone
          · rcases sweep_returns ha he hcall' he' hret with ⟨-, -, hadvisory, -⟩ | ⟨_, -, hr, -⟩
            · obtain ⟨j, hj⟩ := Option.isSome_iff_exists.mp hadvisory
              obtain ⟨e₀, he₀, hacq⟩ := h.holder j hj
              exact hkeep ⟨j, e₀, he₀, hacq⟩
            · cases hr
          · rw [hpc] at hdone
            exact absurd hdone (hr.next_ne_done _)
        · rw [hpc] at hpc'
          simp at hpc'
        · rw [hpc] at hpc'
          have hr : r = .swept n true := by simpa using hpc'
          exact hkeep (h.skipped i e n he (.inl (hr ▸ hret)) hcall')
      · obtain rfl := Option.eq_some_unique he' (hs.exec_of_ne hact he)
        exact hkeep (h.skipped i e' n he hpc' hcall')
    · simp at hpc'

end Store

/-! ## Runs -/

namespace Sweeps

variable {w w' : Sweeps} {a : Store.Action}

/-- What holds of every run. Source: none: infrastructure. Kind: D -/
structure Inv (w : Sweeps) : Prop where
  locks : w.store.LocksOk
  counted : w.store.Counted
  skips : w.store.Skips
  once : w.freed.Nodup
  versions : ∀ x ∈ w.freed, ∃ s, w.store.seats.committed.find? x.1 = some s ∧ x.2 < s.version
  total : (w.store.execs.map Store.sweptCount).sum = w.freed.length

/-- It holds at the start. Source: none: infrastructure. Kind: L -/
theorem Initial.inv (h : Initial w) : Inv w where
  locks := h.idle.locks
  counted i e r he := by simp [h.execs] at he
  skips := by
    refine ⟨fun i hi => ?_, fun i e n he => ?_⟩
    · rw [h.advisory] at hi
      cases hi
    · simp [h.execs] at he
  once := by simp [h.freed]
  versions := by simp [h.freed]
  total := by simp [h.execs, h.freed]

/-- What one step adds to the log: nothing, or what the commit of a sweep frees. Source: none:
infrastructure. Kind: L -/
theorem step_cases (h : w.step a = some w') : w.store.step a = some w'.store ∧
    ((w'.freed = w.freed ∧ ∀ i, a = .commit i → w.store.isSweep i = false) ∨
      ∃ i, a = .commit i ∧ w.store.isSweep i = true ∧
        w'.freed = w.freed ++ w.store.freedHolds w'.store) := by
  obtain ⟨store, hstore, rfl⟩ := Option.map_eq_some_iff.mp h
  refine ⟨hstore, ?_⟩
  cases a with
  | commit i =>
    cases hsweep : w.store.isSweep i with
    | true => exact .inr ⟨i, rfl, hsweep, by simp [hsweep]⟩
    | false =>
      refine .inl ⟨by simp [hsweep], fun j hj => ?_⟩
      cases hj
      exact hsweep
  | begin | start | exec | abort | tick => exact .inl ⟨List.append_nil _, nofun⟩

/-- **What every step keeps.** Source: migration `130_fn_sweep_expired_holds`. Kind: L -/
theorem Inv.step (h : Inv w) (ha : w.step a = some w') : Inv w' := by
  obtain ⟨hstore, hlog⟩ := step_cases ha
  have hs := Store.step_cases hstore
  have hversions : ∀ x ∈ w.freed, ∃ s, w'.store.seats.committed.find? x.1 = some s ∧ x.2 < s.version := by
    intro x hx
    obtain ⟨s, hs₀, hlt⟩ := h.versions x hx
    obtain ⟨s', hs', rfl | ⟨_, _, _, -, -, -, -, hw⟩⟩ := Store.seat_next h.locks hs hs₀
    · exact ⟨s', hs', hlt⟩
    · refine ⟨s', hs', ?_⟩
      rw [hw.version]
      omega
  refine ⟨h.locks.step hs, h.counted.step h.locks hstore, h.skips.step hstore, ?_, ?_, ?_⟩
  · rcases hlog with ⟨heq, -⟩ | ⟨i, -, -, heq⟩
    · rw [heq]
      exact h.once
    · rw [heq]
      refine List.nodup_append.mpr ⟨h.once, Store.freedHolds_nodup _ _, fun x hx y hy => ?_⟩
      rintro rfl
      obtain ⟨s, hs₀, hlt⟩ := h.versions x hx
      obtain ⟨s', _, hs', heq, -⟩ := Store.lt_version_of_freed h.locks hs hy
      obtain rfl := Option.eq_some_unique hs₀ hs'
      omega
  · rcases hlog with ⟨heq, -⟩ | ⟨i, -, -, heq⟩
    · rw [heq]
      exact hversions
    · rw [heq]
      intro x hx
      rcases List.mem_append.mp hx with hx | hx
      · exact hversions x hx
      · obtain ⟨s, s', -, hver, hs', hlt⟩ := Store.lt_version_of_freed h.locks hs hx
        exact ⟨s', hs', hver ▸ hlt⟩
  · by_cases hcommit : ∃ i, a = .commit i
    · obtain ⟨i, rfl⟩ := hcommit
      obtain ⟨e, r, he, hpc, hsum⟩ := hs.sum_commit
      rcases hlog with ⟨heq, hno⟩ | ⟨j, hj, hsweep, heq⟩
      · have hcall : e.call ≠ .sweepExpiredHolds := by
          have hfalse := hno i rfl
          simpa [Store.isSweep, he] using hfalse
        have hzero : Store.sweptCount { e with pc := .done r } = 0 := by
          unfold Store.sweptCount
          split
          · rename_i hsw _
            exact absurd hsw hcall
          · rfl
        rw [hsum, hzero, heq]
        exact h.total
      · cases hj
        have hcall : e.call = .sweepExpiredHolds := by simpa [Store.isSweep, he] using hsweep
        obtain ⟨skipped, rfl⟩ := h.counted i e r he hcall hpc
        have hcount : Store.sweptCount { e with pc := .done (.swept (w.store.owned i).length skipped) } =
            (w.store.owned i).length := by
          simp only [Store.sweptCount, hcall]
        rw [hsum, hcount, heq, List.length_append, Store.sweep_frees h.locks hs he hcall, h.total]
    · rw [hs.sum_of_ne fun i hi => hcommit ⟨i, hi⟩]
      rcases hlog with ⟨heq, -⟩ | ⟨i, hi, -⟩
      · rw [heq]
        exact h.total
      · exact absurd ⟨i, hi⟩ hcommit

/-- What holds of every run is what the sweeps share. Source: migration `130_fn_sweep_expired_holds`.
Kind: L -/
theorem Inv.shared (h : Inv w) : Shared w where
  once := h.once
  total := h.total
  fired := by
    rintro ⟨e, hmem, hcall⟩ hdone
    obtain ⟨n, skipped, hpc⟩ := hdone e hmem hcall
    cases skipped with
    | false => exact ⟨e, hmem, hcall, n, hpc⟩
    | true =>
      obtain ⟨i, hi⟩ := List.getElem?_of_mem hmem
      obtain ⟨j, e', he', hacq⟩ := h.skips.skipped i e n hi (.inr hpc) hcall
      have hmem' := List.mem_of_getElem? he'
      obtain ⟨n', skipped', hpc'⟩ := hdone e' hmem' hacq.call
      cases skipped' with
      | false => exact ⟨e', hmem', hacq.call, n', hpc'⟩
      | true =>
        have hpast := hacq.past
        rw [hpc'] at hpast
        cases hpast

end Sweeps

/-! ## Sweeps are exact -/

namespace Store

variable {σ : Store}

/-- After a sweep no hold is expired. Source: migration `130_fn_sweep_expired_holds`. Kind: L -/
theorem expiredHolds_modify {τ : Store} (hseats : τ.seats = σ.seats.modify (freeExpired σ.now))
    (hnow : τ.now = σ.now) : τ.expiredHolds = [] := by
  refine List.filter_eq_nil_iff.mpr fun s hs hexp => ?_
  have hmem : s ∈ τ.seats.committed := hs
  rw [hseats] at hmem
  obtain ⟨s₀, -, rfl⟩ := Versioned.mem_modify.mp hmem
  rw [hnow] at hexp
  unfold Update.apply at hexp
  split at hexp
  · cases hexp
  · rename_i hlive
    exact hlive hexp

/-- **A sweep alone is exact**, and a second one at the same clock finds nothing. Source: migration
`130_fn_sweep_expired_holds`. Kind: L -/
theorem sweep_alone {r : Reply} {τ : Store} (hl : LocksOk σ) (h : Executed σ .sweepExpiredHolds r τ) :
    (σ.advisory.isSome = true ∧ r = .swept 0 true ∧ Leaves σ τ σ.seats σ.bookings) ∨
    (σ.advisory = none ∧ r = .swept σ.expiredHolds.length false ∧
      Leaves σ τ (σ.seats.modify (freeExpired σ.now)) (σ.bookings.modify (sweepRowsUpdate σ.expiredHolds)) ∧
      ∀ r' τ', Executed τ .sweepExpiredHolds r' τ' →
        r' = .swept 0 false ∧ Leaves τ τ' τ.seats τ.bookings) := by
  rcases executed_sweepExpiredHolds hl h with hskip | ⟨hfree, hr, hleaves⟩
  · exact .inl hskip
  · refine .inr ⟨hfree, hr, hleaves, fun r' τ' h' => ?_⟩
    have hnone := expiredHolds_modify hleaves.seats hleaves.now
    have hseats : τ.seats.modify (freeExpired τ.now) = τ.seats :=
      Versioned.modify_eq_self fun s hs => Bool.eq_false_iff.mpr (List.filter_eq_nil_iff.mp hnone s hs)
    have hbookings : τ.bookings.modify (sweepRowsUpdate []) = τ.bookings :=
      Versioned.modify_eq_self fun r _ => by simp [sweepRowsUpdate]
    rcases executed_sweepExpiredHolds (h.locks hl) h' with ⟨hheld, -, -⟩ | ⟨-, hr', hleaves'⟩
    · rw [hleaves.advisory, hfree] at hheld
      cases hheld
    · have htargets : τ.seats.committed.select (·.expiredAt τ.now) = [] := hnone
      rw [htargets] at hr' hleaves'
      rw [hseats, hbookings] at hleaves'
      exact ⟨hr', hleaves'⟩

/-- A hold that has run out. Source: `docs/FAILURE_MATRIX.md` (hold expiration), migration
`130_fn_sweep_expired_holds`. Kind: D -/
def Overdue (now : Time) (s : Seat) : Prop := s.status = .reserved ∧ ∃ t, s.heldUntil = some t ∧ t < now

instance (now : Time) (s : Seat) : Decidable (Overdue now s) :=
  decidable_of_iff (s.status = .reserved ∧ s.heldUntil.any (fun t => decide (t < now)) = true)
    (by simp [Overdue, Option.any_eq_true])

/-- What a sweep is for, row by row: the seats of the overdue holds are free again, the `PENDING` bookings
that held one have expired, and no other row has changed. Source: `docs/FAILURE_MATRIX.md` (hold
expiration). Kind: D -/
structure Reclaims (σ τ : Store) : Prop where
  seats : τ.seats.committed.rows = σ.seats.committed.rows.map fun s =>
    if Overdue σ.now s then
      { s with
        status := .available, bookingId := none, heldBy := none, heldUntil := none
        version := s.version + 1 }
    else s
  bookings : τ.bookings.committed.rows = σ.bookings.committed.rows.map fun r =>
    if r.status = .pending ∧ ∃ s ∈ σ.seats.committed.rows, Overdue σ.now s ∧ s.bookingId = some r.id then
      { r with status := .expired, failureReason := some "hold_expired" }
    else r
  seat_locks : τ.seats.lock = σ.seats.lock
  booking_locks : τ.bookings.lock = σ.bookings.lock
  trains : τ.trains = σ.trains
  payments : τ.payments = σ.payments
  idempotencyKeys : τ.idempotencyKeys = σ.idempotencyKeys
  dlqJobs : τ.dlqJobs = σ.dlqJobs

/-- The code looks for the holds that have run out. Source: migration `130_fn_sweep_expired_holds`
(`targets`). Kind: L -/
theorem expiredAt_iff_overdue {now : Time} {s : Seat} : s.expiredAt now = true ↔ Overdue now s :=
  Seat.expiredAt_iff

/-- **What the statement does is what a sweep is for.** Source: migration `130_fn_sweep_expired_holds`.
Kind: L -/
theorem Leaves.reclaims {τ : Store} (h : Leaves σ τ (σ.seats.modify (freeExpired σ.now))
    (σ.bookings.modify (sweepRowsUpdate σ.expiredHolds))) : Reclaims σ τ where
  seats := by
    rw [h.seats]
    apply List.map_congr_left
    intro s _
    simp only [Update.apply, freeExpired, expiredAt_iff_overdue]
    rfl
  bookings := by
    rw [h.bookings]
    apply List.map_congr_left
    intro r _
    have hcond : (sweepRowsUpdate σ.expiredHolds).cond r = true ↔
        r.status = .pending ∧ ∃ s ∈ σ.seats.committed.rows, Overdue σ.now s ∧ s.bookingId = some r.id := by
      simp only [sweepRowsUpdate, expiredHolds, Bool.and_eq_true, beq_iff_eq, List.any_eq_true,
        Table.mem_select, expiredAt_iff_overdue, Table.mem_def, and_assoc]
    simp only [Update.apply, hcond]
    rfl
  seat_locks := by
    rw [h.seats]
    rfl
  booking_locks := by
    rw [h.bookings]
    rfl
  trains := h.trains
  payments := h.payments
  idempotencyKeys := h.idempotencyKeys
  dlqJobs := h.dlqJobs

/-- The count is that of the holds. Source: migration `130_fn_sweep_expired_holds` (`swept_count`). Kind: L -/
theorem length_expiredHolds (σ : Store) :
    σ.expiredHolds.length = σ.seats.committed.rows.countP fun s => decide (Overdue σ.now s) := by
  rw [expiredHolds, Table.select, ← List.countP_eq_length_filter]
  apply List.countP_congr
  intro s _
  rw [decide_eq_true_iff, expiredAt_iff_overdue]

/-- **Sweeps are exact.** A sweep is skipped when another one has the advisory lock, and then changes
nothing; else it frees exactly the expired holds, expires exactly the `PENDING` bookings that those named
before, changes no other row and returns how many holds; a second one at the same clock changes nothing.
And in every run, with any number of sweeps and of other calls under way: no hold is freed twice, the
counts of the sweeps add up to the holds freed, and of sweeps that have all committed one was not skipped.
Source: migration `130_fn_sweep_expired_holds`, `scripts/local-chaos.ts` `ct2HoldExpiration`. Kind: P -/
theorem sweeps_exact :
    (∀ (σ : Store) (r : Reply) (τ : Store), LocksOk σ → Executed σ .sweepExpiredHolds r τ →
      (σ.advisory.isSome = true ∧ r = .swept 0 true ∧ Leaves σ τ σ.seats σ.bookings) ∨
      (σ.advisory = none ∧
        r = .swept (σ.seats.committed.rows.countP fun s => decide (Overdue σ.now s)) false ∧ Reclaims σ τ ∧
        ∀ r' τ', Executed τ .sweepExpiredHolds r' τ' →
          r' = .swept 0 false ∧ Leaves τ τ' τ.seats τ.bookings)) ∧
    ∀ w, Reach Sweeps.step Sweeps.Initial Always w → w.Shared := by
  refine ⟨fun σ r τ hl h => ?_, fun w h => ?_⟩
  · rcases sweep_alone hl h with hskip | ⟨hfree, hr, hleaves, hagain⟩
    · exact .inl hskip
    · rw [length_expiredHolds] at hr
      exact .inr ⟨hfree, hr, hleaves.reclaims, hagain⟩
  · exact (h.invariant (P := Sweeps.Inv) (fun _ h => h.inv) fun _ _ _ _ h _ ha => h.step ha).shared

/-- A booking is created and its hold has run out. Source: `scripts/local-chaos.ts` `ct2HoldExpiration`.
Kind: D -/
def overdue : List Action :=
  oneCall 0 (.createBooking ⟨"k", "12951", "Asha", none, 126000⟩) 1 ++
  oneCall 1 (.allocateSeat "12951" 1 "Asha" 300) 2 ++ [.tick 400]

/-- Two sweeps at once: the second is skipped. Source: `scripts/local-chaos.ts`. Kind: D -/
def twoSweeps : List Action :=
  [.begin .sweepExpiredHolds 2, .begin .sweepExpiredHolds 3, .start 2, .start 3, .exec 2 usualChoice,
    .exec 3 usualChoice, .commit 3, .exec 2 usualChoice, .exec 2 usualChoice, .commit 2]

/-- The expired hold is freed by the sweep that runs alone, and by one of the two that run together.
Source: `scripts/local-chaos.ts` `ct2HoldExpiration`. Kind: L -/
theorem sweeps_exact_overdue :
    (∃ σ r τ, Executed σ .sweepExpiredHolds r τ ∧
      (σ.seats.committed.rows.countP fun s => decide (Overdue σ.now s)) = 1 ∧ r = .swept 1 false ∧
      Reclaims σ τ) ∧
    ∃ w : Sweeps, w.freed = [("12951-A1", 1)] ∧ w.Shared := by
  constructor
  · have hrun : ((run step twoSeats overdue).bind fun σ =>
        (run step σ (σ.alone .sweepExpiredHolds 2 (List.replicate 3 usualChoice))).map fun τ =>
          decide ((σ.seats.committed.rows.countP fun s => decide (Overdue σ.now s)) = 1 ∧ σ.advisory = none ∧
            τ.execs[σ.execs.length]?.map Exec.pc = some (.done (.swept 1 false)))) = some true := by
      decide +kernel
    simp only [Option.bind_eq_some_iff, Option.map_eq_some_iff, decide_eq_true_eq] at hrun
    obtain ⟨σ, hσ, τ, hτ, hcount, hfree, e, he, hdone⟩ := hrun
    have hl : LocksOk σ := initial_twoSeats.inv.locks.of_run hσ
    have hexec : Executed σ .sweepExpiredHolds (.swept 1 false) τ :=
      ⟨2, _, hτ, by rw [he, Option.map_some, hdone]⟩
    rcases sweeps_exact.1 σ _ τ hl hexec with ⟨hheld, -⟩ | ⟨-, hr, hreclaims, -⟩
    · rw [hfree] at hheld
      cases hheld
    · exact ⟨σ, _, τ, hexec, hcount, rfl, hreclaims⟩
  · have hrun : (run Sweeps.step ⟨twoSeats, []⟩ (overdue ++ twoSweeps)).map
        (fun w => decide (w.freed = [("12951-A1", 1)])) = some true := by
      decide +kernel
    have hinit : Sweeps.Initial ⟨twoSeats, []⟩ := ⟨⟨rfl, rfl⟩, rfl, rfl, rfl⟩
    obtain ⟨w, hreach, hfreed⟩ := reach_of_run hinit hrun
    exact ⟨w, of_decide_eq_true hfreed, sweeps_exact.2 w hreach⟩

end Store

end TrainsAndTracks
