import TrainsAndTracks.Found.Claims
import TrainsAndTracks.Found.Run
import TrainsAndTracks.Store.Statements

/-!
# `idempotency_check` under concurrency

The one statement of `idempotency_check`, taken apart: it takes its snapshot when it starts, its `INSERT`
is decided on the rows committed when it gets there and waits for a transaction that is about to commit
the same key, and the other branch of its `UNION` reads the snapshot.

* `Checks.step` — concurrent calls, one start, arbitration, commit or abort at a time.
* `OneRow` — the contract: every call returns one row, and one call for each key returns `inserted`.
* `no_row` — two overlapping calls: the second one returns no row.
* `one_row` — the contract holds in runs in which a row that an `INSERT` conflicts with is in its
  statement's snapshot.
* `atomic_of_arbitrate` — such a statement does what the atomic statement of `Store.Functions` does.
-/

namespace TrainsAndTracks

open Found

/-- The column `source`. Source: migration `140_fn_idempotency_check`. Kind: D. Fidelity: exact -/
inductive RowSource
  | inserted
  | existing
  deriving DecidableEq, Repr

/-- A row `idempotency_check` returns. Source: migration `140_fn_idempotency_check`,
`lib/db/repositories/idempotency.ts` `IdempotencyCheckResult`. Kind: D. Fidelity: exact -/
structure CheckRow where
  row : IdempotencyRow
  source : RowSource
  deriving DecidableEq, Repr

/-- The reply that a row is. Source: `lib/db/repositories/idempotency.ts` `idempotencyCheck`. Kind: D -/
def CheckRow.reply (row : CheckRow) : Reply :=
  .idempotency row.row (row.source == .inserted)

/-- What the repository makes of the rows. Source: `lib/db/repositories/idempotency.ts`
`idempotencyCheck`. Kind: D. Fidelity: exact -/
def idempotencyCheckResult : List CheckRow → Except String CheckRow
  | row :: _ => .ok row
  | [] => .error "idempotency_check returned no row"

/-- `SELECT * FROM ins UNION ALL SELECT … FROM idempotency_keys WHERE … AND NOT EXISTS (SELECT 1 FROM ins)
LIMIT 1`, the second branch on the snapshot. Source: migration `140_fn_idempotency_check`. Kind: D.
Fidelity: exact -/
def unionRows (ins : List CheckRow) (snapshot : Table IdempotencyRow) (k : IdempotencyKey) :
    List CheckRow :=
  (ins ++ if ins.isEmpty then
    (snapshot.select fun row => row.idempotencyKey == k).map (CheckRow.mk · .existing) else []).take 1

/-- The point a call has reached. Source: migration `140_fn_idempotency_check`. Kind: D -/
inductive CheckPc
  | sent
  /-- The statement has its snapshot. -/
  | started (snapshot : Table IdempotencyRow)
  /-- It has returned its rows, and its transaction has not committed. -/
  | ret (rows : List CheckRow)
  | done (rows : List CheckRow)
  | failed

/-- A call with its arguments, `now()` and the point it has reached. Source: migration
`140_fn_idempotency_check`. Kind: D. Fidelity: exact -/
structure CheckCall where
  key : IdempotencyKey
  userId : String
  requestHash : String
  now : Time
  pc : CheckPc

/-- The row a call inserts. Source: migrations `040_idempotency_keys` (defaults),
`140_fn_idempotency_check`. Kind: D. Fidelity: exact -/
def CheckCall.newRow (e : CheckCall) : IdempotencyRow :=
  ⟨e.key, e.userId, e.requestHash, none, none, e.now⟩

/-- `idempotency_keys` and the calls. A call is named by its position. Source: migration
`140_fn_idempotency_check`. Kind: D -/
structure Checks where
  keys : Claims ℕ IdempotencyRow
  calls : List CheckCall
  now : Time

namespace Checks

/-! ## Steps -/

/-- A step of the calls. Source: none: infrastructure. Kind: D -/
inductive Action
  | send (key : IdempotencyKey) (userId requestHash : String)
  /-- The statement starts and takes its snapshot. -/
  | start (i : ℕ)
  /-- The `INSERT` is decided, and the statement returns. -/
  | arbitrate (i : ℕ)
  | commit (i : ℕ)
  | abort (i : ℕ)
  | tick (d : ℕ)

/-- Call `i` goes on to `pc`. Source: none: infrastructure. Kind: D -/
def goto (w : Checks) (i : ℕ) (pc : CheckPc) : Checks :=
  { w with calls := w.calls.modify i fun e => { e with pc := pc } }

/-- The transaction of call `i` starts. Source: migration `140_fn_idempotency_check`. Kind: D -/
def start (w : Checks) (i : ℕ) : Option Checks :=
  match w.calls[i]? with
  | some { pc := .sent, .. } =>
    some { w with calls := w.calls.modify i fun e =>
      { e with now := w.now, pc := .started w.keys.committed } }
  | _ => none

/-- The statement of call `i` inserts its row or meets a conflict; `none`: it waits. Source: migration
`140_fn_idempotency_check`. Kind: D. Fidelity: exact -/
def arbitrate (w : Checks) (i : ℕ) : Option Checks :=
  match w.calls[i]? with
  | some e =>
    match e.pc with
    | .started snapshot =>
      match w.keys.arbitrate i e.newRow with
      | .waits => none
      | .conflict => some (w.goto i (.ret (unionRows [] snapshot e.key)))
      | .inserted keys =>
        some ({ w with keys := keys }.goto i
          (.ret (unionRows [⟨e.newRow, .inserted⟩] snapshot e.key)))
    | _ => none
  | none => none

/-- Call `i` commits. Source: none: infrastructure. Kind: D -/
def commit (w : Checks) (i : ℕ) : Option Checks :=
  match w.calls[i]? with
  | some e =>
    match e.pc with
    | .ret rows => some ({ w with keys := w.keys.commit i e.key }.goto i (.done rows))
    | _ => none
  | none => none

/-- Call `i` fails before its commit. Source: none: infrastructure. Kind: D -/
def abort (w : Checks) (i : ℕ) : Option Checks :=
  match w.calls[i]? with
  | some e =>
    match e.pc with
    | .done _ => none
    | _ => some ({ w with keys := w.keys.rollback i e.key }.goto i .failed)
  | none => none

/-- One step. Source: none: infrastructure. Kind: D -/
def step (w : Checks) : Action → Option Checks
  | .send k user hash => some { w with calls := w.calls ++ [⟨k, user, hash, w.now, .sent⟩] }
  | .start i => w.start i
  | .arbitrate i => w.arbitrate i
  | .commit i => w.commit i
  | .abort i => w.abort i
  | .tick d => some { w with now := w.now + d }

/-- Before the first call. Source: migration `040_idempotency_keys`. Kind: D -/
structure Initial (w : Checks) : Prop where
  no_rows : w.keys = .ofTable .empty
  no_calls : w.calls = []

/-! ## The contract -/

/-- Call `i` has committed, having inserted the row of `k`. Source: migration
`140_fn_idempotency_check`. Kind: D -/
def Inserted (w : Checks) (k : IdempotencyKey) (i : ℕ) : Prop :=
  ∃ e row, w.calls[i]? = some e ∧ e.key = k ∧ e.pc = .done [⟨row, .inserted⟩]

/-- **Exactly one row**: every call returns one row and does not throw, and of the calls with a key exactly
one reports `inserted` once one of them is done. Source: migration `140_fn_idempotency_check` (header),
`lib/db/repositories/idempotency.ts` `idempotencyCheck`. Kind: D -/
structure OneRow (w : Checks) : Prop where
  one_row : ∀ (i : ℕ) e rows, w.calls[i]? = some e → e.pc = .ret rows ∨ e.pc = .done rows →
    ∃ row, rows = [row] ∧ idempotencyCheckResult rows = .ok row
  one_inserted : ∀ (i : ℕ) e rows, w.calls[i]? = some e → e.pc = .done rows →
    ∃ j, w.Inserted e.key j ∧ ∀ j', w.Inserted e.key j' → j' = j

/-- Two calls with a key overlap: both have their snapshots before the first one commits.
Source: none: infrastructure. Kind: D -/
def overlapping : List Action :=
  [.send "k" "10.0.0.1" "h", .send "k" "10.0.0.1" "h", .start 0, .start 1, .arbitrate 0, .commit 0,
    .arbitrate 1, .commit 1]

/-- An empty table. Source: migration `040_idempotency_keys`. Kind: D -/
def noKeys : Checks := ⟨.ofTable .empty, [], 0⟩

/-- It is initial. Source: none: infrastructure. Kind: L -/
theorem initial_noKeys : Initial noKeys := ⟨rfl, rfl⟩

/-- The second call has returned no row. Source: none: infrastructure. Kind: D -/
def hasNoRow (w : Checks) : Bool :=
  match w.calls[1]? with
  | some e => match e.pc with
    | .done [] => true
    | _ => false
  | none => false

/-- **A call returns no row.** In some run of two calls with one key the second call meets a conflict with
a row that is not in its snapshot. Source: migration `140_fn_idempotency_check`,
`lib/db/repositories/idempotency.ts` `idempotencyCheck`. Kind: P -/
theorem no_row : ¬ ∀ w, Reach step Initial Always w → w.OneRow := by
  intro h
  have hrun : (run step noKeys overlapping).map hasNoRow = some true := by decide +kernel
  obtain ⟨w, hreach, hnone⟩ := reach_of_run initial_noKeys hrun
  unfold hasNoRow at hnone
  split at hnone
  · rename_i e hcall
    split at hnone
    · rename_i hpc
      obtain ⟨row, hrows, -⟩ := (h w hreach).one_row 1 e [] hcall (.inr hpc)
      cases hrows
    · cases hnone
  · cases hnone

/-! ## What one step does -/

/-- What action `a` does to the call `i` it moves, which was `e` and becomes `e'`. Source: none:
infrastructure. Kind: D -/
inductive Moves (w w' : Checks) (a : Action) (i : ℕ) (e e' : CheckCall) : Prop
  | starts (hpc : e.pc = .sent) (hpc' : e'.pc = .started w.keys.committed) (hkeys : w'.keys = w.keys)
  | conflicts (snapshot : Table IdempotencyRow) (ha : a = .arbitrate i) (hpc : e.pc = .started snapshot)
      (hins : w.keys.arbitrate i e.newRow = .conflict)
      (hpc' : e'.pc = .ret (unionRows [] snapshot e.key)) (hkeys : w'.keys = w.keys)
  | inserts (snapshot : Table IdempotencyRow) (ha : a = .arbitrate i) (hpc : e.pc = .started snapshot)
      (hins : w.keys.arbitrate i e.newRow = .inserted w'.keys)
      (hpc' : e'.pc = .ret [⟨e.newRow, .inserted⟩])
  | commits (rows : List CheckRow) (hpc : e.pc = .ret rows) (hpc' : e'.pc = .done rows)
      (hkeys : w'.keys = w.keys.commit i e.key)
  | aborts (hpc : ∀ rows, e.pc ≠ .done rows) (hpc' : e'.pc = .failed)
      (hkeys : w'.keys = w.keys.rollback i e.key)

/-- What a step does: a call arrives, or time passes, or one call moves. Source: none: infrastructure.
Kind: D -/
inductive Stepped (w w' : Checks) (a : Action) : Prop
  | arrives (new : List CheckCall) (hnew : ∀ e ∈ new, e.pc = .sent)
      (hcalls : w'.calls = w.calls ++ new) (hkeys : w'.keys = w.keys)
  | moves (i : ℕ) (e e' : CheckCall) (he : w.calls[i]? = some e) (hkey : e'.key = e.key)
      (hcalls : ∀ j, w'.calls[j]? = if j = i then some e' else w.calls[j]?)
      (hmove : Moves w w' a i e e')

variable {w w' : Checks}

/-- A call goes on while the keys become `keys`. Source: none: infrastructure. Kind: L -/
theorem stepped_goto {keys : Claims ℕ IdempotencyRow} {a : Action} {i : ℕ} {e : CheckCall} {pc : CheckPc}
    (he : w.calls[i]? = some e)
    (hmove : Moves w ({ w with keys := keys }.goto i pc) a i e { e with pc := pc }) :
    Stepped w ({ w with keys := keys }.goto i pc) a :=
  .moves i e { e with pc := pc } he rfl (getElem?_modify_of_some he _) hmove

/-- **What a step can do.** Source: migration `140_fn_idempotency_check`. Kind: L -/
theorem step_cases {a : Action} (h : w.step a = some w') : Stepped w w' a := by
  cases a with
  | send k user hash =>
    simp only [step, Option.some.injEq] at h
    subst h
    exact .arrives _ (by simp) rfl rfl
  | start i =>
    simp only [step, start] at h
    split at h
    · rename_i he
      cases h
      refine .moves i _ _ he ?_ (getElem?_modify_of_some he _) (.starts rfl rfl rfl)
      rfl
    · cases h
  | arbitrate i =>
    simp only [step, arbitrate] at h
    split at h
    · rename_i e he
      split at h
      · rename_i snapshot hpc
        split at h
        · cases h
        · rename_i hins
          cases h
          exact stepped_goto he (.conflicts snapshot rfl hpc hins rfl rfl)
        · rename_i keys hins
          cases h
          exact stepped_goto he (.inserts snapshot rfl hpc hins rfl)
      · cases h
    · cases h
  | commit i =>
    simp only [step, commit] at h
    split at h
    · rename_i e he
      split at h
      · rename_i rows hpc
        cases h
        exact stepped_goto he (.commits rows hpc rfl rfl)
      · cases h
    · cases h
  | abort i =>
    simp only [step, abort] at h
    split at h
    · rename_i e he
      split at h
      · cases h
      · rename_i hpc
        cases h
        exact stepped_goto he (.aborts hpc rfl rfl)
    · cases h
  | tick d =>
    simp only [step, Option.some.injEq] at h
    subst h
    exact .arrives [] (by simp) (by simp) rfl

/-! ## Who holds a key -/

/-- Call `i` has inserted `row` under `k` and not yet committed. Source: none: infrastructure. Kind: D -/
def Holds (w : Checks) (k : IdempotencyKey) (i : ℕ) (row : IdempotencyRow) : Prop :=
  ∃ e, w.calls[i]? = some e ∧ e.key = k ∧ e.pc = .ret [⟨row, .inserted⟩]

/-- The claims and committed rows are those of the calls that inserted them. Source: none:
infrastructure. Kind: D -/
structure KeysOk (w : Checks) : Prop where
  /-- Whoever claims a key is about to commit it. -/
  claimed : ∀ k i row, w.keys.claim k = some (i, row) ↔ w.Holds k i row
  /-- A committed row was inserted by a call that is done. -/
  committed : ∀ k, w.keys.committed.find? k ≠ none ↔ ∃ i, w.Inserted k i
  once : ∀ k i j, w.Inserted k i → w.Inserted k j → i = j

section lookup

variable {i j : ℕ} {e e' : CheckCall} {k : IdempotencyKey} {row : IdempotencyRow}

/-- Who holds a key after call `i` has moved. Source: none: infrastructure. Kind: L -/
theorem holds_moved (hkey : e'.key = e.key)
    (hcalls : ∀ j, w'.calls[j]? = if j = i then some e' else w.calls[j]?) :
    w'.Holds k j row ↔
      (j = i ∧ e.key = k ∧ e'.pc = .ret [⟨row, .inserted⟩]) ∨ j ≠ i ∧ w.Holds k j row := by
  unfold Holds
  rw [hcalls]
  by_cases hj : j = i <;> simp [hj, hkey]

/-- Who has inserted a key after call `i` has moved. Source: none: infrastructure. Kind: L -/
theorem inserted_moved (hkey : e'.key = e.key)
    (hcalls : ∀ j, w'.calls[j]? = if j = i then some e' else w.calls[j]?) :
    w'.Inserted k j ↔
      (j = i ∧ e.key = k ∧ ∃ row, e'.pc = .done [⟨row, .inserted⟩]) ∨ j ≠ i ∧ w.Inserted k j := by
  unfold Inserted
  rw [hcalls]
  by_cases hj : j = i <;> simp [hj, hkey]

/-- A call that holds a key is about to commit. Source: none: infrastructure. Kind: L -/
theorem Holds.pc_eq (h : w.Holds k i row) (he : w.calls[i]? = some e) :
    e.key = k ∧ e.pc = .ret [⟨row, .inserted⟩] := by
  obtain ⟨e₁, he₁, h⟩ := h
  cases he.symm.trans he₁
  exact h

/-- A call that has inserted a key is done. Source: none: infrastructure. Kind: L -/
theorem Inserted.pc_eq (h : w.Inserted k i) (he : w.calls[i]? = some e) :
    ∃ row, e.pc = .done [⟨row, .inserted⟩] := by
  obtain ⟨e₁, row, he₁, -, hpc⟩ := h
  cases he.symm.trans he₁
  exact ⟨row, hpc⟩

/-- Who has inserted a key stays the same when call `i` was not done with an insert and is not now.
Source: none: infrastructure. Kind: L -/
theorem inserted_kept (he : w.calls[i]? = some e) (hkey : e'.key = e.key)
    (hcalls : ∀ j, w'.calls[j]? = if j = i then some e' else w.calls[j]?)
    (hpc : ∀ row, e.pc ≠ .done [⟨row, .inserted⟩]) (hpc' : ∀ row, e'.pc ≠ .done [⟨row, .inserted⟩]) :
    w'.Inserted k j ↔ w.Inserted k j := by
  rw [inserted_moved hkey hcalls]
  constructor
  · rintro (⟨-, -, row, hd⟩ | ⟨-, hold⟩)
    · exact absurd hd (hpc' row)
    · exact hold
  · intro hold
    refine .inr ⟨?_, hold⟩
    rintro rfl
    obtain ⟨row, hd⟩ := hold.pc_eq he
    exact hpc row hd

end lookup

/-- Without an inserted row the union is made of existing ones. Source: migration
`140_fn_idempotency_check`. Kind: L -/
theorem existing_of_mem_unionRows {snapshot : Table IdempotencyRow} {k : IdempotencyKey} {r : CheckRow}
    (h : r ∈ unionRows [] snapshot k) : r.source = .existing := by
  obtain ⟨row, -, rfl⟩ := List.mem_map.mp (List.mem_of_mem_take h)
  rfl

/-- A step that leaves the keys and who holds and has inserted them. Source: none: infrastructure.
Kind: L -/
theorem KeysOk.of_same (h : KeysOk w) (hkeys : w'.keys = w.keys)
    (hholds : ∀ k j row, w'.Holds k j row ↔ w.Holds k j row)
    (hins : ∀ k j, w'.Inserted k j ↔ w.Inserted k j) : KeysOk w' := by
  constructor
  · intro k i row
    rw [hkeys, h.claimed, hholds]
  · intro k
    rw [hkeys, h.committed]
    exact exists_congr fun i => (hins k i).symm
  · intro k i j hi hj
    exact h.once k i j ((hins k i).mp hi) ((hins k j).mp hj)

/-- New calls hold nothing. Source: none: infrastructure. Kind: L -/
theorem KeysOk.arrives {new : List CheckCall} (h : KeysOk w) (hnew : ∀ e ∈ new, e.pc = .sent)
    (hcalls : w'.calls = w.calls ++ new) (hkeys : w'.keys = w.keys) : KeysOk w' := by
  have hold : ∀ (j : ℕ) e, e.pc ≠ .sent → (w'.calls[j]? = some e ↔ w.calls[j]? = some e) := by
    intro j e hpc
    rw [hcalls, List.getElem?_append]
    split
    · rfl
    · rename_i hlen
      rw [List.getElem?_eq_none (Nat.le_of_not_lt hlen)]
      exact ⟨fun he => absurd (hnew e (List.mem_of_getElem? he)) hpc, nofun⟩
  refine h.of_same hkeys (fun k j row => ?_) fun k j => ?_
  · refine exists_congr fun e => and_congr_left ?_
    rintro ⟨-, hpc⟩
    exact hold j e (by simp [hpc])
  · refine exists_congr fun e => exists_congr fun row => and_congr_left ?_
    rintro ⟨-, hpc⟩
    exact hold j e (by simp [hpc])

/-- A call at this point neither holds a key nor has inserted one. Source: none: infrastructure. Kind: D -/
def Idle (pc : CheckPc) : Prop :=
  ∀ row, pc ≠ .ret [⟨row, .inserted⟩] ∧ pc ≠ .done [⟨row, .inserted⟩]

section moves

variable {i : ℕ} {e e' : CheckCall}

/-- A call that stays idle changes nobody's hold. Source: none: infrastructure. Kind: L -/
theorem KeysOk.idle (h : KeysOk w) (he : w.calls[i]? = some e) (hkey : e'.key = e.key)
    (hcalls : ∀ j, w'.calls[j]? = if j = i then some e' else w.calls[j]?) (hkeys : w'.keys = w.keys)
    (hidle : Idle e.pc) (hidle' : Idle e'.pc) : KeysOk w' := by
  refine h.of_same hkeys (fun k j row => ?_) fun k j => ?_
  · rw [holds_moved hkey hcalls]
    constructor
    · rintro (⟨-, -, hpc⟩ | ⟨-, hold⟩)
      · exact absurd hpc (hidle' row).1
      · exact hold
    · intro hold
      refine .inr ⟨?_, hold⟩
      rintro rfl
      exact (hidle row).1 (hold.pc_eq he).2
  · exact inserted_kept he hkey hcalls (fun row => (hidle row).2) fun row => (hidle' row).2

/-- An insert that goes through. Source: none: infrastructure. Kind: L -/
theorem KeysOk.inserts {snapshot : Table IdempotencyRow} (h : KeysOk w) (he : w.calls[i]? = some e)
    (hkey : e'.key = e.key) (hcalls : ∀ j, w'.calls[j]? = if j = i then some e' else w.calls[j]?)
    (hpc : e.pc = .started snapshot) (harb : w.keys.arbitrate i e.newRow = .inserted w'.keys)
    (hpc' : e'.pc = .ret [⟨e.newRow, .inserted⟩]) : KeysOk w' := by
  obtain ⟨-, hfree, hcommitted, hclaim⟩ := Claims.arbitrate_eq_inserted harb
  have hfree : w.keys.claim e.key = none := hfree
  have hclaim : ∀ k, w'.keys.claim k = if k = e.key then some (i, e.newRow) else w.keys.claim k := hclaim
  have hins : ∀ k j, w'.Inserted k j ↔ w.Inserted k j := fun _ _ =>
    inserted_kept he hkey hcalls (by simp [hpc]) (by simp [hpc'])
  constructor
  · intro k j row
    rw [hclaim, holds_moved hkey hcalls, hpc']
    split
    · rename_i hk
      subst hk
      constructor
      · intro heq
        cases heq
        exact .inl ⟨rfl, rfl, rfl⟩
      · rintro (⟨rfl, -, heq⟩ | ⟨-, hold⟩)
        · cases heq
          rfl
        · rw [(h.claimed e.key j row).mpr hold] at hfree
          cases hfree
    · rename_i hk
      rw [h.claimed]
      constructor
      · intro hold
        refine .inr ⟨?_, hold⟩
        rintro rfl
        exact hk (hold.pc_eq he).1.symm
      · rintro (⟨-, heq, -⟩ | ⟨-, hold⟩)
        · exact absurd heq.symm hk
        · exact hold
  · intro k
    rw [hcommitted, h.committed]
    exact exists_congr fun j => (hins k j).symm
  · intro k j j' hj hj'
    exact h.once k j j' ((hins k j).mp hj) ((hins k j').mp hj')

/-- A commit of an inserted row. Source: none: infrastructure. Kind: L -/
theorem KeysOk.commits {row : IdempotencyRow} (h : KeysOk w) (he : w.calls[i]? = some e)
    (hkey : e'.key = e.key) (hcalls : ∀ j, w'.calls[j]? = if j = i then some e' else w.calls[j]?)
    (hrow : w.keys.claim e.key = some (i, row)) (hclaim : w'.keys.claim = w.keys.unclaim e.key)
    (hcommitted : ∀ k, w'.keys.committed.find? k =
      if k = e.key then some row else w.keys.committed.find? k)
    (hpc' : e'.pc = .done [⟨row, .inserted⟩]) : KeysOk w' := by
  have hpc : e.pc = .ret [⟨row, .inserted⟩] := (((h.claimed e.key i row).mp hrow).pc_eq he).2
  have hins : ∀ k j, w'.Inserted k j ↔ (j = i ∧ e.key = k) ∨ w.Inserted k j := by
    intro k j
    rw [inserted_moved hkey hcalls]
    constructor
    · rintro (⟨hj, hk, -⟩ | ⟨-, hold⟩)
      · exact .inl ⟨hj, hk⟩
      · exact .inr hold
    · rintro (⟨hj, hk⟩ | hold)
      · exact .inl ⟨hj, hk, row, hpc'⟩
      · refine .inr ⟨?_, hold⟩
        rintro rfl
        obtain ⟨row', hd⟩ := hold.pc_eq he
        rw [hpc] at hd
        cases hd
  -- the key was not in use while it was claimed, so nobody has inserted it before
  have hnew : ∀ j, ¬ w.Inserted e.key j := fun j hj =>
    (h.committed e.key).mpr ⟨j, hj⟩ (w.keys.claim_new e.key i row hrow)
  constructor
  · intro k j row'
    rw [hclaim, Claims.unclaim_eq_some_iff, holds_moved hkey hcalls, h.claimed]
    constructor
    · rintro ⟨hk, hold⟩
      refine .inr ⟨?_, hold⟩
      rintro rfl
      exact hk (hold.pc_eq he).1.symm
    · rintro (⟨-, -, heq⟩ | ⟨hj, hold⟩)
      · rw [hpc'] at heq
        cases heq
      · refine ⟨?_, hold⟩
        rintro rfl
        have hclaimed := (h.claimed e.key j row').mpr hold
        rw [hrow] at hclaimed
        cases hclaimed
        exact hj rfl
  · intro k
    rw [hcommitted]
    split
    · rename_i hk
      subst hk
      exact iff_of_true (by simp) ⟨i, (hins _ i).mpr (.inl ⟨rfl, rfl⟩)⟩
    · rename_i hk
      rw [h.committed]
      refine exists_congr fun j => ?_
      rw [hins]
      exact ⟨.inr, fun hor => hor.resolve_left fun hne => hk hne.2.symm⟩
  · intro k j j' hj hj'
    rcases (hins k j).mp hj with ⟨rfl, rfl⟩ | hj
    · rcases (hins _ j').mp hj' with ⟨rfl, -⟩ | hj'
      · rfl
      · exact absurd hj' (hnew j')
    · rcases (hins k j').mp hj' with ⟨rfl, rfl⟩ | hj'
      · exact absurd hj (hnew j)
      · exact h.once k j j' hj hj'

/-- A call that fails. Source: none: infrastructure. Kind: L -/
theorem KeysOk.aborts (h : KeysOk w) (he : w.calls[i]? = some e) (hkey : e'.key = e.key)
    (hcalls : ∀ j, w'.calls[j]? = if j = i then some e' else w.calls[j]?)
    (hpc : ∀ rows, e.pc ≠ .done rows) (hpc' : e'.pc = .failed)
    (hkeys : w'.keys = w.keys.rollback i e.key) : KeysOk w' := by
  have hins : ∀ k j, w'.Inserted k j ↔ w.Inserted k j := fun _ _ =>
    inserted_kept he hkey hcalls (fun _ => hpc _) (by simp [hpc'])
  constructor
  · intro k j row
    rw [hkeys, Claims.rollback_claim_iff, holds_moved hkey hcalls, hpc', h.claimed]
    constructor
    · rintro ⟨hold, hne⟩
      refine .inr ⟨?_, hold⟩
      rintro rfl
      exact hne ⟨(hold.pc_eq he).1.symm, rfl⟩
    · rintro (⟨-, -, heq⟩ | ⟨hj, hold⟩)
      · cases heq
      · exact ⟨hold, fun hne => hj hne.2⟩
  · intro k
    rw [hkeys, Claims.rollback_committed, h.committed]
    exact exists_congr fun j => (hins k j).symm
  · intro k j j' hj hj'
    exact h.once k j j' ((hins k j).mp hj) ((hins k j').mp hj')

end moves

/-- **Each step keeps them.** Source: migration `140_fn_idempotency_check`. Kind: L -/
theorem KeysOk.step {a : Action} (h : KeysOk w) (hst : Stepped w w' a) : KeysOk w' := by
  cases hst with
  | arrives new hnew hcalls hkeys => exact h.arrives hnew hcalls hkeys
  | moves i e e' he hkey hcalls hmove =>
    cases hmove with
    | starts hpc hpc' hkeys =>
      refine h.idle he hkey hcalls hkeys (fun row => ?_) fun row => ?_
      · rw [hpc]
        exact ⟨nofun, nofun⟩
      · rw [hpc']
        exact ⟨nofun, nofun⟩
    | conflicts snapshot ha hpc harb hpc' hkeys =>
      refine h.idle he hkey hcalls hkeys (fun row => ?_) fun row => ?_
      · rw [hpc]
        exact ⟨nofun, nofun⟩
      · rw [hpc']
        refine ⟨fun heq => ?_, nofun⟩
        have hmem : (⟨row, .inserted⟩ : CheckRow) ∈ unionRows [] snapshot e.key := by
          rw [CheckPc.ret.inj heq]
          exact List.mem_singleton.mpr rfl
        cases existing_of_mem_unionRows hmem
    | inserts snapshot ha hpc harb hpc' => exact h.inserts he hkey hcalls hpc harb hpc'
    | commits rows hpc hpc' hkeys =>
      rcases Claims.commit_cases w.keys i e.key with ⟨row, hrow, hclaim, hcommitted⟩ | ⟨hno, hsame⟩
      · have hrows := (((h.claimed e.key i row).mp hrow).pc_eq he).2
        rw [hpc] at hrows
        cases hrows
        exact h.commits he hkey hcalls hrow (by rw [hkeys, hclaim])
          (fun k => by rw [hkeys, hcommitted]) hpc'
      · have hidle : ∀ row, rows ≠ [⟨row, .inserted⟩] := by
          rintro row rfl
          exact hno row ((h.claimed e.key i row).mpr ⟨e, he, rfl, hpc⟩)
        refine h.idle he hkey hcalls (hkeys.trans hsame) (fun row => ?_) fun row => ?_
        · rw [hpc]
          exact ⟨fun heq => hidle row (CheckPc.ret.inj heq), nofun⟩
        · rw [hpc']
          exact ⟨nofun, fun heq => hidle row (CheckPc.done.inj heq)⟩
    | aborts hpc hpc' hkeys => exact h.aborts he hkey hcalls hpc hpc' hkeys

/-- Without calls there are no keys. Source: none: infrastructure. Kind: L -/
theorem KeysOk.of_initial (h : Initial w) : KeysOk w := by
  constructor
  · intro k i row
    simp [h.no_rows, Claims.ofTable, Holds, h.no_calls]
  · intro k
    simp [h.no_rows, Claims.ofTable, Table.find?, Table.empty, Inserted, h.no_calls]
  · intro k i j hi
    obtain ⟨e, row, he, -⟩ := hi
    simp [h.no_calls] at he

/-- **Who holds a key** in every run. Source: migration `140_fn_idempotency_check`. Kind: P -/
theorem keysOk_of_reach {C : Checks → Action → Prop} (h : Reach step Initial C w) : KeysOk w :=
  h.invariant (fun _ hw => .of_initial hw) fun _ _ _ _ hw _ hst => hw.step (step_cases hst)

/-! ## What the calls return -/

/-- Without an inserted row the union is the row of the snapshot, if it has one. Source: migration
`140_fn_idempotency_check`. Kind: L -/
theorem unionRows_nil (snapshot : Table IdempotencyRow) (k : IdempotencyKey) :
    unionRows [] snapshot k = ((snapshot.find? k).map (CheckRow.mk · .existing)).toList := by
  have hhead : (snapshot.select fun row => row.idempotencyKey == k).head? = snapshot.find? k :=
    List.head?_filter
  simp only [unionRows, List.isEmpty_nil, if_true, List.nil_append, List.take_one, List.head?_map, hhead]

/-- A row that call `i` is about to conflict with is in its snapshot. Source: none: infrastructure.
Kind: D -/
def CallSees (w : Checks) (e : CheckCall) : Prop :=
  match e.pc with
  | .started snapshot => (w.keys.committed.find? e.key).isSome → (snapshot.find? e.key).isSome
  | _ => True

/-- **The condition**: an `INSERT` is decided while a committed row with its key is in its statement's
snapshot. Source: migration `140_fn_idempotency_check`. Kind: D -/
def Seen (w : Checks) : Action → Prop
  | .arbitrate i => ∀ e ∈ w.calls[i]?, w.CallSees e
  | _ => True

instance (w : Checks) (e : CheckCall) : Decidable (w.CallSees e) :=
  match h : e.pc with
  | .started snapshot =>
    decidable_of_iff ((w.keys.committed.find? e.key).isSome → (snapshot.find? e.key).isSome)
      (by rw [CallSees, h])
  | .sent | .ret _ | .done _ | .failed => .isTrue (by rw [CallSees, h]; trivial)

instance (w : Checks) : (a : Action) → Decidable (w.Seen a)
  | .arbitrate i => inferInstanceAs (Decidable (∀ e ∈ w.calls[i]?, w.CallSees e))
  | .send .. | .start _ | .commit _ | .abort _ | .tick _ => .isTrue trivial

/-- An `INSERT` conflicts with a committed row. Source: migration `140_fn_idempotency_check`. Kind: L -/
theorem committed_of_conflict {i : ℕ} {e : CheckCall} {snapshot : Table IdempotencyRow} (hok : KeysOk w)
    (he : w.calls[i]? = some e) (hpc : e.pc = .started snapshot)
    (harb : w.keys.arbitrate i e.newRow = .conflict) :
    w.keys.committed.find? e.key ≠ none := by
  rcases Claims.arbitrate_eq_conflict harb with ⟨row, hrow⟩ | ⟨row, hclaim⟩
  · exact ne_of_eq_of_ne (show w.keys.committed.find? e.key = some row from hrow) (by simp)
  · obtain ⟨-, hret⟩ := ((hok.claimed e.key i row).mp hclaim).pc_eq he
    rw [hpc] at hret
    cases hret

/-- **When a call returns no row**: exactly when its `INSERT` conflicts with a row that is not in its
snapshot. Source: migration `140_fn_idempotency_check`. Kind: P -/
theorem returns_none_iff {i : ℕ} {e e' : CheckCall} {snapshot : Table IdempotencyRow} (hok : KeysOk w)
    (he : w.calls[i]? = some e) (hpc : e.pc = .started snapshot)
    (hst : w.step (.arbitrate i) = some w') (he' : w'.calls[i]? = some e') :
    e'.pc = .ret [] ↔ ¬ w.Seen (.arbitrate i) := by
  have hseen : w.Seen (.arbitrate i) ↔
      (w.keys.committed.find? e.key ≠ none → snapshot.find? e.key ≠ none) := by
    simp only [Seen, he, Option.mem_some_iff, forall_eq', CallSees, hpc, Option.isSome_iff_ne_none]
  rw [hseen]
  simp only [step, arbitrate, he, hpc] at hst
  split at hst
  · cases hst
  · rename_i harb
    cases hst
    have hcall : e' = { e with pc := .ret (unionRows [] snapshot e.key) } := by
      rw [goto, getElem?_modify_of_some he, if_pos rfl] at he'
      exact (Option.some.inj he').symm
    subst hcall
    rw [unionRows_nil]
    have hrow := committed_of_conflict hok he hpc harb
    cases hsnap : snapshot.find? e.key with
    | none => simp [hrow]
    | some row => simp
  · rename_i keys harb
    cases hst
    have hcall : e' = { e with pc := .ret [⟨e.newRow, .inserted⟩] } := by
      rw [goto, getElem?_modify_of_some he, if_pos rfl] at he'
      exact (Option.some.inj he').symm
    subst hcall
    have hfree : w.keys.committed.find? e.key = none := (Claims.arbitrate_eq_inserted harb).1
    simp [hfree]

/-- A committed row stays. Source: none: infrastructure. Kind: L -/
theorem Stepped.committed_stays {a : Action} (hst : Stepped w w' a) {k : IdempotencyKey}
    {row : IdempotencyRow} (hk : w.keys.committed.find? k = some row) :
    w'.keys.committed.find? k = some row := by
  cases hst with
  | arrives new hnew hcalls hkeys => rwa [hkeys]
  | moves i e e' he hkey hcalls hmove =>
    cases hmove with
    | starts _ _ hkeys => rwa [hkeys]
    | conflicts _ _ _ _ _ hkeys => rwa [hkeys]
    | inserts _ _ _ harb _ => rwa [(Claims.arbitrate_eq_inserted harb).2.2.1]
    | commits _ _ _ hkeys =>
      rw [hkeys]
      rcases Claims.commit_cases w.keys i e.key with ⟨new, hclaim, -, hcommitted⟩ | ⟨-, hsame⟩
      · rw [hcommitted]
        split
        · rename_i heq
          rw [heq, w.keys.claim_new e.key i new hclaim] at hk
          cases hk
        · exact hk
      · rwa [hsame]
    | aborts _ _ hkeys => rwa [hkeys, Claims.rollback_committed]

/-- The rows of a call are one row; an existing one is of a key in use. Source: none: infrastructure.
Kind: D -/
def RowsOk (w : Checks) : Prop :=
  ∀ (i : ℕ) e rows, w.calls[i]? = some e → e.pc = .ret rows ∨ e.pc = .done rows →
    ∃ row, rows = [row] ∧ (row.source = .existing → w.keys.committed.find? e.key ≠ none)

/-- **Each step keeps the rows.** Source: migration `140_fn_idempotency_check`. Kind: L -/
theorem RowsOk.step {a : Action} (h : RowsOk w) (hok : KeysOk w) (hseen : w.Seen a)
    (hst : Stepped w w' a) : RowsOk w' := by
  intro j e₁ rows hj hrows
  -- a call that was there with these rows keeps them
  have hold : ∀ e, w.calls[j]? = some e → e.pc = .ret rows ∨ e.pc = .done rows → e₁.key = e.key →
      ∃ row, rows = [row] ∧ (row.source = .existing → w'.keys.committed.find? e₁.key ≠ none) := by
    intro e he hpc hkey
    obtain ⟨row, heq, hex⟩ := h j e rows he hpc
    refine ⟨row, heq, fun hs => ?_⟩
    obtain ⟨old, hfound⟩ := Option.ne_none_iff_exists'.mp (hex hs)
    rw [hkey, hst.committed_stays hfound]
    simp
  have hst' := hst
  cases hst' with
  | arrives new hnew hcalls hkeys =>
    rw [hcalls, List.getElem?_append] at hj
    split at hj
    · exact hold e₁ hj hrows rfl
    · have hsent := hnew e₁ (List.mem_of_getElem? hj)
      simp [hsent] at hrows
  | moves i e e' he hkey hcalls hmove =>
    rw [hcalls] at hj
    split at hj
    · rename_i heq
      subst heq
      cases hj
      cases hmove with
      | starts hpc hpc' hkeys => simp [hpc'] at hrows
      | conflicts snapshot ha hpc harb hpc' hkeys =>
        subst ha
        have hcommitted := committed_of_conflict hok he hpc harb
        have hcall : w.CallSees e := hseen e he
        simp only [CallSees, hpc] at hcall
        obtain ⟨row, hrow⟩ := Option.isSome_iff_exists.mp
          (hcall (Option.isSome_iff_ne_none.mpr hcommitted))
        rw [unionRows_nil, hrow] at hpc'
        simp only [hpc', CheckPc.ret.injEq, reduceCtorEq, or_false] at hrows
        refine ⟨⟨row, .existing⟩, hrows.symm, fun _ => ?_⟩
        rwa [hkey, hkeys]
      | inserts snapshot ha hpc harb hpc' =>
        simp only [hpc', CheckPc.ret.injEq, reduceCtorEq, or_false] at hrows
        refine ⟨⟨e.newRow, .inserted⟩, hrows.symm, fun hs => ?_⟩
        cases hs
      | commits rows' hpc hpc' hkeys =>
        simp only [hpc', CheckPc.done.injEq, reduceCtorEq, false_or] at hrows
        subst hrows
        exact hold e he (.inl hpc) hkey
      | aborts hpc hpc' hkeys => simp [hpc'] at hrows
    · exact hold e₁ hj hrows rfl

/-- The rows in every run that meets the condition. Source: migration `140_fn_idempotency_check`.
Kind: L -/
theorem rowsOk_of_reach (h : Reach step Initial Seen w) : RowsOk w := by
  refine h.invariant (fun w hw i e rows he => ?_) fun _ _ _ hr hw hC hst =>
    hw.step (keysOk_of_reach hr) hC (step_cases hst)
  simp [hw.no_calls] at he

/-- **Exactly one row.** In every run in which each `INSERT` is decided while a committed row with its key
is in its statement's snapshot, every call returns one row, and one call for each key inserts it.
Source: migration `140_fn_idempotency_check`, `lib/db/repositories/idempotency.ts`
`idempotencyCheck`. Kind: P -/
theorem one_row (h : Reach step Initial Seen w) : w.OneRow := by
  have hok := keysOk_of_reach h
  have hrows := rowsOk_of_reach h
  constructor
  · intro i e rows he hpc
    obtain ⟨row, rfl, -⟩ := hrows i e rows he hpc
    exact ⟨row, rfl, rfl⟩
  · intro i e rows he hpc
    have hins : ∃ j, w.Inserted e.key j := by
      obtain ⟨⟨row, source⟩, rfl, hex⟩ := hrows i e rows he (.inr hpc)
      cases source with
      | inserted => exact ⟨i, e, row, he, rfl, hpc⟩
      | existing => exact (hok.committed e.key).mp (hex rfl)
    obtain ⟨j, hj⟩ := hins
    exact ⟨j, hj, fun j' hj' => hok.once _ _ _ hj' hj⟩

/-- Two calls with a key, the second started when the first one has committed. Source: none:
infrastructure. Kind: D -/
def successive : List Action :=
  [.send "k" "10.0.0.1" "h", .send "k" "10.0.0.1" "h", .start 0, .arbitrate 0, .commit 0, .start 1,
    .arbitrate 1, .commit 1]

/-- Both calls are done. Source: none: infrastructure. Kind: D -/
def bothDone (w : Checks) : Bool :=
  w.calls.length == 2 && w.calls.all fun e => match e.pc with
    | .done _ => true
    | _ => false

/-- A run of two calls that meets the condition. Source: none: infrastructure. Kind: L -/
theorem one_row_successive : ∃ w, Reach step Initial Seen w ∧ w.bothDone = true ∧ w.OneRow := by
  have hrun : (run (guarded step Seen) noKeys successive).map bothDone = some true := by decide +kernel
  obtain ⟨w, hreach, hdone⟩ := reach_of_guarded initial_noKeys hrun
  exact ⟨w, hreach, hdone, one_row hreach⟩

/-! ## The atomic statement -/

/-- A snapshot has only committed rows. Source: none: infrastructure. Kind: D -/
def SnapshotsOk (w : Checks) : Prop :=
  ∀ (i : ℕ) e snapshot, w.calls[i]? = some e → e.pc = .started snapshot →
    ∀ k row, snapshot.find? k = some row → w.keys.committed.find? k = some row

/-- In every run. Source: migration `140_fn_idempotency_check`. Kind: L -/
theorem snapshotsOk_of_reach {C : Checks → Action → Prop} (h : Reach step Initial C w) :
    SnapshotsOk w := by
  refine h.invariant (fun w hw i e snapshot he => ?_) fun w a w' _ hw _ hst => ?_
  · simp [hw.no_calls] at he
  have hst := step_cases hst
  intro j e₁ snapshot hj hstarted k row hrow
  cases hst with
  | arrives new hnew hcalls hkeys =>
    rw [hcalls, List.getElem?_append] at hj
    split at hj
    · rw [hkeys]
      exact hw j e₁ snapshot hj hstarted k row hrow
    · have hsent := hnew e₁ (List.mem_of_getElem? hj)
      rw [hsent] at hstarted
      cases hstarted
  | moves i e e' he hkey hcalls hmove =>
    have hst : Stepped w w' a := .moves i e e' he hkey hcalls hmove
    rw [hcalls] at hj
    split at hj
    · cases hj
      cases hmove with
      | starts hpc hpc' hkeys =>
        rw [hpc'] at hstarted
        cases hstarted
        rwa [hkeys]
      | conflicts _ _ _ _ hpc' | inserts _ _ _ _ hpc' | commits _ _ hpc' | aborts _ hpc' =>
        rw [hpc'] at hstarted
        cases hstarted
    · exact hst.committed_stays (hw j e₁ snapshot hj hstarted k row hrow)

/-- **Such a call is atomic**: it returns what the one statement of the atomic `idempotency_check` returns
on the rows committed at that moment. Source: migration `140_fn_idempotency_check`. Kind: P -/
theorem atomic_of_arbitrate {C : Checks → Action → Prop} {σ : Store} {i : ℕ} {e e' : CheckCall}
    {snapshot : Table IdempotencyRow} (h : Reach step Initial C w)
    (hσ : σ.idempotencyKeys = w.keys.committed) (hseen : w.Seen (.arbitrate i))
    (he : w.calls[i]? = some e) (hpc : e.pc = .started snapshot)
    (hst : w.step (.arbitrate i) = some w') (he' : w'.calls[i]? = some e') :
    ∃ row : CheckRow, e'.pc = .ret [row] ∧
      σ.idempotencyCheck e.now e.key e.userId e.requestHash .start =
        some (match row.source with
          | .existing => .select (.ret row.reply)
          | .inserted => .insertKey row.row (.ret row.reply)) := by
  have hcall : w.CallSees e := hseen e he
  simp only [CallSees, hpc] at hcall
  simp only [step, arbitrate, he, hpc] at hst
  split at hst
  · cases hst
  · rename_i harb
    cases hst
    have hcommitted := committed_of_conflict (keysOk_of_reach h) he hpc harb
    obtain ⟨row, hrow⟩ := Option.isSome_iff_exists.mp (hcall (Option.isSome_iff_ne_none.mpr hcommitted))
    have hfound := snapshotsOk_of_reach h i e snapshot he hpc _ row hrow
    rw [goto, getElem?_modify_of_some he, if_pos rfl, unionRows_nil, hrow] at he'
    cases he'
    refine ⟨⟨row, .existing⟩, rfl, ?_⟩
    simp only [Store.idempotencyCheck, hσ, hfound]
    rfl
  · rename_i keys harb
    cases hst
    have hfree : w.keys.committed.find? e.key = none := (Claims.arbitrate_eq_inserted harb).1
    rw [goto, getElem?_modify_of_some he, if_pos rfl] at he'
    cases he'
    refine ⟨⟨e.newRow, .inserted⟩, rfl, ?_⟩
    simp only [Store.idempotencyCheck, hσ, hfree]
    rfl

end Checks

end TrainsAndTracks
