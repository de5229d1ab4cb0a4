import TrainsAndTracks.Store.Outcomes

/-!
# The verdicts of `idempotency_check`

* `Exec.Granted k e` — the call has inserted the row of the key `k`, which makes its request the fresh
  one.
* `KeysOk` — one call is granted a key, and the row of the key carries the hash of that call.
* `Stepped.check_frame` — a call that is not granted its key changes none of the four tables.
-/

namespace TrainsAndTracks

open Found

/-- The execution is an `idempotency_check` of `k` that returns `inserted`. Source: migration
`140_fn_idempotency_check`, `lib/idempotency/postgres-authority.ts` (`fresh`). Kind: D -/
structure Exec.Granted (k : IdempotencyKey) (e : Exec) : Prop where
  call : ∃ user hash, e.call = .idempotencyCheck k user hash
  reply : ∃ row, e.pc = .ret (.idempotency row true) ∨ e.pc = .done (.idempotency row true)

namespace Store

/-- The rows of the four tables that requests change. Source: migrations `030_seats`,
`040_idempotency_keys`, `050_payments`, `060_bookings`. Kind: D -/
structure SameTables (σ σ' : Store) : Prop where
  seats : σ'.seats.committed = σ.seats.committed
  bookings : σ'.bookings.committed = σ.bookings.committed
  payments : σ'.payments = σ.payments
  idempotencyKeys : σ'.idempotencyKeys = σ.idempotencyKeys

/-- What the rows of `idempotency_keys` say about the calls. Source: migration
`140_fn_idempotency_check`. Kind: D -/
structure KeysOk (σ : Store) : Prop where
  /-- One call is granted a key. -/
  once : ∀ k (i j : ℕ) (e e' : Exec), σ.execs[i]? = some e → σ.execs[j]? = some e' →
    e.Granted k → e'.Granted k → i = j
  /-- Its hash is the stored one. -/
  hash : ∀ (i : ℕ) (e : Exec) k user hash, σ.execs[i]? = some e →
    e.call = .idempotencyCheck k user hash → e.Granted k →
    ∃ row, σ.idempotencyKeys.find? k = some row ∧ row.requestHash = hash
  /-- Every row was inserted by a call. -/
  sent : ∀ k row, σ.idempotencyKeys.find? k = some row → ∃ (i : ℕ) (e : Exec) (user : String),
    σ.execs[i]? = some e ∧ e.call = .idempotencyCheck k user row.requestHash

section verdicts

variable {σ σ' : Store} {a : Action} {i : ℕ} {k : IdempotencyKey} {now : Time} {call : Call} {pc : Pc}
variable {st : Stmt}

/-- The statement that returns `inserted`. Source: migration `140_fn_idempotency_check`. Kind: L -/
theorem Runs.inserts (h : Runs σ i now call pc st) {row : IdempotencyRow}
    (hnext : nextOf st = .ret (.idempotency row true)) : ∃ k user hash next,
      call = .idempotencyCheck k user hash ∧
        st = .insertKey ⟨k, user, hash, none, none, now⟩ next := by
  cases h with
  | keyNew => exact ⟨_, _, _, _, rfl, rfl⟩
  | _ => cases hnext

/-- Another statement returns no `inserted`. Source: migration `140_fn_idempotency_check`. Kind: L -/
theorem Runs.not_granted (h : Runs σ i now call pc st) (hst : ∀ row next, st ≠ .insertKey row next)
    (client : ℕ) : ¬ Exec.Granted k ⟨call, client, now, nextOf st⟩ := by
  rintro ⟨-, row, hret | hdone⟩
  · obtain ⟨_, _, _, _, -, rfl⟩ := h.inserts hret
    exact hst _ _ rfl
  · exact h.next_ne_done _ hdone

/-- **A grant is new or it was there.** A call that is granted its key by a step has found no row of it
and inserted one. Source: migration `140_fn_idempotency_check`. Kind: L -/
theorem Stepped.granted_new (hs : Stepped σ a σ') {e' : Exec} (he' : σ'.execs[i]? = some e')
    (h : e'.Granted k) :
    (∃ e : Exec, σ.execs[i]? = some e ∧ e.Granted k ∧ e.call = e'.call) ∨
    a.actor = some i ∧ σ.idempotencyKeys.find? k = none ∧ ∃ user row,
      e'.call = .idempotencyCheck k user row.requestHash ∧
        σ'.idempotencyKeys.find? k = some row := by
  have hunsent : ∀ {e : Exec}, e.Granted k → e.pc ≠ .sent ∧ e.pc ≠ .start ∧ e.pc ≠ .failed := by
    rintro e ⟨-, row, hpc | hpc⟩ <;> simp [hpc]
  rcases hs.exec_new he' with ⟨e, he⟩ | ⟨_, _, -, -, rfl⟩
  · by_cases ha : a.actor = some i
    · cases hs with
      | begin | tick => cases ha
      | start hi hpc =>
        cases ha
        simp only [List.getElem?_modify_eq, he, Option.map_eq_map, Option.map_some] at he'
        cases he'
        exact absurd rfl (hunsent h).2.1
      | raised hi hpc | aborted hi hpc =>
        cases ha
        rw [goto_exec_eq he he'] at h
        exact absurd rfl (hunsent h).2.2
      | commit hi hpc =>
        cases ha
        obtain rfl := Option.eq_some_unique he hi
        rw [goto_exec_eq he he'] at h ⊢
        refine .inl ⟨e, he, ⟨h.call, ?_⟩, rfl⟩
        obtain ⟨row, hret | hdone⟩ := h.reply
        · cases hret
        · cases hdone
          exact ⟨row, .inl hpc⟩
      | @insertKey _ _ e₁ row next hi hr hnew =>
        cases ha
        obtain rfl := Option.eq_some_unique he hi
        rw [goto_exec_eq he he'] at h ⊢
        obtain ⟨call, client, now, pc⟩ := e
        cases hr with
        | @keyNew k₁ user hash =>
          obtain ⟨user', hash', hcall⟩ := h.call
          cases hcall
          refine .inr ⟨rfl, hnew, user, ⟨k, user, hash, none, none, now⟩, rfl, ?_⟩
          rw [goto_idempotencyKeys, Table.find?_insert]
          exact if_pos rfl
      | select hi hr | update hi hr | lockAdvisory hi hr | insertBooking hi hr | insertPayment hi hr
      | updateKeys hi hr | insertDlqJob hi hr | updateDlqJobs hi hr =>
        cases ha
        obtain rfl := Option.eq_some_unique he hi
        rw [goto_exec_eq he he'] at h
        exact absurd h (hr.not_granted (by simp) e.client)
    · have heq := hs.exec_of_ne ha he
      obtain rfl := Option.eq_some_unique he' heq
      exact .inl ⟨e', he, h, rfl⟩
  · exact absurd rfl (hunsent h).1

/-- The rows of `idempotency_keys` go on to say what the calls did. Source: migration
`140_fn_idempotency_check`. Kind: L -/
theorem KeysOk.step (hl : LocksOk σ) (h : KeysOk σ) (hs : Stepped σ a σ') : KeysOk σ' where
  once k i j e e' he he' hg hg' := by
    rcases hs.granted_new he hg with ⟨e₀, he₀, hg₀, -⟩ | ⟨ha, hnone, -⟩ <;>
      rcases hs.granted_new he' hg' with ⟨e₁, he₁, hg₁, -⟩ | ⟨ha', hnone', -⟩
    · exact h.once k i j e₀ e₁ he₀ he₁ hg₀ hg₁
    · obtain ⟨user, hash, hcall⟩ := hg₀.call
      obtain ⟨row, hrow, -⟩ := h.hash i e₀ k user hash he₀ hcall hg₀
      rw [hnone'] at hrow
      cases hrow
    · obtain ⟨user, hash, hcall⟩ := hg₁.call
      obtain ⟨row, hrow, -⟩ := h.hash j e₁ k user hash he₁ hcall hg₁
      rw [hnone] at hrow
      cases hrow
    · exact Option.some.inj (ha.symm.trans ha')
  hash i e k user hash he hcall hg := by
    rcases hs.granted_new he hg with ⟨e₀, he₀, hg₀, hsame⟩ | ⟨-, -, user', row, hcall', hrow⟩
    · obtain ⟨row, hrow, hhash⟩ := h.hash i e₀ k user hash he₀ (hsame.trans hcall) hg₀
      obtain ⟨row', hrow', hhash'⟩ := (hs.le hl).idempotencyKey k row hrow
      exact ⟨row', hrow', hhash'.trans hhash⟩
    · have heq := hcall'.symm.trans hcall
      cases heq
      exact ⟨row, hrow, rfl⟩
  sent k row' hrow' := by
    have hkeep : ∀ row, σ.idempotencyKeys.find? k = some row → row'.requestHash = row.requestHash →
        ∃ (i : ℕ) (e : Exec) (user : String), σ'.execs[i]? = some e ∧
          e.call = .idempotencyCheck k user row'.requestHash := by
      intro row hrow hhash
      obtain ⟨i, e, user, he, hcall⟩ := h.sent k row hrow
      obtain ⟨e', he', hsame, -⟩ := hs.exec_old he
      exact ⟨i, e', user, he', by rw [hsame, hcall, hhash]⟩
    rcases key_change hs hrow' with hrow | ⟨i, ch, e, rfl, he, hpc, hw⟩
    · exact hkeep row' hrow rfl
    · cases hrow : σ.idempotencyKeys.find? k with
      | none =>
        rw [hrow] at hw
        cases hw with
        | @check user hash hcall =>
          obtain ⟨e', he', hsame, -⟩ := hs.exec_old he
          exact ⟨i, e', user, he', hsame.trans hcall⟩
      | some row =>
        rw [hrow] at hw
        cases hw with
        | answer hcall => exact hkeep row hrow rfl

/-- Nothing is granted at first. Source: none: infrastructure. Kind: L -/
theorem Initial.keysOk (h : Initial σ) : KeysOk σ where
  once _ _ _ _ _ he := absurd he h.no_exec
  hash _ _ _ _ _ he := absurd he h.no_exec
  sent k row hrow := by
    rw [h.keys_empty] at hrow
    cases hrow

/-- An `idempotency_check` locks no row. Source: migration `140_fn_idempotency_check`. Kind: L -/
theorem LocksOk.check_unlocked (hl : LocksOk σ) {e : Exec} {user hash : String}
    (he : σ.execs[i]? = some e) (hcall : e.call = .idempotencyCheck k user hash) :
    (∀ s w, σ.seats.lock s ≠ some (i, w)) ∧ ∀ b w, σ.bookings.lock b ≠ some (i, w) := by
  constructor
  · intro s w hlock
    obtain ⟨s', -, hw⟩ := hl.seat_write he hlock
    rw [hcall] at hw
    cases hw with
    | release hrel => cases hrel
    | reserve hcall' | confirm hcall' | sweep hcall' => cases hcall'
  · intro b w hlock
    obtain ⟨r, -, hw⟩ := hl.booking_write he hlock
    rw [hcall] at hw
    cases hw with
    | confirm hcall' | fail hcall' | expire hcall' => cases hcall'

/-- The two statements of `idempotency_check`. Source: migration `140_fn_idempotency_check`. Kind: L -/
theorem Runs.of_check (h : Runs σ i now call pc st) {user hash : String}
    (hcall : call = .idempotencyCheck k user hash) :
    (∃ row, σ.idempotencyKeys.find? k = some row ∧ st = .select (.ret (.idempotency row false))) ∨
      ∃ next, st = .insertKey ⟨k, user, hash, none, none, now⟩ next := by
  subst hcall
  cases h with
  | keyKnown hrow => exact .inl ⟨_, hrow, rfl⟩
  | keyNew => exact .inr ⟨_, rfl⟩
  | releaseSnapshot hrel | releaseSeatsOnly hrel | releaseSeatsThenRow hrel | releaseRow hrel =>
    cases hrel

/-- **A call that is not granted its key changes nothing.** Source: migration
`140_fn_idempotency_check`. Kind: L -/
theorem Stepped.check_frame (hl : LocksOk σ) (hs : Stepped σ a σ') {e : Exec} {user hash : String}
    (ha : a.actor = some i) (he : σ.execs[i]? = some e)
    (hcall : e.call = .idempotencyCheck k user hash) :
    SameTables σ σ' ∨ ∃ e' : Exec, σ'.execs[i]? = some e' ∧ e'.client = e.client ∧ e'.Granted k := by
  obtain ⟨hseats, hbookings⟩ := hl.check_unlocked he hcall
  cases hs with
  | begin | tick => cases ha
  | start | aborted | raised | select => exact .inl ⟨rfl, rfl, rfl, rfl⟩
  | commit hi hpc =>
    cases ha
    exact .inl ⟨Versioned.commit_committed_of_unlocked hseats,
      Versioned.commit_committed_of_unlocked hbookings, rfl, rfl⟩
  | @insertKey _ _ e₁ row next hi hr hnew =>
    cases ha
    obtain rfl := Option.eq_some_unique he hi
    refine .inr ⟨_, (goto_exec_self _ _ _).trans (congrArg _ he), rfl, ⟨user, hash, hcall⟩, ?_⟩
    obtain ⟨call, client, now, pc⟩ := e
    cases hr
    exact ⟨_, .inl rfl⟩
  | update hi hr | lockAdvisory hi hr | insertBooking hi hr | insertPayment hi hr | updateKeys hi hr
  | insertDlqJob hi hr | updateDlqJobs hi hr =>
    cases ha
    obtain rfl := Option.eq_some_unique he hi
    rcases hr.of_check hcall with ⟨_, -, hst⟩ | ⟨_, hst⟩ <;> cases hst

end verdicts

end Store

end TrainsAndTracks
