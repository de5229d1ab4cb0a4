import TrainsAndTracks.Pipeline.Compensation

/-!
# Responses that are owed

The response of a key is written by whoever comes by, so what it says of the booking is right at rest only if
somebody who knows better writes last. `Debts` is one thing the response has to say of a booking (its outcome,
its reason): which response says it, which handler goes on to cache one that does, and which handler stops
doing so. Three steps can leave a booking with a stale response and nobody to cache another: a write, a
commit that ends the booking, and a handler that leaves. `Debts.Covered` excludes them, and then every stale
response is owed by somebody (`Debts.owed`), so that none is left at rest (`Debts.fresh`).
-/

namespace TrainsAndTracks

open Found

/-! ## Responses that are being written -/

/-- The execution has written a response. Source: migration `150_fn_write_idempotency_response`.
Kind: D -/
def Exec.written : Exec → Bool
  | ⟨.writeIdempotencyResponse .., _, _, .ret _⟩ => true
  | ⟨.writeIdempotencyResponse .., _, _, .done _⟩ => true
  | _ => false

namespace Store

/-- A response that execution `i` is about to write: the handler that sent it, the key, the status and
the body. Source: migration `150_fn_write_idempotency_response`. Kind: D -/
def writing (σ : Store) (i : ℕ) : Option (ℕ × IdempotencyKey × ℕ × CachedBody) :=
  match σ.execs[i]? with
  | some ⟨.writeIdempotencyResponse k st body, client, _, .start⟩ => some (client, k, st, body)
  | _ => none

/-- An execution that is about to write a response. Source: migration
`150_fn_write_idempotency_response`. Kind: L -/
theorem writing_of_exec {σ : Store} {i : ℕ} {e : Exec} {k : IdempotencyKey} {st : ℕ} {body : CachedBody}
    (he : σ.execs[i]? = some e) (hpc : e.pc = .start)
    (hcall : e.call = .writeIdempotencyResponse k st body) :
    σ.writing i = some (e.client, k, st, body) := by
  obtain ⟨call, client, now, pc⟩ := e
  cases hpc
  cases hcall
  simp [writing, he]

end Store

/-- The handler runs and has not written the response it is about to write. Source:
`lib/resilience/pg-policy.ts` (one promise at a time). Kind: D -/
def Phase.unwritten (σ : Store) : Phase → Bool
  | ready _ => true
  | waiting i _ => !(σ.execs[i]?).any Exec.written
  | _ => false

namespace Sys

section writing

variable {cfg : Config} {s s' : Sys} {c : ℕ} {σ σ' : Store} {x : Store.Action} {ph : Phase}

/-- The execution that is about to write a response. Source: migration
`150_fn_write_idempotency_response`. Kind: L -/
theorem exec_of_writing {i client st : ℕ} {k : IdempotencyKey} {body : CachedBody}
    (h : σ.writing i = some (client, k, st, body)) :
    ∃ now, σ.execs[i]? = some ⟨.writeIdempotencyResponse k st body, client, now, .start⟩ := by
  unfold Store.writing at h
  split at h
  · rename_i he
    cases h
    exact ⟨_, he⟩
  · cases h

/-- An execution that has written a response has run its one statement. Source: migration
`150_fn_write_idempotency_response`. Kind: L -/
theorem written_iff {e : Exec} : e.written = true ↔
    (∃ k st body, e.call = .writeIdempotencyResponse k st body) ∧
      ∃ reply, e.pc = .ret reply ∨ e.pc = .done reply := by
  obtain ⟨call, client, now, pc⟩ := e
  cases call <;> cases pc <;> simp [Exec.written]

/-- A response that is written after a step was so before, or the step has written it. Source:
migration `150_fn_write_idempotency_response`. Kind: L -/
theorem written_step (hs : σ.Stepped x σ') {i : ℕ} {e' : Exec} (he' : σ'.execs[i]? = some e')
    (hwritten : e'.written = true) : (∃ e, σ.execs[i]? = some e ∧ e.written = true) ∨
    ∃ ch e k st body, x = .exec i ch ∧ σ.execs[i]? = some e ∧
      e.call = .writeIdempotencyResponse k st body ∧ σ.writing i = some (e.client, k, st, body) := by
  obtain ⟨⟨k, st, body, hcall'⟩, reply, hpc'⟩ := written_iff.mp hwritten
  rcases hs.exec_new he' with ⟨e, he⟩ | ⟨call, client', -, -, rfl⟩
  · by_cases hx : x.actor = some i
    · obtain ⟨e₁, he₁, hcall, -⟩ := hs.exec_old he
      obtain rfl := Option.eq_some_unique he' he₁
      rw [hcall'] at hcall
      rcases hs.exec_moved hx he he' with ⟨-, hpc⟩ | ⟨ch, stmt, rfl, hr, -⟩ | ⟨hpc, -⟩ |
        ⟨reply', hpc, -⟩
      · rcases hpc' with h | h <;> rw [hpc] at h <;> cases h
      · right
        refine ⟨ch, e, k, st, body, rfl, he, hcall.symm, ?_⟩
        obtain ⟨call, client, now, pc⟩ := e
        cases hcall
        cases hr with
        | writeResponse => simp [Store.writing, he]
        | releaseSnapshot hrel | releaseSeatsOnly hrel | releaseSeatsThenRow hrel
        | releaseRow hrel => cases hrel
      · rcases hpc' with h | h <;> rw [hpc] at h <;> cases h
      · exact .inl ⟨e, he, written_iff.mpr ⟨⟨k, st, body, hcall.symm⟩, reply', .inl hpc⟩⟩
    · obtain rfl := Option.eq_some_unique he' (hs.exec_of_ne hx he)
      exact .inl ⟨e', he, hwritten⟩
  · rcases hpc' with h | h <;> cases h

/-- A response is written by its statement. Source: migration `150_fn_write_idempotency_response`.
Kind: L -/
theorem unwritten_step (hs : σ.Stepped x σ') (h : ph.unwritten σ = true) :
    ph.unwritten σ' = true ∨ ∃ i left ch e k st body, ph = .waiting i left ∧ x = .exec i ch ∧
      σ.execs[i]? = some e ∧ e.call = .writeIdempotencyResponse k st body ∧
      σ.writing i = some (e.client, k, st, body) := by
  cases ph with
  | answered | crashed => cases h
  | ready left => exact .inl rfl
  | waiting i left =>
    simp only [Phase.unwritten, Bool.not_eq_true', Option.any_eq_false] at h
    by_cases hw : (σ'.execs[i]?).any Exec.written = true
    · right
      obtain ⟨e', he', hwritten⟩ := (Option.any_eq_true _ _).mp hw
      rcases written_step hs he' hwritten with ⟨e, he, hold⟩ | ⟨ch, e, k, st, body, hrest⟩
      · rw [h e he] at hold
        cases hold
      · exact ⟨i, left, ch, e, k, st, body, rfl, hrest⟩
    · exact .inl (by simpa [Phase.unwritten] using hw)

/-- A call that has just been sent has written nothing. Source: `lib/resilience/pg-policy.ts`. Kind: L -/
theorem unwritten_issue (hs : Stepped cfg s (.issue c) s') (left : ℕ) :
    (Phase.waiting s.store.execs.length left).unwritten s'.store = true := by
  rcases hs.store_cases with heq | ⟨x, hx, ⟨hx', -⟩ | ⟨_, _, call', -, rfl, -⟩⟩
  · simp [Phase.unwritten, heq]
  · cases hx'
  · rw [← Option.some.inj hx]
    simp [Phase.unwritten, Store.begin, Exec.written]

/-- The reply to `write_idempotency_response` says that the response is written. Source: migration
`150_fn_write_idempotency_response`. Kind: L -/
theorem written_of_reply (hinv : Inv cfg s) {t : Task} {i left : ℕ} {e : Exec} {reply : Reply}
    (hcl : s.clients[c]? = some ⟨t, .waiting i left⟩) (he : s.store.execs[i]? = some e)
    (hpc : e.pc = .done reply) {k : IdempotencyKey} {n : ℕ} {body : CachedBody}
    (hcall : t.call cfg = some (.writeIdempotencyResponse k n body)) :
    (Phase.waiting i left).unwritten s.store = false := by
  obtain ⟨e₁, he₁, hsent, -⟩ := hinv.waits c t i left hcl
  obtain rfl := Option.eq_some_unique he he₁
  have hwritten : e.written = true :=
    written_iff.mpr ⟨⟨k, n, body, Option.some.inj (hsent.symm.trans hcall)⟩, reply, .inr hpc⟩
  simp [Phase.unwritten, he, hwritten]

end writing

/-! ## What is owed -/

/-- A thing that the cached response has to say of a booking, and how the handlers see to it. Source:
`app/api/book/route.ts` (step 7), `app/api/worker/allocate/route.ts`. Kind: D -/
structure Debts (cfg : Config) where
  /-- The response says of the booking what it has to say. -/
  reported : Booking → Option ℕ → Option CachedBody → Bool
  /-- The handler goes on to cache a response that does. -/
  owes : Store → Booking → Client → Bool
  /-- The handler that no longer gets to it after the step. -/
  abandons : Sys → Action → Option ℕ
  /-- There is nothing to say of an open booking. -/
  pending : ∀ {r st body}, r.status = .pending → reported r st body = true
  /-- Only handlers that run owe responses. -/
  live : ∀ {σ r cl}, owes σ r cl = true → cl.phase.live = true
  /-- A handler owes a response until it writes it: no other step of the store takes that away. -/
  store : ∀ {s x σ' c cl r}, Inv cfg s → s.store.Stepped x σ' → s.clients[c]? = some cl →
    owes s.store r cl = true →
    (s.store.bookings.committed.find? r.id = some r ∨ ∃ j, x = .commit j) →
    owes σ' r cl = true ∨ ∃ i ch st body, x = .exec i ch ∧
      s.store.writing i = some (c, r.idempotencyKey, st, body)
  /-- A handler that moves goes on owing its response or abandons it. -/
  moves : ∀ {s a s' c cl cl' r}, Inv cfg s → Stepped cfg s a s' → Moves cfg s c a cl cl' →
    s.clients[c]? = some cl → s.store.bookings.committed.find? r.id = some r →
    owes s.store r cl = true → owes s'.store r cl' = true ∨ abandons s a = some c

namespace Debts

variable {cfg : Config} (D : Debts cfg)

/-- The cached response of the booking's key does not say what it has to say. Source:
`app/api/book/route.ts` (step 7). Kind: D -/
def stale (σ : Store) (r : Booking) : Bool :=
  (σ.idempotencyKeys.find? r.idempotencyKey).any fun row =>
    !D.reported r row.responseStatus row.responseBody

/-- A step that leaves no stale response to nobody. Whoever writes a response that does not say what it has
to, whatever ends a booking whose response does not, and whoever does not get to write the response he owes,
leaves a handler that owes the right one. Source: `app/api/book/route.ts`,
`app/api/worker/allocate/route.ts`, `app/api/webhooks/qstash-failure/route.ts`. Kind: D -/
def Covered (s : Sys) : Action → Prop
  | .store (.exec i _) => ∀ w ∈ s.store.writing i, ∀ r ∈ s.store.bookings.committed.rows,
    r.idempotencyKey = w.2.1 → D.reported r w.2.2.1 w.2.2.2 = false →
      ∃ cl ∈ s.clients.eraseIdx w.1, D.owes s.store r cl = true
  | .store (.commit i) => ∀ r ∈ s.store.bookings.committed.rows,
    ∀ own ∈ s.store.bookings.lock r.id, own.1 = i → D.stale s.store own.2 = true →
      ∃ cl ∈ s.clients, D.owes s.store own.2 cl = true
  | a => ∀ c ∈ D.abandons s a, ∀ r ∈ s.store.bookings.committed.rows, D.stale s.store r = true →
    ((s.clients[c]?).any (D.owes s.store r)) = true →
      ∃ cl ∈ s.clients.eraseIdx c, D.owes s.store r cl = true

instance (s : Sys) (a : Action) : Decidable (D.Covered s a) :=
  let others (a : Action) : Decidable (∀ c ∈ D.abandons s a,
      ∀ r ∈ s.store.bookings.committed.rows, D.stale s.store r = true →
      ((s.clients[c]?).any (D.owes s.store r)) = true →
        ∃ cl ∈ s.clients.eraseIdx c, D.owes s.store r cl = true) := inferInstance
  match a with
  | .store (.exec i _) => inferInstanceAs (Decidable (∀ w ∈ s.store.writing i,
    ∀ r ∈ s.store.bookings.committed.rows, r.idempotencyKey = w.2.1 →
      D.reported r w.2.2.1 w.2.2.2 = false →
        ∃ cl ∈ s.clients.eraseIdx w.1, D.owes s.store r cl = true))
  | .store (.commit i) => inferInstanceAs (Decidable (∀ r ∈ s.store.bookings.committed.rows,
    ∀ own ∈ s.store.bookings.lock r.id, own.1 = i → D.stale s.store own.2 = true →
      ∃ cl ∈ s.clients, D.owes s.store own.2 cl = true))
  | .store (.begin ..) | .store (.start _) | .store (.abort _) | .store (.tick _) | .post _
  | .deliver .. | .failureCallback _ | .retryDlq _ | .sweep | .issue _ | .receive _ | .throw _
  | .gate .. | .publish .. | .chaos .. | .refund _ | .answer _ | .crash _ => others _

/-- Some handler owes every booking with a stale response the right one. Source: `app/api/book/route.ts`,
`app/api/worker/allocate/route.ts`. Kind: D -/
def Owed (s : Sys) : Prop :=
  ∀ b r, s.store.bookings.committed.find? b = some r → D.stale s.store r = true →
    ∃ (c : ℕ) (cl : Client), s.clients[c]? = some cl ∧ D.owes s.store r cl = true

variable {D} {s s' : Sys} {a : Action} {c : ℕ} {cl : Client} {r : Booking}
variable {σ σ' : Store} {x : Store.Action}

/-- The row of a key after a step that writes its response. Source: migration
`150_fn_write_idempotency_response`. Kind: L -/
theorem reported_of_written {i client st : ℕ} {ch : Choice} {body : CachedBody}
    (hs : σ.Stepped (.exec i ch) σ')
    (hwriting : σ.writing i = some (client, r.idempotencyKey, st, body))
    (hrow : ∃ row, σ.idempotencyKeys.find? r.idempotencyKey = some row)
    (hstale : D.stale σ' r = true) : D.reported r st body = false := by
  obtain ⟨now, he⟩ := exec_of_writing hwriting
  obtain ⟨row, hrow⟩ := hrow
  simpa [stale, hs.key_answered he rfl hrow, Store.answeredRow] using hstale

/-- A step that does not write the response of the booking leaves it. Source: migrations
`140_fn_idempotency_check`, `150_fn_write_idempotency_response`. Kind: L -/
theorem stale_of_not_written (hs : σ.Stepped x σ')
    (hrow : ∃ row, σ.idempotencyKeys.find? r.idempotencyKey = some row)
    (hno : ∀ i ch client st body, x = .exec i ch →
      σ.writing i ≠ some (client, r.idempotencyKey, st, body))
    (hstale : D.stale σ' r = true) : D.stale σ r = true := by
  obtain ⟨row, hrow⟩ := hrow
  obtain ⟨row', hrow', rfl | ⟨i, ch, e, st, body, rfl, he, hpc, hcall, -⟩⟩ := Store.key_next hs hrow
  · simpa [stale, hrow, hrow'] using hstale
  · exact absurd (Store.writing_of_exec he hpc hcall) (hno i ch e.client st body rfl)

/-- An open booking is not stale. Source: none: infrastructure. Kind: L -/
theorem not_stale_of_pending (hst : r.status = .pending) : D.stale σ r = false := by
  cases hrow : σ.idempotencyKeys.find? r.idempotencyKey <;> simp [stale, hrow, D.pending hst]

/-- Who owes a response owes it after a step of another handler, or of the store if it is not his
response that is written. Source: `app/api/worker/allocate/route.ts` (steps 4 to 8). Kind: L -/
theorem owes_stays (hinv : Inv cfg s) (hs : Stepped cfg s a s') (hcl : s.clients[c]? = some cl)
    (howes : D.owes s.store r cl = true) (ha : a.client ≠ some c)
    (hr : s.store.bookings.committed.find? r.id = some r ∨ ∃ j, a = .store (.commit j))
    (hno : ∀ i ch st body, a = .store (.exec i ch) →
      s.store.writing i ≠ some (c, r.idempotencyKey, st, body)) :
    ∃ (c : ℕ) (cl : Client), s'.clients[c]? = some cl ∧ D.owes s'.store r cl = true := by
  refine ⟨c, cl, hs.client_of_ne hcl ha, ?_⟩
  rcases hs.store_cases with heq | ⟨x, hx, hcause⟩
  · rw [heq]
    exact howes
  · have hr' : s.store.bookings.committed.find? r.id = some r ∨ ∃ j, x = .commit j := by
      refine hr.imp_right ?_
      rintro ⟨j, rfl⟩
      rcases hcause with ⟨heq, -⟩ | ⟨_, _, _, heq, -⟩ <;> cases heq
      exact ⟨j, rfl⟩
    rcases D.store hinv (Store.step_cases hx) hcl howes hr' with hkept |
      ⟨i, ch, st, body, rfl, hwriting⟩
    · exact hkept
    · rcases hcause with ⟨rfl, -⟩ | ⟨_, _, _, -, heq, -⟩
      · exact absurd hwriting (hno i ch st body rfl)
      · cases heq

/-- What `Covered` says of a step of a handler. Source: none: infrastructure. Kind: L -/
theorem Covered.of_abandons (hC : D.Covered s a) (ha : a.client = some c) (h : D.abandons s a = some c)
    (hr : r ∈ s.store.bookings.committed.rows) (hstale : D.stale s.store r = true)
    (hany : ((s.clients[c]?).any (D.owes s.store r)) = true) :
    ∃ cl ∈ s.clients.eraseIdx c, D.owes s.store r cl = true := by
  cases a with
  | store x => cases ha
  | _ => exact hC c h r hr hstale hany

/-- A response that was owed before a step which does not write it is owed after the step. Source:
`app/api/worker/allocate/route.ts` (steps 4 to 8). Kind: L -/
theorem owed_moves (hinv : Inv cfg s) (hs : Stepped cfg s a s') (hC : D.Covered s a)
    (hr : s.store.bookings.committed.find? r.id = some r) (hstale : D.stale s.store r = true)
    (hcl : s.clients[c]? = some cl) (howes : D.owes s.store r cl = true)
    (hno : ∀ i ch client st body, a = .store (.exec i ch) →
      s.store.writing i ≠ some (client, r.idempotencyKey, st, body)) :
    ∃ (c : ℕ) (cl : Client), s'.clients[c]? = some cl ∧ D.owes s'.store r cl = true := by
  by_cases ha : a.client = some c
  · obtain ⟨cl', hcl', ⟨-, hne⟩ | hm⟩ := hs.client_next hcl
    · exact absurd ha hne
    · rcases D.moves hinv hs hm hcl hr howes with hkept | habandons
      · exact ⟨c, cl', hcl', hkept⟩
      · -- another handler owes it too
        have hany : ((s.clients[c]?).any (D.owes s.store r)) = true := by
          rw [hcl]
          exact howes
        obtain ⟨cl₂, hmem₂, howes₂⟩ := hC.of_abandons ha habandons (Table.mem_of_find? hr) hstale hany
        obtain ⟨c₂, hne, hcl₂⟩ := exists_of_mem_eraseIdx hmem₂
        exact owes_stays hinv hs hcl₂ howes₂ (by rw [ha]; simpa using hne.symm) (.inl hr)
          fun i ch st body => hno i ch c₂ st body
  · exact owes_stays hinv hs hcl howes ha (.inl hr) fun i ch st body => hno i ch c st body

/-- A response that does not say what it has to is written while another handler owes the right one.
Source: `app/api/book/route.ts`, `app/api/worker/allocate/route.ts`. Kind: L -/
theorem owed_of_written {i client st : ℕ} {ch : Choice} {body : CachedBody} {b : BookingId}
    (hinv : Inv cfg s) (hs : Stepped cfg s (.store (.exec i ch)) s')
    (hC : D.Covered s (.store (.exec i ch)))
    (hwriting : s.store.writing i = some (client, r.idempotencyKey, st, body))
    (hr' : s'.store.bookings.committed.find? b = some r) (hstale : D.stale s'.store r = true) :
    ∃ (c : ℕ) (cl : Client), s'.clients[c]? = some cl ∧ D.owes s'.store r cl = true := by
  have hx := Store.step_cases hs.store_step
  rcases Store.booking_old hx hr' with ⟨r₀, hr⟩ | ⟨-, _, _, _, _, -, -, -, -, -, rfl⟩
  · obtain rfl : r₀.id = b := Table.key_of_find? hr
    rcases Store.booking_change hinv.store.locks hx hr hr' with rfl | ⟨_, _, _, heq, -⟩
    · have hunreported := reported_of_written hx hwriting (hinv.store.keyed _ _ hr) hstale
      obtain ⟨cl, hmem, howes⟩ := hC _ hwriting r (Table.mem_of_find? hr) rfl hunreported
      obtain ⟨c, hne, hcl⟩ := exists_of_mem_eraseIdx hmem
      refine owes_stays hinv hs hcl howes (by simp [Action.client]) (.inl hr) ?_
      rintro i' ch' st' body' heq hwriting'
      cases heq
      rw [hwriting] at hwriting'
      cases hwriting'
      exact hne rfl
    · cases heq
  · rw [not_stale_of_pending rfl] at hstale
    cases hstale

/-- **Covered steps keep every stale response owed.** Source: `app/api/book/route.ts`,
`app/api/worker/allocate/route.ts`, `app/api/webhooks/qstash-failure/route.ts`. Kind: L -/
theorem Owed.step (hinv : Inv cfg s) (h : D.Owed s) (hs : Stepped cfg s a s') (hC : D.Covered s a) :
    D.Owed s' := by
  intro b r' hr' hstale'
  by_cases hwrites : ∃ i ch client st body, a = .store (.exec i ch) ∧
      s.store.writing i = some (client, r'.idempotencyKey, st, body)
  · obtain ⟨i, ch, client, st, body, rfl, hwriting⟩ := hwrites
    exact owed_of_written hinv hs hC hwriting hr' hstale'
  have hno : ∀ i ch client st body, a = .store (.exec i ch) →
      s.store.writing i ≠ some (client, r'.idempotencyKey, st, body) :=
    fun i ch client st body ha hwriting => hwrites ⟨i, ch, client, st, body, ha, hwriting⟩
  have hold : s.store.bookings.committed.find? b = some r' → D.stale s.store r' = true →
      ∃ (c : ℕ) (cl : Client), s'.clients[c]? = some cl ∧ D.owes s'.store r' cl = true := by
    intro hr hstale
    obtain ⟨c, cl, hcl, howes⟩ := h b r' hr hstale
    obtain rfl : r'.id = b := Table.key_of_find? hr
    exact owed_moves hinv hs hC hr hstale hcl howes hno
  rcases hs.store_cases with heq | ⟨x, hx, hcause⟩
  · rw [heq] at hr' hstale'
    exact hold hr' hstale'
  have hx := Store.step_cases hx
  have hcause : a = .store x ∨ ∃ call c, x = .begin call c := by
    rcases hcause with ⟨rfl, -⟩ | ⟨c, cl, call, -, rfl, -⟩
    · exact .inl rfl
    · exact .inr ⟨call, c, rfl⟩
  rcases Store.booking_old hx hr' with ⟨r, hr⟩ | ⟨-, _, _, _, _, -, -, -, -, -, rfl⟩
  · have hrow := hinv.store.keyed b r hr
    obtain rfl : r.id = b := Table.key_of_find? hr
    rcases Store.booking_change hinv.store.locks hx hr hr' with rfl | ⟨i, e, reply, rfl, -, -, hlock, hw⟩
    · refine hold hr (stale_of_not_written hx hrow ?_ hstale')
      rintro i ch client st body rfl
      rcases hcause with rfl | ⟨_, _, heq⟩
      · exact hno i ch client st body rfl
      · cases heq
    · -- a booking that ends
      have hstale : D.stale s.store r' = true :=
        stale_of_not_written hx (by rw [hw.grows.idempotencyKey]; exact hrow) (by simp) hstale'
      rcases hcause with rfl | ⟨_, _, heq⟩
      · obtain ⟨cl, hmem, howes⟩ := hC r (Table.mem_of_find? hr) (i, r') hlock rfl hstale
        obtain ⟨c, hcl⟩ := List.mem_iff_getElem?.mp hmem
        exact owes_stays hinv hs hcl howes (by simp [Action.client]) (.inr ⟨i, rfl⟩) (by simp)
      · cases heq
  · rw [not_stale_of_pending rfl] at hstale'
    cases hstale'

/-- In every covered run somebody owes every stale response. Source: `app/api/book/route.ts`,
`app/api/worker/allocate/route.ts`, `app/api/webhooks/qstash-failure/route.ts`. Kind: L -/
theorem owed {C : Sys → Action → Prop} (hcovered : ∀ s a, C s a → D.Covered s a)
    (h : Reach (step cfg) Initial C s) : D.Owed s := by
  refine h.invariant (P := D.Owed) (fun s hinit b r hr => ?_)
    fun s a s' hreach hP hC hstep => hP.step (inv_of_reach hreach) (step_cases hstep) (hcovered s a hC)
  rw [hinit.store_initial.bookings_empty] at hr
  cases hr

/-- At rest nobody owes anything, so that no response is stale. Source: `app/api/book/route.ts` (step 7).
Kind: L -/
theorem fresh {b : BookingId} (howed : D.Owed s) (hrest : s.Quiescent)
    (hr : s.store.bookings.committed.find? b = some r) : D.stale s.store r = false := by
  by_contra hstale
  obtain ⟨c, cl, hcl, howes⟩ := howed b r hr (by simpa using hstale)
  have hdead := hrest.no_handler cl (List.mem_of_getElem? hcl)
  rw [D.live howes] at hdead
  cases hdead

end Debts

end Sys

end TrainsAndTracks
