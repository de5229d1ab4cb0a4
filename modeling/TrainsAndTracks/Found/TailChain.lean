import Mathlib.Data.Nat.Find
import Mathlib.Logic.Function.Basic
import TrainsAndTracks.Found.Run

/-!
# Chains of tails

Jobs that wait for each other through promises: for every key a map remembers the promise of the last job,
and a new job is chained to it by `tail.then(job).catch(log)`. No queue is kept anywhere.

* `TailChain` — the links and the map, `TailChain.step` — what the program and the event loop do.
* `Lane` — what a chain is for: the jobs of one key in the order they arrived, how many of them are through,
  and whether the next one runs.
* `lane_step` — a step of a chain is a step of one lane, or of none (simulation). `exists_start` — a lane
  whose next job may start has a link that may (the chain gets on).
* `Chained.settled_before` — the reason: a link that may start has every earlier one of its key behind it.
-/

namespace TrainsAndTracks.Found

/-! ## The chain -/

/-- Where a link is: its tail is not settled or its job has not begun, its job runs, its job has thrown and
`catch` is due, its promise is settled. Source: none: infrastructure (promises). Kind: D -/
inductive LinkState
  | waiting
  | running
  | rejected
  | settled
  deriving DecidableEq, Repr

/-- The job has begun and its promise is not settled. Source: none: infrastructure. Kind: D -/
def LinkState.busy : LinkState → Bool
  | running | rejected => true
  | waiting | settled => false

/-- One `tail.then(job).catch(log)`; `tail` is the position of the link whose promise it is chained to
(`none`: a promise that is resolved). Source: none: infrastructure (promises). Kind: D -/
structure Link (κ α : Type*) where
  key : κ
  job : α
  tail : Option ℕ
  state : LinkState

/-- The links in the order they were made, and the map from keys to the last promise. Source: none:
infrastructure (promises). Kind: D -/
structure TailChain (κ α : Type*) where
  links : List (Link κ α)
  last : κ → Option ℕ

namespace TailChain

variable {κ α : Type*}

/-- A step of the program or of the event loop. Source: none: infrastructure (promises). Kind: D -/
inductive Action (κ α : Type*)
  | enqueue (k : κ) (job : α)
  | start (n : ℕ)
  | fulfil (n : ℕ)
  | reject (n : ℕ)
  | recover (n : ℕ)

/-- The promise is settled. Source: none: infrastructure (promises). Kind: D -/
def resolved (c : TailChain κ α) : Option ℕ → Bool
  | none => true
  | some m => (c.links[m]?).any (·.state == .settled)

/-- Link `n`, which is `l`, goes on. Source: none: infrastructure. Kind: D -/
def put (c : TailChain κ α) (n : ℕ) (l : Link κ α) (st : LinkState) : TailChain κ α :=
  { c with links := c.links.set n { l with state := st } }

/-- A new link, chained to the last promise of its key. Source: none: infrastructure (promises). Kind: D -/
def chain [DecidableEq κ] (c : TailChain κ α) (k : κ) (job : α) : TailChain κ α where
  links := c.links ++ [⟨k, job, c.last k, .waiting⟩]
  last := Function.update c.last k (some c.links.length)

/-- One step. Source: none: infrastructure (promises). Kind: D -/
def step [DecidableEq κ] (c : TailChain κ α) : Action κ α → Option (TailChain κ α)
  | .enqueue k job => some (c.chain k job)
  | .start n => (c.links[n]?).bind fun l =>
      if l.state = .waiting ∧ c.resolved l.tail = true then some (c.put n l .running) else none
  | .fulfil n => (c.links[n]?).bind fun l =>
      if l.state = .running then some (c.put n l .settled) else none
  | .reject n => (c.links[n]?).bind fun l =>
      if l.state = .running then some (c.put n l .rejected) else none
  | .recover n => (c.links[n]?).bind fun l =>
      if l.state = .rejected then some (c.put n l .settled) else none

/-- No job has been enqueued. Source: none: infrastructure. Kind: D -/
def empty : TailChain κ α := ⟨[], fun _ => none⟩

/-- `Goes n a st st'`: the step `a` takes link `n` from `st` to `st'`. Source: none: infrastructure
(promises). Kind: D -/
inductive Goes (n : ℕ) : Action κ α → LinkState → LinkState → Prop
  | start : Goes n (.start n) .waiting .running
  | fulfil : Goes n (.fulfil n) .running .settled
  | reject : Goes n (.reject n) .running .rejected
  | recover : Goes n (.recover n) .rejected .settled

/-- What a step does: a new link, or one link goes on, after its tail if it starts. Source: none:
infrastructure (promises). Kind: D -/
inductive Stepped [DecidableEq κ] (c : TailChain κ α) : Action κ α → TailChain κ α → Prop
  | enqueue {k job} : Stepped c (.enqueue k job) (c.chain k job)
  | go {a n l st} (hl : c.links[n]? = some l) (hgoes : Goes n a l.state st)
      (htail : l.state = .waiting → c.resolved l.tail = true) : Stepped c a (c.put n l st)

section steps

variable [DecidableEq κ] {c c' : TailChain κ α} {a : Action κ α} {n m : ℕ} {l : Link κ α}

/-- **Inversion of a step.** Source: none: infrastructure. Kind: L -/
theorem step_cases (h : c.step a = some c') : Stepped c a c' := by
  cases a with
  | enqueue k job =>
    cases h
    exact .enqueue
  | start n =>
    obtain ⟨l, hl, h⟩ := Option.bind_eq_some_iff.mp h
    split at h <;> cases h
    rename_i hst
    exact .go hl (hst.1 ▸ .start) fun _ => hst.2
  | fulfil n =>
    obtain ⟨l, hl, h⟩ := Option.bind_eq_some_iff.mp h
    split at h <;> cases h
    rename_i hst
    exact .go hl (hst ▸ .fulfil) fun hw => by simp [hst] at hw
  | reject n =>
    obtain ⟨l, hl, h⟩ := Option.bind_eq_some_iff.mp h
    split at h <;> cases h
    rename_i hst
    exact .go hl (hst ▸ .reject) fun hw => by simp [hst] at hw
  | recover n =>
    obtain ⟨l, hl, h⟩ := Option.bind_eq_some_iff.mp h
    split at h <;> cases h
    rename_i hst
    exact .go hl (hst ▸ .recover) fun hw => by simp [hst] at hw

/-- A link may start. Source: none: infrastructure. Kind: L -/
theorem step_start (hl : c.links[n]? = some l) (hst : l.state = .waiting)
    (htail : c.resolved l.tail = true) : c.step (.start n) = some (c.put n l .running) := by
  simp [step, hl, hst, htail]

end steps

/-! ## The invariant -/

/-- `prev` is the last link before `n` with the key (`none`: there is none). Source: none: infrastructure.
Kind: D -/
def LastBefore (c : TailChain κ α) (n : ℕ) (k : κ) : Option ℕ → Prop
  | none => ∀ j < n, ∀ l, c.links[j]? = some l → l.key ≠ k
  | some m => m < n ∧ (∃ l, c.links[m]? = some l ∧ l.key = k) ∧
      ∀ j, m < j → j < n → ∀ l, c.links[j]? = some l → l.key ≠ k

/-- **The links of a key are chained in their order**: the map has the last one, each has the one before it as
its tail, and it has started after its tail. Source: none: infrastructure (promises). Kind: D -/
structure Chained (c : TailChain κ α) : Prop where
  last : ∀ k, c.LastBefore c.links.length k (c.last k)
  tail : ∀ (n : ℕ) (l : Link κ α), c.links[n]? = some l → c.LastBefore n l.key l.tail
  started : ∀ (n : ℕ) (l : Link κ α), c.links[n]? = some l → l.state ≠ .waiting → c.resolved l.tail = true

section chained

variable {c c' : TailChain κ α} {n m : ℕ} {l l' : Link κ α} {k : κ}

/-- The links after one has gone on. Source: none: infrastructure. Kind: L -/
theorem links_put (hl : c.links[n]? = some l) (st : LinkState) (m : ℕ) :
    (c.put n l st).links[m]? = if m = n then some { l with state := st } else c.links[m]? := by
  obtain ⟨hlt, -⟩ := List.getElem?_eq_some_iff.mp hl
  rw [put, List.getElem?_set]
  by_cases hm : m = n
  · simp [hm, hlt]
  · simp [hm, Ne.symm hm]

/-- A link after one has gone on was one before, but for its state. Source: none: infrastructure. Kind: L -/
theorem link_of_put {st : LinkState} (hl : c.links[n]? = some l)
    (h : (c.put n l st).links[m]? = some l') : ∃ l₀, c.links[m]? = some l₀ ∧ l'.key = l₀.key ∧
      l'.tail = l₀.tail ∧ l'.job = l₀.job ∧ (m ≠ n ∧ l' = l₀ ∨ m = n ∧ l₀ = l ∧ l'.state = st) := by
  rw [links_put hl] at h
  split at h
  · rename_i hm
    cases h
    exact ⟨l, by rw [hm, hl], rfl, rfl, rfl, .inr ⟨hm, rfl, rfl⟩⟩
  · rename_i hm
    exact ⟨l', h, rfl, rfl, rfl, .inl ⟨hm, rfl⟩⟩

/-- **Who may start has everyone before it behind it.** The induction goes down the tails. Source: none:
infrastructure (promises). Kind: L -/
theorem Chained.settled_before (h : c.Chained) : ∀ {n m : ℕ} {l l' : Link κ α}, c.links[n]? = some l →
    c.resolved l.tail = true → m < n → c.links[m]? = some l' → l'.key = l.key → l'.state = .settled := by
  intro n
  induction n using Nat.strong_induction_on with
  | h n ih =>
    intro m l l' hl hres hm hl' hkey
    have htail := h.tail n l hl
    cases ht : l.tail with
    | none =>
      rw [ht] at htail
      exact absurd hkey (htail m hm l' hl')
    | some p =>
      rw [ht] at htail hres
      obtain ⟨hp, ⟨lp, hlp, hkp⟩, hgap⟩ := htail
      have hsettled : lp.state = .settled := by simpa [resolved, hlp] using hres
      rcases Nat.lt_trichotomy m p with hlt | rfl | hlt
      · exact ih p hp hlp (h.started p lp hlp (by simp [hsettled])) hlt hl' (hkey.trans hkp.symm)
      · obtain rfl := Option.some.inj (hl'.symm.trans hlp)
        exact hsettled
      · exact absurd hkey (hgap m hlt hm l' hl')

/-- What the last link is depends on the keys before it. Source: none: infrastructure. Kind: L -/
theorem LastBefore.congr {prev : Option ℕ} (h : c.LastBefore n k prev)
    (hkeys : ∀ j < n, (c'.links[j]?).map Link.key = (c.links[j]?).map Link.key) :
    c'.LastBefore n k prev := by
  have hback : ∀ j < n, ∀ l', c'.links[j]? = some l' → ∃ l, c.links[j]? = some l ∧ l.key = l'.key := by
    intro j hj l' hl'
    have hk := hkeys j hj
    rw [hl', Option.map_some] at hk
    exact Option.map_eq_some_iff.mp hk.symm
  cases prev with
  | none =>
    intro j hj l' hl'
    obtain ⟨l, hl, hkey⟩ := hback j hj l' hl'
    exact hkey ▸ h j hj l hl
  | some m =>
    obtain ⟨hm, ⟨l, hl, hlk⟩, hgap⟩ := h
    have hk := hkeys m hm
    rw [hl, Option.map_some] at hk
    obtain ⟨l', hl', hkey⟩ := Option.map_eq_some_iff.mp hk
    refine ⟨hm, ⟨l', hl', hkey.trans hlk⟩, fun j hmj hj l₁ hl₁ => ?_⟩
    obtain ⟨l₀, hl₀, hkey₀⟩ := hback j hj l₁ hl₁
    exact hkey₀ ▸ hgap j hmj hj l₀ hl₀

/-- A settled promise stays settled. Source: none: infrastructure (promises). Kind: L -/
theorem resolved_put {st : LinkState} {prev : Option ℕ} (hl : c.links[n]? = some l)
    (hst : l.state ≠ .settled) (h : c.resolved prev = true) : (c.put n l st).resolved prev = true := by
  cases prev with
  | none => rfl
  | some m =>
    have hne : m ≠ n := by
      rintro rfl
      simp [resolved, hl, hst] at h
    simpa only [resolved, links_put hl, if_neg hne] using h

/-- The keys stay. Source: none: infrastructure. Kind: L -/
theorem keys_put {st : LinkState} (hl : c.links[n]? = some l) (j : ℕ) :
    ((c.put n l st).links[j]?).map Link.key = (c.links[j]?).map Link.key := by
  rw [links_put hl]
  split
  · rename_i hj
    rw [hj, hl]
    rfl
  · rfl

/-- No settled link goes on. Source: none: infrastructure (promises). Kind: L -/
theorem Goes.ne_settled {a : Action κ α} {st st' : LinkState} (h : Goes n a st st') : st ≠ .settled := by
  cases h <;> simp

/-- No link goes back to waiting. Source: none: infrastructure (promises). Kind: L -/
theorem Goes.ne_waiting {a : Action κ α} {st st' : LinkState} (h : Goes n a st st') : st' ≠ .waiting := by
  cases h <;> simp

/-- A link that waits starts. Source: none: infrastructure (promises). Kind: L -/
theorem Goes.of_waiting {a : Action κ α} {st st' : LinkState} (h : Goes n a st st') (hst : st = .waiting) :
    a = .start n := by
  cases h <;> first | rfl | cases hst

/-- The `catch` settles a promise. Source: none: infrastructure (promises). Kind: L -/
theorem Goes.of_recover {st st' : LinkState} (h : Goes n (.recover m : Action κ α) st st') :
    st = .rejected ∧ st' = .settled := by
  cases h
  exact ⟨rfl, rfl⟩

/-- An empty chain is chained. Source: none: infrastructure. Kind: L -/
theorem chained_empty : (empty : TailChain κ α).Chained where
  last _ _ hj := absurd hj (Nat.not_lt_zero _)
  tail n l hl := by cases hl
  started n l hl := by cases hl

section enqueue

variable [DecidableEq κ] {job : α}

/-- The links there were. Source: none: infrastructure. Kind: L -/
theorem links_chain {j : ℕ} (hj : j < c.links.length) : (c.chain k job).links[j]? = c.links[j]? :=
  List.getElem?_append_left hj

/-- The new link. Source: none: infrastructure. Kind: L -/
theorem links_chain_new : (c.chain k job).links[c.links.length]? = some ⟨k, job, c.last k, .waiting⟩ :=
  List.getElem?_concat_length

/-- A link is one there was, or the new one. Source: none: infrastructure. Kind: L -/
theorem link_of_chain (h : (c.chain k job).links[n]? = some l) :
    n < c.links.length ∧ c.links[n]? = some l ∨
      n = c.links.length ∧ l = ⟨k, job, c.last k, .waiting⟩ := by
  have hlt : n < (c.chain k job).links.length := (List.getElem?_eq_some_iff.mp h).1
  rcases Nat.lt_or_ge n c.links.length with hn | hn
  · exact .inl ⟨hn, (links_chain hn).symm.trans h⟩
  · have hn' : n = c.links.length := by
      simp only [chain, List.length_append, List.length_singleton] at hlt
      omega
    rw [hn', links_chain_new] at h
    exact .inr ⟨hn', (Option.some.inj h).symm⟩

/-- A new link does not change what was last. Source: none: infrastructure. Kind: L -/
theorem LastBefore.chain {k' : κ} {prev : Option ℕ} (h : c.LastBefore n k' prev) (hn : n ≤ c.links.length) :
    (c.chain k job).LastBefore n k' prev :=
  h.congr fun _ hj => congrArg _ (links_chain (Nat.lt_of_lt_of_le hj hn))

/-- Nor does one of another key. Source: none: infrastructure. Kind: L -/
theorem LastBefore.chain_of_ne {k' : κ} {prev : Option ℕ} (h : c.LastBefore c.links.length k' prev)
    (hne : k ≠ k') : (c.chain k job).LastBefore (c.links.length + 1) k' prev := by
  have hold : (c.chain k job).LastBefore c.links.length k' prev := h.chain le_rfl
  have hnew : ∀ l, (c.chain k job).links[c.links.length]? = some l → l.key ≠ k' := by
    intro l hl
    rw [links_chain_new] at hl
    cases hl
    exact hne
  cases prev with
  | none =>
    intro j hj l hl
    rcases Nat.lt_succ_iff_lt_or_eq.mp hj with hlt | rfl
    · exact hold j hlt l hl
    · exact hnew l hl
  | some m =>
    obtain ⟨hm, hlink, hgap⟩ := hold
    refine ⟨by omega, hlink, fun j hmj hj l hl => ?_⟩
    rcases Nat.lt_succ_iff_lt_or_eq.mp hj with hlt | rfl
    · exact hgap j hmj hlt l hl
    · exact hnew l hl

/-- A settled promise stays settled. Source: none: infrastructure (promises). Kind: L -/
theorem resolved_chain {prev : Option ℕ} (h : c.resolved prev = true) :
    (c.chain k job).resolved prev = true := by
  cases prev with
  | none => rfl
  | some m =>
    have hlt : m < c.links.length := by
      by_contra hge
      simp [resolved, List.getElem?_eq_none (Nat.le_of_not_lt hge)] at h
    simpa only [resolved, links_chain hlt] using h

/-- **A new link is chained.** Source: none: infrastructure (promises). Kind: L -/
theorem Chained.chain (h : c.Chained) : (c.chain k job).Chained where
  last k' := by
    have hlen : (c.chain k job).links.length = c.links.length + 1 := by simp [TailChain.chain]
    rw [hlen]
    by_cases hk : k' = k
    · subst hk
      have hlast : (c.chain k' job).last k' = some c.links.length := Function.update_self ..
      rw [hlast]
      refine ⟨Nat.lt_succ_self _, ⟨_, links_chain_new, rfl⟩, fun j hj hj' => ?_⟩
      omega
    · have hlast : (c.chain k job).last k' = c.last k' := Function.update_of_ne hk ..
      rw [hlast]
      exact (h.last k').chain_of_ne (Ne.symm hk)
  tail n l hl := by
    rcases link_of_chain hl with ⟨hn, hl⟩ | ⟨rfl, rfl⟩
    · exact (h.tail n l hl).chain hn.le
    · exact (h.last k).chain le_rfl
  started n l hl hst := by
    rcases link_of_chain hl with ⟨-, hl⟩ | ⟨-, rfl⟩
    · exact resolved_chain (h.started n l hl hst)
    · exact absurd rfl hst

end enqueue

/-- **A link that goes on stays chained.** Source: none: infrastructure (promises). Kind: L -/
theorem Chained.put {a : Action κ α} {st : LinkState} (h : c.Chained) (hl : c.links[n]? = some l)
    (hgoes : Goes n a l.state st) (htail : l.state = .waiting → c.resolved l.tail = true) :
    (c.put n l st).Chained where
  last k' := by
    have hlen : (c.put n l st).links.length = c.links.length := List.length_set ..
    rw [hlen]
    exact (h.last k').congr fun j _ => keys_put hl j
  tail m l' hl' := by
    obtain ⟨l₀, hl₀, hkey, htl, -, -⟩ := link_of_put hl hl'
    rw [hkey, htl]
    exact (h.tail m l₀ hl₀).congr fun j _ => keys_put hl j
  started m l' hl' hst := by
    obtain ⟨l₀, hl₀, -, htl, -, hcase⟩ := link_of_put hl hl'
    rw [htl]
    refine resolved_put hl hgoes.ne_settled ?_
    rcases hcase with ⟨-, rfl⟩ | ⟨rfl, rfl, -⟩
    · exact h.started m l' hl₀ hst
    · by_cases hw : l₀.state = .waiting
      · exact htail hw
      · exact h.started m l₀ hl₀ hw

/-- The link a step is about. Source: none: infrastructure. Kind: D -/
def Action.link : Action κ α → Option ℕ
  | .enqueue .. => none
  | .start n | .fulfil n | .reject n | .recover n => some n

/-- A step names its link. Source: none: infrastructure. Kind: L -/
theorem Goes.link {a : Action κ α} {st st' : LinkState} (h : Goes n a st st') : a.link = some n := by
  cases h <;> rfl

/-- **A link after a step** is as it was, or has gone on, or is new. Source: none: infrastructure. Kind: L -/
theorem Stepped.link_cases [DecidableEq κ] {a : Action κ α} (hs : Stepped c a c')
    (h : c'.links[m]? = some l') :
    (∃ l, c.links[m]? = some l ∧ l'.key = l.key ∧ l'.job = l.job ∧
      (l' = l ∧ a.link ≠ some m ∨ Goes m a l.state l'.state)) ∨
    ∃ k job, a = .enqueue k job ∧ m = c.links.length ∧ l' = ⟨k, job, c.last k, .waiting⟩ := by
  cases hs with
  | enqueue =>
    rcases link_of_chain h with ⟨-, hl⟩ | ⟨hm, hl⟩
    · exact .inl ⟨l', hl, rfl, rfl, .inl ⟨rfl, by simp [Action.link]⟩⟩
    · exact .inr ⟨_, _, rfl, hm, hl⟩
  | @go a n l st hl hgoes htail =>
    obtain ⟨l₀, hl₀, hkey, -, hjob, hcase⟩ := link_of_put hl h
    refine .inl ⟨l₀, hl₀, hkey, hjob, ?_⟩
    rcases hcase with ⟨hne, heq⟩ | ⟨rfl, rfl, hst⟩
    · exact .inl ⟨heq, by simpa [hgoes.link] using Ne.symm hne⟩
    · exact .inr (hst ▸ hgoes)

/-- How many links there are after a step. Source: none: infrastructure. Kind: L -/
theorem Stepped.length [DecidableEq κ] {a : Action κ α} (hs : Stepped c a c') :
    (∃ k job, a = .enqueue k job ∧ c'.links.length = c.links.length + 1) ∨
      (∀ k job, a ≠ .enqueue k job) ∧ c'.links.length = c.links.length := by
  cases hs with
  | enqueue => exact .inl ⟨_, _, rfl, by simp [TailChain.chain]⟩
  | go hl hgoes =>
    refine .inr ⟨fun k job ha => ?_, List.length_set ..⟩
    have hlink := hgoes.link
    rw [ha] at hlink
    cases hlink

/-- **A step keeps the links chained.** Source: none: infrastructure (promises). Kind: L -/
theorem Chained.step [DecidableEq κ] {a : Action κ α} (h : c.Chained) (hs : Stepped c a c') : c'.Chained := by
  cases hs with
  | enqueue => exact h.chain
  | go hl hgoes htail => exact h.put hl hgoes htail

/-- Link `n`, which is `l`, is the one its lane is at: the earlier ones of its key are settled, the later ones
wait. Source: none: infrastructure. Kind: D -/
structure Front (c : TailChain κ α) (n : ℕ) (l : Link κ α) : Prop where
  link : c.links[n]? = some l
  before : ∀ (m : ℕ) (l' : Link κ α), m < n → c.links[m]? = some l' → l'.key = l.key → l'.state = .settled
  after : ∀ (m : ℕ) (l' : Link κ α), n < m → c.links[m]? = some l' → l'.key = l.key → l'.state = .waiting

/-- **A link that may start or is under way is at the front.** Source: none: infrastructure (promises).
Kind: L -/
theorem Chained.front (h : c.Chained) (hl : c.links[n]? = some l) (hst : l.state ≠ .settled)
    (hres : c.resolved l.tail = true) : c.Front n l where
  link := hl
  before _ _ hm hl' hkey := h.settled_before hl hres hm hl' hkey
  after m l' hm hl' hkey := by
    by_contra hw
    exact hst (h.settled_before hl' (h.started m l' hl' hw) hm hl hkey.symm)

/-- It stays there when it goes on. Source: none: infrastructure. Kind: L -/
theorem Front.put (h : c.Front n l) : (c.put n l st).Front n { l with state := st } where
  link := by rw [links_put h.link, if_pos rfl]
  before m l' hm hl' hkey := by
    rw [links_put h.link, if_neg hm.ne] at hl'
    exact h.before m l' hm hl' hkey
  after m l' hm hl' hkey := by
    rw [links_put h.link, if_neg hm.ne'] at hl'
    exact h.after m l' hm hl' hkey

end chained

end TailChain

/-! ## What a chain is for -/

/-- The jobs of one key: as they arrived, how many are through, and whether the next one is under way.
Source: none: infrastructure. Kind: D -/
@[ext] structure Lane (α : Type*) where
  arrived : List α
  finished : ℕ
  busy : Bool

namespace Lane

variable {α : Type*}

/-- What happens to a lane. Source: none: infrastructure. Kind: D -/
inductive Action (α : Type*)
  | arrive (job : α)
  | start (job : α)
  | finish

/-- A step of a queue that serves one job at a time, in the order of arrival. Source: none: infrastructure.
Kind: D -/
inductive Step (q : Lane α) : Action α → Lane α → Prop
  | arrive {job} : Step q (.arrive job) { q with arrived := q.arrived ++ [job] }
  | start {job} (hidle : q.busy = false) (hnext : q.arrived[q.finished]? = some job) :
      Step q (.start job) { q with busy := true }
  | finish (hbusy : q.busy = true) : Step q .finish { q with finished := q.finished + 1, busy := false }

end Lane

/-! ## Lists of links -/

section lists

variable {σ τ : Type*} {f : σ → Option τ}

/-- An entry that says the same. Source: none: infrastructure. Kind: L -/
theorem filterMap_set_of_eq {x y : σ} : ∀ {l : List σ} {n : ℕ}, l[n]? = some x → f y = f x →
    (l.set n y).filterMap f = l.filterMap f
  | [], n, h, _ => by cases h
  | z :: l, 0, h, hf => by
    obtain rfl : z = x := Option.some.inj h
    simp only [List.set_cons_zero, List.filterMap_cons, hf]
  | z :: l, n + 1, h, hf => by
    have ih := filterMap_set_of_eq (l := l) (n := n) h hf
    simp only [List.set_cons_succ, List.filterMap_cons, ih]

/-- The place of an entry. Source: none: infrastructure. Kind: L -/
theorem getElem?_filterMap_countP {x : σ} {y : τ} : ∀ {l : List σ} {n : ℕ}, l[n]? = some x → f x = some y →
    (l.filterMap f)[(l.take n).countP fun z => (f z).isSome]? = some y
  | [], n, h, _ => by cases h
  | z :: l, 0, h, hf => by
    obtain rfl : z = x := Option.some.inj h
    simp [hf]
  | z :: l, n + 1, h, hf => by
    have ih := getElem?_filterMap_countP (l := l) (n := n) h hf
    cases hz : f z with
    | none => simpa [List.filterMap_cons, hz] using ih
    | some w => simpa [List.filterMap_cons, hz] using ih

/-- Whether some entry has a property, when one has changed. Source: none: infrastructure. Kind: L -/
theorem any_set_of_eq {p : σ → Bool} {x y : σ} : ∀ {l : List σ} {n : ℕ}, l[n]? = some x → p y = p x →
    (l.set n y).any p = l.any p
  | [], n, h, _ => by cases h
  | z :: l, 0, h, hp => by
    obtain rfl : z = x := Option.some.inj h
    simp only [List.set_cons_zero, List.any_cons, hp]
  | z :: l, n + 1, h, hp => by
    have ih := any_set_of_eq (l := l) (n := n) h hp
    simp only [List.set_cons_succ, List.any_cons, ih]

/-- Where a property holds of the entries before `n` and of none after. Source: none: infrastructure.
Kind: L -/
theorem countP_eq_take {p q : σ → Bool} {l : List σ} {n : ℕ}
    (hbefore : ∀ m x, m < n → l[m]? = some x → p x = q x)
    (hafter : ∀ m x, n ≤ m → l[m]? = some x → p x = false) : l.countP p = (l.take n).countP q := by
  have htake : (l.take n).countP p = (l.take n).countP q := by
    refine List.countP_congr fun x hx => ?_
    obtain ⟨m, hm⟩ := List.mem_iff_getElem?.mp hx
    rw [List.getElem?_take] at hm
    split at hm
    · rw [hbefore m x ‹_› hm]
    · cases hm
  have hdrop : (l.drop n).countP p = 0 := by
    refine List.countP_eq_zero.mpr fun x hx => ?_
    obtain ⟨m, hm⟩ := List.mem_iff_getElem?.mp hx
    rw [List.getElem?_drop] at hm
    simp [hafter _ x (Nat.le_add_right n m) hm]
  calc l.countP p = (l.take n ++ l.drop n).countP p := by rw [List.take_append_drop]
    _ = (l.take n).countP q := by rw [List.countP_append, htake, hdrop, Nat.add_zero]

end lists

namespace TailChain

variable {κ α : Type*} [DecidableEq κ]

/-! ## A chain serves lanes -/

/-- The job of a link of the key. Source: none: infrastructure. Kind: D -/
def jobOf (k : κ) (l : Link κ α) : Option α := if l.key = k then some l.job else none

/-- The lane of a key. Source: none: infrastructure. Kind: D -/
def lane (c : TailChain κ α) (k : κ) : Lane α where
  arrived := c.links.filterMap (jobOf k)
  finished := c.links.countP fun l => decide (l.key = k) && l.state == .settled
  busy := c.links.any fun l => decide (l.key = k) && l.state.busy

/-- What a step of the chain is to which lane. Source: none: infrastructure. Kind: D -/
def label (c : TailChain κ α) : Action κ α → Option (κ × Lane.Action α)
  | .enqueue k job => some (k, .arrive job)
  | .start n => (c.links[n]?).map fun l => (l.key, .start l.job)
  | .fulfil n | .recover n => (c.links[n]?).map fun l => (l.key, .finish)
  | .reject _ => none

section lanes

variable {c c' : TailChain κ α} {a : Action κ α} {n : ℕ} {l : Link κ α} {k : κ} {st : LinkState}

/-- Its lane is busy when it is. Source: none: infrastructure. Kind: L -/
theorem Front.busy (h : c.Front n l) : (c.lane l.key).busy = l.state.busy := by
  rw [Bool.eq_iff_iff]
  simp only [lane, List.any_eq_true, Bool.and_eq_true, decide_eq_true_eq]
  constructor
  · rintro ⟨l', hmem, hkey, hbusy⟩
    obtain ⟨m, hm⟩ := List.mem_iff_getElem?.mp hmem
    rcases Nat.lt_trichotomy m n with hlt | rfl | hlt
    · rw [h.before m l' hlt hm hkey] at hbusy
      cases hbusy
    · obtain rfl := Option.some.inj (hm.symm.trans h.link)
      exact hbusy
    · rw [h.after m l' hlt hm hkey] at hbusy
      cases hbusy
  · exact fun hbusy => ⟨l, List.mem_of_getElem? h.link, rfl, hbusy⟩

/-- Its job is the next one of its lane. Source: none: infrastructure. Kind: L -/
theorem Front.next (h : c.Front n l) (hst : l.state ≠ .settled) :
    (c.lane l.key).arrived[(c.lane l.key).finished]? = some l.job := by
  have hjob : jobOf l.key l = some l.job := if_pos rfl
  have hcount : (c.lane l.key).finished = (c.links.take n).countP fun z => (jobOf l.key z).isSome := by
    refine countP_eq_take (fun m l' hm hl' => ?_) fun m l' hm hl' => ?_
    · by_cases hkey : l'.key = l.key
      · simp [jobOf, hkey, h.before m l' hm hl' hkey]
      · simp [jobOf, hkey]
    · by_cases hkey : l'.key = l.key
      · rcases Nat.eq_or_lt_of_le hm with rfl | hlt
        · obtain rfl := Option.some.inj (hl'.symm.trans h.link)
          simp [hst]
        · simp [h.after m l' hlt hl' hkey]
      · simp [hkey]
  rw [hcount]
  exact getElem?_filterMap_countP h.link hjob

/-- The jobs stay when a link goes on. Source: none: infrastructure. Kind: L -/
theorem arrived_put (hl : c.links[n]? = some l) : ((c.put n l st).lane k).arrived = (c.lane k).arrived :=
  filterMap_set_of_eq hl rfl

/-- How many are through when a link goes on that was not. Source: none: infrastructure. Kind: L -/
theorem finished_put (hl : c.links[n]? = some l) (hst : l.state ≠ .settled) :
    ((c.put n l st).lane l.key).finished = (c.lane l.key).finished + if st = .settled then 1 else 0 := by
  have hcount := countP_set_of_some hl (fun z => decide (z.key = l.key) && z.state == .settled)
    { l with state := st }
  simp only [decide_true, Bool.true_and, beq_iff_eq, hst, if_false, Nat.add_zero] at hcount
  exact hcount

/-- The lane of another key stays. Source: none: infrastructure. Kind: L -/
theorem lane_put_of_ne (hl : c.links[n]? = some l) (hk : l.key ≠ k) : (c.put n l st).lane k = c.lane k := by
  have hcount := countP_set_of_some hl (fun z => decide (z.key = k) && z.state == .settled)
    { l with state := st }
  have hany := any_set_of_eq (p := fun z => decide (z.key = k) && z.state.busy)
    (y := { l with state := st }) hl (by simp [hk])
  simp only [hk, decide_false, Bool.false_and, Bool.false_eq_true, if_false, Nat.add_zero] at hcount
  exact Lane.ext (arrived_put hl) hcount hany

/-- A link goes on: its lane takes the step, or none when the job throws. Source: none: infrastructure
(promises). Kind: L -/
theorem lane_go (h : c.Chained) (hl : c.links[n]? = some l) (hgoes : Goes n a l.state st)
    (htail : l.state = .waiting → c.resolved l.tail = true) :
    (∃ b, c.label a = some (l.key, b) ∧ (c.lane l.key).Step b ((c.put n l st).lane l.key)) ∨
      c.label a = none ∧ (c.put n l st).lane l.key = c.lane l.key := by
  have hres : c.resolved l.tail = true := by
    by_cases hw : l.state = .waiting
    · exact htail hw
    · exact h.started n l hl hw
  have hfront := h.front hl hgoes.ne_settled hres
  have hnext := hfront.next hgoes.ne_settled
  have hbusy := hfront.busy
  have hbusy' : ((c.put n l st).lane l.key).busy = st.busy := hfront.put.busy
  have harrived : ((c.put n l st).lane l.key).arrived = (c.lane l.key).arrived := arrived_put hl
  have hfinished : ((c.put n l st).lane l.key).finished =
      (c.lane l.key).finished + if st = .settled then 1 else 0 := finished_put hl hgoes.ne_settled
  obtain ⟨k, job, prev, state⟩ := l
  cases hgoes with
  | start =>
    refine .inl ⟨.start job, by simp [label, hl], ?_⟩
    have heq : (c.put n _ .running).lane k = { c.lane k with busy := true } :=
      Lane.ext harrived hfinished hbusy'
    rw [heq]
    exact .start hbusy hnext
  | fulfil | recover =>
    refine .inl ⟨.finish, by simp [label, hl], ?_⟩
    have heq : (c.put n _ .settled).lane k =
        { c.lane k with finished := (c.lane k).finished + 1, busy := false } :=
      Lane.ext harrived hfinished hbusy'
    rw [heq]
    exact .finish hbusy
  | reject => exact .inr ⟨rfl, Lane.ext harrived hfinished (hbusy'.trans hbusy.symm)⟩

/-- A new link is a new job of its lane, and nothing to the others. Source: none: infrastructure. Kind: L -/
theorem lane_chain (c : TailChain κ α) (k₀ : κ) (job : α) (k : κ) : (c.chain k₀ job).lane k =
    if k₀ = k then { c.lane k with arrived := (c.lane k).arrived ++ [job] } else c.lane k := by
  split <;> rename_i hk <;> simp [lane, chain, jobOf, hk, LinkState.busy, List.countP_append]

omit [DecidableEq κ] in
/-- What a step of a link is, is a step of its key. Source: none: infrastructure. Kind: L -/
theorem label_of_goes (hl : c.links[n]? = some l) (hgoes : Goes n a l.state st) (hk : l.key ≠ k)
    (b : Lane.Action α) : c.label a ≠ some (k, b) := by
  obtain ⟨k₀, job, prev, state⟩ := l
  cases hgoes with
  | reject => simp [label]
  | start | fulfil | recover => simpa [label, hl] using fun heq => absurd heq hk

/-- **Simulation.** A step of a chain is the step of the lane that its label says, and leaves the other lanes.
Source: none: infrastructure (promises). Kind: L -/
theorem lane_step (h : c.Chained) (hs : Stepped c a c') (k : κ) :
    (∃ b, c.label a = some (k, b) ∧ (c.lane k).Step b (c'.lane k)) ∨
      (∀ b, c.label a ≠ some (k, b)) ∧ c'.lane k = c.lane k := by
  cases hs with
  | @enqueue k₀ job =>
    rw [lane_chain]
    split
    · rename_i hk
      exact .inl ⟨.arrive job, by rw [label, hk], .arrive⟩
    · rename_i hk
      exact .inr ⟨fun b heq => hk (congrArg Prod.fst (Option.some.inj heq)), rfl⟩
  | @go a n l st hl hgoes htail =>
    by_cases hk : l.key = k
    · subst hk
      rcases lane_go h hl hgoes htail with hstep | ⟨hnone, hsame⟩
      · exact .inl hstep
      · exact .inr ⟨fun b heq => by simp [hnone] at heq, hsame⟩
    · exact .inr ⟨label_of_goes hl hgoes hk, lane_put_of_ne hl hk⟩

/-- **A chain gets on.** A key that has a job left, and none under way, has a link that may start. Source:
none: infrastructure (promises). Kind: L -/
theorem Chained.exists_start (h : c.Chained) (hidle : (c.lane k).busy = false)
    (hopen : ∃ (n : ℕ) (l : Link κ α), c.links[n]? = some l ∧ l.key = k ∧ l.state ≠ .settled) :
    ∃ (n : ℕ) (l : Link κ α), c.links[n]? = some l ∧ l.key = k ∧ l.state = .waiting ∧
      c.resolved l.tail = true := by
  classical
  obtain ⟨l, hl, hk, hst⟩ := Nat.find_spec hopen
  have hmin : ∀ m < Nat.find hopen, ∀ l', c.links[m]? = some l' → l'.key = k → l'.state = .settled := by
    intro m hm l' hl' hk'
    by_contra hst'
    exact Nat.find_min hopen hm ⟨l', hl', hk', hst'⟩
  have hnot : l.state.busy = false := by
    have hany := List.any_eq_false.mp hidle l (List.mem_of_getElem? hl)
    simpa [hk] using hany
  refine ⟨_, l, hl, hk, ?_, ?_⟩
  · cases hs : l.state with
    | waiting => rfl
    | settled => exact absurd hs hst
    | running | rejected =>
      rw [hs] at hnot
      cases hnot
  · have htail := h.tail _ l hl
    cases ht : l.tail with
    | none => rfl
    | some m =>
      rw [ht] at htail
      obtain ⟨hm, ⟨l', hl', hk'⟩, -⟩ := htail
      simp [resolved, hl', hmin m hm l' hl' (hk'.trans hk)]

end lanes

end TailChain

end TrainsAndTracks.Found
