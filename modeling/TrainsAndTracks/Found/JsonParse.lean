import Mathlib.Data.List.TakeWhile
import TrainsAndTracks.Found.JsonTokens

/-!
# Reading a JSON text

`JSON.parse` on a string of code units: white space between tokens, and objects built property by property,
so that a key given twice keeps its first place and its last value, and array indices come first.

* `create`, `createAll`, `Owned` — the properties of an object, in the order the language lists them.
* `parseValue`, `parse` — a value, and a text that is one value and white space.
* `reads` — what is read does not depend on the number of steps.

`ordered_of_parse` is what `parse` returns, and `parse_stringify` the round trip: what `stringify` wrote of
such a value is read as the value, plainly.
-/

namespace TrainsAndTracks.Found

open Json

/-! ## Objects -/

/-- The own entries after a property is created or its value replaced.
Source: none: ECMAScript `CreateDataProperty`, `OrdinaryOwnPropertyKeys`. Kind: D -/
def create (out : List (JsString × Json)) (k : JsString) (v : Json) : List (JsString × Json) :=
  if (keys out).contains k then out.map fun e => if e.1 = k then (k, v) else e
  else match arrayIndex k with
    | some n => out.takeWhile (fun e => indexBelow n e.1) ++ (k, v) :: out.dropWhile fun e => indexBelow n e.1
    | none => out ++ [(k, v)]

/-- The object of the properties a text lists. Source: none: ECMAScript `JSON.parse`. Kind: D -/
def createAll (entries : List (JsString × Json)) : List (JsString × Json) :=
  entries.foldl (fun out e => create out e.1 e.2) []

/-- An own property that may stand before another: array indices come first and ascend.
Source: none: ECMAScript `OrdinaryOwnPropertyKeys`. Kind: D -/
def ownBefore (a b : JsString) : Bool := (arrayIndex b).all fun n => indexBelow n a

/-- Own entries as the language lists them: no key twice, and array indices first.
Source: none: ECMAScript `OrdinaryOwnPropertyKeys`. Kind: D -/
def Owned (entries : List (JsString × Json)) : Prop :=
  (keys entries).Nodup ∧ (keys entries).Pairwise fun a b => ownBefore a b = true
deriving Decidable

/-- Every object lists its properties as the language does: what `JSON.parse` returns.
Source: none: ECMAScript `JSON.parse`. Kind: D -/
def Json.ordered (v : Json) : Bool := everyObject (fun entries => decide (Owned entries)) v

section objects

variable {out es : List (JsString × Json)} {k : JsString} {v : Json}

/-- Properties listed in order are distinct. Source: none: infrastructure. Kind: L -/
theorem Json.distinct_of_ordered (h : v.ordered = true) : v.distinct = true := by
  induction v using Json.induction with
  | array items ih => exact distinct_array.mpr fun v hv => ih v hv (everyObject_array.mp h v hv)
  | object entries ih =>
    obtain ⟨howned, hvalues⟩ := everyObject_object.mp h
    exact distinct_object.mpr ⟨(of_decide_eq_true howned).1, fun e he => ih e he (hvalues e he)⟩
  | _ => rfl

/-- An array in order. Source: none: infrastructure. Kind: L -/
theorem Json.ordered_array {items : List Json} :
    (Json.array items).ordered = true ↔ ∀ v ∈ items, v.ordered = true := everyObject_array

/-- An object in order. Source: none: infrastructure. Kind: L -/
theorem Json.ordered_object :
    (Json.object es).ordered = true ↔ Owned es ∧ ∀ e ∈ es, e.2.ordered = true := by
  simp [Json.ordered]

/-- The order, plainly. Source: none: infrastructure. Kind: L -/
@[simp] theorem Json.ordered_plain (v : Json) : v.plain.ordered = v.ordered :=
  Json.everyObject_plain
    (p := fun ks => decide (ks.Nodup ∧ ks.Pairwise fun a b => ownBefore a b = true)) v

/-- An index that does not come before `n` comes after it, or is `n`. Source: none: infrastructure. Kind: L -/
theorem indexBelow_eq_false {a : JsString} {n : ℕ} :
    indexBelow n a = false ↔ ∀ m, arrayIndex a = some m → n ≤ m := by
  unfold indexBelow
  cases arrayIndex a <;> simp

/-- Behind an own property that is no index below `n` there is none. Source: none: infrastructure.
Kind: L -/
theorem indexBelow_of_ownBefore {a b : JsString} {n : ℕ} (hab : ownBefore a b = true)
    (ha : indexBelow n a = false) : indexBelow n b = false := by
  rw [indexBelow_eq_false] at ha ⊢
  intro m hm
  obtain ⟨i, hi, him⟩ : ∃ i, arrayIndex a = some i ∧ i < m := by
    simpa [ownBefore, hm, indexBelow, Option.any_eq_true] using hab
  exact (ha i hi).trans him.le

/-- **Creating a property keeps the order** of the own properties. Source: none: ECMAScript
`CreateDataProperty`. Kind: L -/
theorem Owned.create (h : Owned out) (k : JsString) (v : Json) : Owned (create out k v) := by
  obtain ⟨hnodup, hpairs⟩ := h
  unfold Found.create
  split
  · have hkeys : keys (out.map fun e => if e.1 = k then (k, v) else e) = keys out := by
      rw [keys, List.map_map]
      apply List.map_congr_left
      intro e _
      simp only [Function.comp_apply]
      split
      · rename_i hek
        exact hek.symm
      · rfl
    rw [Owned, hkeys]
    exact ⟨hnodup, hpairs⟩
  · rename_i hcontains
    have hnew : k ∉ keys out := by simpa using hcontains
    cases hindex : arrayIndex k with
    | none =>
      have hbefore : ∀ a, ownBefore a k = true := fun a => by simp [ownBefore, hindex]
      simp only [Owned, keys, List.map_append, List.map_cons, List.map_nil]
      constructor
      · refine List.nodup_append.mpr ⟨hnodup, List.nodup_singleton k, ?_⟩
        rintro a ha b hb rfl
        exact hnew (List.mem_singleton.mp hb ▸ ha)
      · exact List.pairwise_append.mpr ⟨hpairs, List.pairwise_singleton _ _, by simp [hbefore]⟩
    | some n =>
      have hsplit : keys out = keys (out.takeWhile fun e => indexBelow n e.1) ++
          keys (out.dropWhile fun e => indexBelow n e.1) := by
        rw [keys, keys, keys, ← List.map_append, List.takeWhile_append_dropWhile]
      have hlow : ∀ a ∈ keys (out.takeWhile fun e => indexBelow n e.1), indexBelow n a = true := by
        intro a ha
        obtain ⟨e, he, rfl⟩ := List.mem_map.mp ha
        exact List.all_eq_true.mp (List.all_takeWhile (p := fun e => indexBelow n e.1) (l := out)) e he
      have hhigh : ∀ b ∈ keys (out.dropWhile fun e => indexBelow n e.1), indexBelow n b = false := by
        rw [hsplit, List.pairwise_append] at hpairs
        have hrest := hpairs.2.1
        cases hdrop : out.dropWhile fun e => indexBelow n e.1 with
        | nil => simp [keys]
        | cons f rest =>
          have hf := List.head_dropWhile_not (fun e : JsString × Json => indexBelow n e.1) (l := out)
            (by simp [hdrop])
          simp only [hdrop, List.head_cons] at hf
          rw [hdrop] at hrest
          intro b hb
          rcases List.mem_cons.mp hb with rfl | hb
          · exact hf
          · exact indexBelow_of_ownBefore (List.rel_of_pairwise_cons hrest hb) hf
      have hkeys : keys (out.takeWhile (fun e => indexBelow n e.1) ++
          (k, v) :: out.dropWhile fun e => indexBelow n e.1) =
          keys (out.takeWhile fun e => indexBelow n e.1) ++
            k :: keys (out.dropWhile fun e => indexBelow n e.1) := by
        simp [keys]
      rw [Owned, hkeys]
      rw [hsplit] at hnodup hpairs hnew
      refine ⟨List.nodup_middle.mpr (List.nodup_cons.mpr ⟨hnew, hnodup⟩), ?_⟩
      rw [List.pairwise_append] at hpairs ⊢
      refine ⟨hpairs.1, List.pairwise_cons.mpr ⟨fun b hb => ?_, hpairs.2.1⟩, fun a ha b hb => ?_⟩
      · -- behind the new index come higher ones
        unfold ownBefore
        cases hb' : arrayIndex b with
        | none => rfl
        | some m =>
          have hle := indexBelow_eq_false.mp (hhigh b hb) m hb'
          have hne : n ≠ m := by
            rintro rfl
            exact hnew (List.mem_append_right _ (arrayIndex_inj hindex hb' ▸ hb))
          simpa [indexBelow, hindex] using Nat.lt_of_le_of_ne hle hne
      · rcases List.mem_cons.mp hb with rfl | hb
        · simpa [ownBefore, hindex] using hlow a ha
        · exact hpairs.2.2 a ha b hb

/-- The properties of a text make an object in order. Source: none: ECMAScript `JSON.parse`. Kind: L -/
theorem owned_createAll (es : List (JsString × Json)) : Owned (createAll es) := by
  unfold createAll
  induction es using List.reverseRecOn with
  | nil => exact ⟨List.nodup_nil, List.Pairwise.nil⟩
  | append_singleton es e ih =>
    rw [List.foldl_append]
    exact ih.create e.1 e.2

/-- A property of the object is one of the text. Source: none: infrastructure. Kind: L -/
theorem mem_of_mem_createAll {es : List (JsString × Json)} {e : JsString × Json} (h : e ∈ createAll es) :
    e ∈ es := by
  have hcreate : ∀ {out : List (JsString × Json)} {f : JsString × Json}, e ∈ create out f.1 f.2 →
      e ∈ out ∨ e = f := by
    intro out f he
    unfold create at he
    split at he
    · obtain ⟨g, hg, rfl⟩ := List.mem_map.mp he
      split
      · exact .inr rfl
      · exact .inl hg
    · split at he
      · simp only [List.mem_append, List.mem_cons] at he
        rcases he with he | rfl | he
        · exact .inl ((List.takeWhile_sublist _).subset he)
        · exact .inr rfl
        · exact .inl ((List.dropWhile_sublist _).subset he)
      · simpa using he
  unfold createAll at h
  induction es using List.reverseRecOn with
  | nil => exact h
  | append_singleton es f ih =>
    rw [List.foldl_append] at h
    rcases hcreate h with he | rfl
    · exact List.mem_append_left _ (ih he)
    · exact List.mem_append_right _ (List.mem_singleton_self e)

/-- A property created behind those it may follow is the last. Source: none: infrastructure. Kind: L -/
theorem create_eq_append (hnew : k ∉ keys out) (hafter : ∀ a ∈ keys out, ownBefore a k = true) :
    create out k v = out ++ [(k, v)] := by
  unfold create
  rw [if_neg (by simpa using hnew)]
  cases hindex : arrayIndex k with
  | none => rfl
  | some n =>
    have hlow : ∀ e ∈ out, indexBelow n e.1 = true := fun e he => by
      simpa [ownBefore, hindex] using hafter e.1 (List.mem_map_of_mem he)
    have htake : out.takeWhile (fun e => indexBelow n e.1) = out := List.takeWhile_eq_self_iff.mpr hlow
    have hdrop : out.dropWhile (fun e => indexBelow n e.1) = [] := List.dropWhile_eq_nil_iff.mpr hlow
    simp only [htake, hdrop]

/-- **Properties in order make the object that lists them.** Source: none: ECMAScript `JSON.parse`.
Kind: L -/
theorem createAll_eq (h : Owned es) : createAll es = es := by
  unfold createAll
  induction es using List.reverseRecOn with
  | nil => rfl
  | append_singleton es e ih =>
    obtain ⟨hnodup, hpairs⟩ := h
    simp only [keys, List.map_append, List.map_cons, List.map_nil] at hnodup hpairs
    obtain ⟨hes, -, hdisjoint⟩ := List.nodup_append.mp hnodup
    obtain ⟨hbefore, -, hlast⟩ := List.pairwise_append.mp hpairs
    rw [List.foldl_append, ih ⟨hes, hbefore⟩]
    apply create_eq_append
    · exact fun hmem => hdisjoint e.1 hmem e.1 (by simp) rfl
    · exact fun a ha => hlast a ha e.1 (by simp)

end objects

/-! ## Values -/

/-- White space. Source: none: ECMAScript `JSONWhiteSpace`. Kind: D -/
def isSpaceUnit (u : CodeUnit) : Bool :=
  [codeUnit 0x09, codeUnit 0x0A, codeUnit 0x0D, codeUnit 0x20].contains u

/-- What comes after white space. Source: none: infrastructure. Kind: D -/
def skipSpace (s : JsString) : JsString := s.dropWhile isSpaceUnit

/-- What follows a punctuator, white space before it left out. Source: none: infrastructure. Kind: D -/
def expect (u : CodeUnit) (s : JsString) : Option JsString :=
  if (skipSpace s).head? = some u then some (skipSpace s).tail else none

/-- The key of a property, with the colon behind it. Source: none: ECMAScript `JSONMember`. Kind: D -/
def parseKey (s : JsString) : Option (JsString × JsString) := do
  let s ← expect (unit '"') s
  let (k, s) ← parseString s
  let s ← expect (unit ':') s
  return (k, s)

/-- A string, a literal or a number, and what follows it. Source: none: ECMAScript `JSONValue`. Kind: D -/
def parseScalar (s : JsString) : Option (Json × JsString) :=
  match s with
  | [] => none
  | u :: t =>
    if u = unit '"' then (parseString t).map fun p => (.string p.1, p.2)
    else if u = unit 'n' then (s.dropPrefix? (ofString "null")).map fun r => (.null, r)
    else if u = unit 't' then (s.dropPrefix? (ofString "true")).map fun r => (.bool true, r)
    else if u = unit 'f' then (s.dropPrefix? (ofString "false")).map fun r => (.bool false, r)
    else (parseNumber s).map fun p => (.number p.1, p.2)

mutual

/-- A value and what follows it, in at most `n` steps. Source: none: ECMAScript `JSONValue`. Kind: D -/
def parseValue : ℕ → JsString → Option (Json × JsString)
  | 0, _ => none
  | n + 1, s =>
    match expect (unit '[') s, expect (unit '{') s with
    | some t, _ =>
      match expect (unit ']') t with
      | some r => some (.array [], r)
      | none => (parseItems n t).map fun p => (.array p.1, p.2)
    | none, some t =>
      match expect (unit '}') t with
      | some r => some (.object [], r)
      | none => (parseEntries n t).map fun p => (.object (createAll p.1), p.2)
    | none, none => parseScalar (skipSpace s)
termination_by structural n => n

/-- The items of an array up to the bracket. Source: none: ECMAScript `JSONElementList`. Kind: D -/
def parseItems : ℕ → JsString → Option (List Json × JsString)
  | 0, _ => none
  | n + 1, s =>
    match parseValue n s with
    | none => none
    | some (v, t) =>
      match expect (unit ',') t with
      | some t => (parseItems n t).map fun p => (v :: p.1, p.2)
      | none => (expect (unit ']') t).map fun r => ([v], r)
termination_by structural n => n

/-- The properties of an object up to the brace. Source: none: ECMAScript `JSONMemberList`. Kind: D -/
def parseEntries : ℕ → JsString → Option (List (JsString × Json) × JsString)
  | 0, _ => none
  | n + 1, s =>
    match parseKey s with
    | none => none
    | some (k, t) =>
      match parseValue n t with
      | none => none
      | some (v, t) =>
        match expect (unit ',') t with
        | some t => (parseEntries n t).map fun p => ((k, v) :: p.1, p.2)
        | none => (expect (unit '}') t).map fun r => ([(k, v)], r)
termination_by structural n => n

end

/-- `JSON.parse`: one value, with white space around it; `none` is a `SyntaxError`. The steps are enough for
whatever more of them read: `parseValue_of_steps`. Source: none: ECMAScript `JSON.parse`. Kind: D -/
def parse (s : JsString) : Option Json :=
  match parseValue (2 * s.length + 1) s with
  | some (v, r) => if skipSpace r = [] then some v else none
  | none => none

/-! ## Steps -/

section steps

variable {s r : JsString} {n : ℕ}

/-- White space is not made longer. Source: none: infrastructure. Kind: L -/
theorem length_skipSpace_le (s : JsString) : (skipSpace s).length ≤ s.length :=
  (List.dropWhile_sublist (l := s) isSpaceUnit).length_le

/-- A token takes a code unit at least. Source: none: infrastructure. Kind: L -/
theorem length_of_expect {u : CodeUnit} (h : expect u s = some r) : r.length < s.length := by
  unfold expect at h
  split at h
  · rename_i hhead
    have hlen := length_skipSpace_le s
    obtain rfl := Option.some.inj h
    cases hskip : skipSpace s with
    | nil => simp [hskip] at hhead
    | cons v t =>
      rw [hskip] at hlen
      simpa using hlen
  · cases h

/-- So does a code unit of a string. Source: none: infrastructure. Kind: L -/
theorem length_of_parseUnit {u : CodeUnit} (h : parseUnit s = some (u, r)) : r.length < s.length := by
  unfold parseUnit at h
  split at h
  · cases h
  · split_ifs at h
    · cases h
      simp
    · split at h
      · cases h
      · split_ifs at h
        · obtain ⟨c, -, hc⟩ := Option.map_eq_some_iff.mp h
          cases hc
          simp only [List.length_cons]
          omega
        · split at h
          · simp only [Option.bind_eq_bind, Option.bind_eq_some_iff, Option.pure_def] at h
            obtain ⟨_, -, _, -, _, -, _, -, hcode⟩ := h
            cases hcode
            simp only [List.length_cons]
            omega
          · cases h

/-- A string takes its closing quote. Source: none: infrastructure. Kind: L -/
theorem length_of_parseChars {t : JsString} (h : parseChars n s = some (t, r)) : r.length < s.length := by
  induction n generalizing s t with
  | zero => cases h
  | succ n ih =>
    rw [parseChars] at h
    split at h
    · rename_i hquote
      cases h
      cases s with
      | nil => simp at hquote
      | cons u s => simp
    · simp only [Option.bind_eq_bind, Option.bind_eq_some_iff, Option.pure_def] at h
      obtain ⟨⟨u, s'⟩, hu, ⟨us, r'⟩, hus, hr⟩ := h
      cases hr
      exact (ih hus).trans (length_of_parseUnit hu)

/-- Digits are one at least. Source: none: infrastructure. Kind: L -/
theorem length_of_parseDigits {ds : JsString} (h : parseDigits s = some (ds, r)) : r.length < s.length := by
  unfold parseDigits at h
  split at h
  · cases h
  · rename_i hne
    cases h
    have hsplit := congrArg List.length (List.takeWhile_append_dropWhile (p := isDigitUnit) (l := s))
    have hpos := List.length_pos_iff.mpr hne
    rw [List.length_append] at hsplit
    omega

/-- A signed number has digits. Source: none: infrastructure. Kind: L -/
theorem length_of_parseSigned {ds : JsString} (h : parseSigned s = some (ds, r)) : r.length < s.length := by
  unfold parseSigned at h
  split at h <;> obtain ⟨p, hp, hr⟩ := Option.map_eq_some_iff.mp h <;> obtain ⟨-, rfl⟩ := Prod.mk.inj hr <;>
    have hlen := length_of_parseDigits hp
  · rw [List.length_tail] at hlen
    omega
  · exact hlen

/-- A part is not read backwards. Source: none: infrastructure. Kind: L -/
theorem length_of_parseMarked {marks : List CodeUnit} {t : JsString}
    {part : JsString → Option (JsString × JsString)}
    (hpart : ∀ s t r, part s = some (t, r) → r.length < s.length)
    (h : parseMarked marks part s = some (t, r)) : r.length ≤ s.length := by
  unfold parseMarked at h
  split at h
  · have hlen := hpart _ _ _ h
    rw [List.length_tail] at hlen
    omega
  · cases h
    exact le_refl _

/-- A magnitude has digits. Source: none: infrastructure. Kind: L -/
theorem length_of_parseMagnitude {q : ℚ} (h : parseMagnitude s = some (q, r)) : r.length < s.length := by
  simp only [parseMagnitude, Option.bind_eq_bind, Option.bind_eq_some_iff] at h
  obtain ⟨whole, hwhole, fraction, hfraction, exponent, hexponent, hr⟩ := h
  split at hr
  · cases hr
  · obtain ⟨-, rfl⟩ := Prod.mk.inj (Option.some.inj hr)
    have h₁ := length_of_parseDigits hwhole
    have h₂ := length_of_parseMarked (fun _ _ _ => length_of_parseDigits) hfraction
    have h₃ := length_of_parseMarked (fun _ _ _ => length_of_parseSigned) hexponent
    omega

/-- So does a number. Source: none: infrastructure. Kind: L -/
theorem length_of_parseNumber {x : Number} (h : parseNumber s = some (x, r)) : r.length < s.length := by
  unfold parseNumber at h
  split at h <;> obtain ⟨p, hp, hr⟩ := Option.map_eq_some_iff.mp h <;> obtain ⟨-, rfl⟩ := Prod.mk.inj hr <;>
    have hlen := length_of_parseMagnitude hp
  · rw [List.length_tail] at hlen
    omega
  · exact hlen

/-- A literal is taken whole. Source: none: infrastructure. Kind: L -/
theorem length_of_dropPrefix? {p : JsString} (hp : p ≠ []) (h : s.dropPrefix? p = some r) :
    r.length < s.length := by
  obtain ⟨p', rfl, hbeq⟩ := List.dropPrefix?_eq_some_iff.mp h
  obtain rfl := eq_of_beq hbeq
  have hpos := List.length_pos_iff.mpr hp
  rw [List.length_append]
  omega

/-- A scalar takes a code unit at least, and lists no properties. Source: none: infrastructure. Kind: L -/
theorem of_parseScalar {v : Json} (h : parseScalar s = some (v, r)) :
    r.length < s.length ∧ v.ordered = true := by
  unfold parseScalar at h
  split at h
  · cases h
  · have hn : ofString "null" ≠ [] := by decide
    have ht : ofString "true" ≠ [] := by decide
    have hf : ofString "false" ≠ [] := by decide
    split_ifs at h <;> obtain ⟨p, hp, hr⟩ := Option.map_eq_some_iff.mp h <;>
      obtain ⟨rfl, rfl⟩ := Prod.mk.inj hr <;> refine ⟨?_, rfl⟩
    · exact (length_of_parseChars hp).trans (by simp)
    · exact length_of_dropPrefix? hn hp
    · exact length_of_dropPrefix? ht hp
    · exact length_of_dropPrefix? hf hp
    · exact length_of_parseNumber hp

/-- A key has quotes and a colon. Source: none: infrastructure. Kind: L -/
theorem length_of_parseKey {k : JsString} (h : parseKey s = some (k, r)) : r.length < s.length := by
  simp only [parseKey, Option.bind_eq_bind, Option.bind_eq_some_iff, Option.pure_def] at h
  obtain ⟨t, hquote, p, hstring, u, hcolon, hr⟩ := h
  obtain ⟨-, rfl⟩ := Prod.mk.inj (Option.some.inj hr)
  have h₁ := length_of_expect hquote
  have h₂ := length_of_parseChars hstring
  have h₃ := length_of_expect hcolon
  omega

/-- What one step reads of a value: a leaf whatever the steps left, or a bracket and what the steps left read
of the rest. Source: none: ECMAScript `JSONValue`. Kind: L -/
theorem parseValue_cases {v : Json} (h : parseValue (n + 1) s = some (v, r)) :
    (r.length < s.length ∧ v.ordered = true ∧ ∀ m, parseValue (m + 1) s = some (v, r)) ∨
    (∃ t vs, t.length < s.length ∧ parseItems n t = some (vs, r) ∧ v = .array vs ∧
      ∀ m, parseItems m t = some (vs, r) → parseValue (m + 1) s = some (v, r)) ∨
    ∃ t es, t.length < s.length ∧ parseEntries n t = some (es, r) ∧ v = .object (createAll es) ∧
      ∀ m, parseEntries m t = some (es, r) → parseValue (m + 1) s = some (v, r) := by
  simp only [parseValue] at h ⊢
  cases hbracket : expect (unit '[') s with
  | some t =>
    have hlen := length_of_expect hbracket
    simp only [hbracket] at h
    cases hclose : expect (unit ']') t with
    | some r' =>
      simp only [hclose, Option.some.injEq, Prod.mk.injEq] at h
      obtain ⟨rfl, rfl⟩ := h
      exact .inl ⟨(length_of_expect hclose).trans hlen, rfl, fun m => by simp [hclose]⟩
    | none =>
      simp only [hclose] at h
      obtain ⟨p, hp, hr⟩ := Option.map_eq_some_iff.mp h
      obtain ⟨rfl, rfl⟩ := Prod.mk.inj hr
      exact .inr (.inl ⟨t, p.1, hlen, hp, rfl, fun m hm => by simp [hclose, hm]⟩)
  | none =>
    simp only [hbracket] at h
    cases hbrace : expect (unit '{') s with
    | some t =>
      have hlen := length_of_expect hbrace
      simp only [hbrace] at h
      cases hclose : expect (unit '}') t with
      | some r' =>
        simp only [hclose, Option.some.injEq, Prod.mk.injEq] at h
        obtain ⟨rfl, rfl⟩ := h
        exact .inl ⟨(length_of_expect hclose).trans hlen, rfl, fun m => by simp [hclose]⟩
      | none =>
        simp only [hclose] at h
        obtain ⟨p, hp, hr⟩ := Option.map_eq_some_iff.mp h
        obtain ⟨rfl, rfl⟩ := Prod.mk.inj hr
        exact .inr (.inr ⟨t, p.1, hlen, hp, rfl, fun m hm => by simp [hclose, hm]⟩)
    | none =>
      simp only [hbrace] at h
      obtain ⟨hlen, hordered⟩ := of_parseScalar h
      exact .inl ⟨hlen.trans_le (length_skipSpace_le s), hordered, fun _ => h⟩

/-- What one step reads of the items of an array. Source: none: ECMAScript `JSONElementList`. Kind: L -/
theorem parseItems_cases {vs : List Json} (h : parseItems (n + 1) s = some (vs, r)) :
    ∃ v t, parseValue n s = some (v, t) ∧
      ((vs = [v] ∧ r.length < t.length ∧
        ∀ m, parseValue m s = some (v, t) → parseItems (m + 1) s = some (vs, r)) ∨
      ∃ u ws, u.length < t.length ∧ parseItems n u = some (ws, r) ∧ vs = v :: ws ∧
        ∀ m, parseValue m s = some (v, t) → parseItems m u = some (ws, r) →
          parseItems (m + 1) s = some (vs, r)) := by
  simp only [parseItems] at h ⊢
  cases hvalue : parseValue n s with
  | none => simp [hvalue] at h
  | some p =>
    simp only [hvalue] at h
    refine ⟨p.1, p.2, rfl, ?_⟩
    cases hcomma : expect (unit ',') p.2 with
    | some u =>
      simp only [hcomma] at h
      obtain ⟨q, hq, hr⟩ := Option.map_eq_some_iff.mp h
      obtain ⟨rfl, rfl⟩ := Prod.mk.inj hr
      exact .inr ⟨u, q.1, length_of_expect hcomma, hq, rfl, fun m hm hm' => by simp [hm, hcomma, hm']⟩
    | none =>
      simp only [hcomma] at h
      obtain ⟨q, hq, hr⟩ := Option.map_eq_some_iff.mp h
      obtain ⟨rfl, rfl⟩ := Prod.mk.inj hr
      exact .inl ⟨rfl, length_of_expect hq, fun m hm => by simp [hm, hcomma, hq]⟩

/-- What one step reads of the properties of an object. Source: none: ECMAScript `JSONMemberList`.
Kind: L -/
theorem parseEntries_cases {es : List (JsString × Json)} (h : parseEntries (n + 1) s = some (es, r)) :
    ∃ k a v t, a.length < s.length ∧ parseValue n a = some (v, t) ∧
      ((es = [(k, v)] ∧ r.length < t.length ∧
        ∀ m, parseValue m a = some (v, t) → parseEntries (m + 1) s = some (es, r)) ∨
      ∃ u fs, u.length < t.length ∧ parseEntries n u = some (fs, r) ∧ es = (k, v) :: fs ∧
        ∀ m, parseValue m a = some (v, t) → parseEntries m u = some (fs, r) →
          parseEntries (m + 1) s = some (es, r)) := by
  simp only [parseEntries] at h ⊢
  cases hkey : parseKey s with
  | none => simp [hkey] at h
  | some c =>
    simp only [hkey] at h
    refine ⟨c.1, c.2, ?_⟩
    cases hvalue : parseValue n c.2 with
    | none => simp [hvalue] at h
    | some p =>
      simp only [hvalue] at h
      refine ⟨p.1, p.2, length_of_parseKey hkey, rfl, ?_⟩
      cases hcomma : expect (unit ',') p.2 with
      | some u =>
        simp only [hcomma] at h
        obtain ⟨q, hq, hr⟩ := Option.map_eq_some_iff.mp h
        obtain ⟨rfl, rfl⟩ := Prod.mk.inj hr
        exact .inr ⟨u, q.1, length_of_expect hcomma, hq, rfl, fun m hm hm' => by simp [hm, hcomma, hm']⟩
      | none =>
        simp only [hcomma] at h
        obtain ⟨q, hq, hr⟩ := Option.map_eq_some_iff.mp h
        obtain ⟨rfl, rfl⟩ := Prod.mk.inj hr
        exact .inl ⟨rfl, length_of_expect hq, fun m hm => by simp [hm, hcomma, hq]⟩

/-- What a number of steps read, the rest of the text after it: something that is `good`, and that any number
of steps beyond the length read as well. Source: none: infrastructure. Kind: D -/
structure Reads {α : Type} (parser : ℕ → JsString → Option (α × JsString)) (slack : ℕ) (good : α → Prop)
    (s : JsString) (a : α) (r : JsString) : Prop where
  shorter : r.length < s.length
  good : good a
  steps : ∀ m, 2 * s.length + slack < m → parser m s = some (a, r)

/-- **What is read does not depend on the steps**, from twice the length of the text on.
Source: none: infrastructure. Kind: L -/
theorem reads (n : ℕ) :
    (∀ s v r, parseValue n s = some (v, r) → Reads parseValue 0 (fun v => v.ordered = true) s v r) ∧
    (∀ s vs r, parseItems n s = some (vs, r) →
      Reads parseItems 1 (fun vs => ∀ v ∈ vs, v.ordered = true) s vs r) ∧
    ∀ s es r, parseEntries n s = some (es, r) →
      Reads parseEntries 1 (fun es => ∀ e ∈ es, e.2.ordered = true) s es r := by
  have hsucc : ∀ {m k}, k < m → ∃ l, m = l + 1 := fun {m k} hm => ⟨m - 1, by omega⟩
  induction n with
  | zero =>
    refine ⟨fun _ _ _ h => ?_, fun _ _ _ h => ?_, fun _ _ _ h => ?_⟩
    · simp [parseValue] at h
    · simp [parseItems] at h
    · simp [parseEntries] at h
  | succ n ih =>
    obtain ⟨ihv, ihi, ihe⟩ := ih
    refine ⟨fun s v r h => ?_, fun s vs r h => ?_, fun s es r h => ?_⟩
    · obtain ⟨hlen, hordered, hleaf⟩ | ⟨t, vs, hlen, hitems, rfl, hread⟩ |
        ⟨t, es, hlen, hentries, rfl, hread⟩ := parseValue_cases h
      · refine ⟨hlen, hordered, fun m hm => ?_⟩
        obtain ⟨l, rfl⟩ := hsucc hm
        exact hleaf l
      · obtain ⟨hshorter, hgood, hsteps⟩ := ihi t vs r hitems
        refine ⟨hshorter.trans hlen, ordered_array.mpr hgood, fun m hm => ?_⟩
        obtain ⟨l, rfl⟩ := hsucc hm
        exact hread l (hsteps l (by omega))
      · obtain ⟨hshorter, hgood, hsteps⟩ := ihe t es r hentries
        refine ⟨hshorter.trans hlen, ordered_object.mpr ⟨owned_createAll es, ?_⟩, fun m hm => ?_⟩
        · exact fun e he => hgood e (mem_of_mem_createAll he)
        · obtain ⟨l, rfl⟩ := hsucc hm
          exact hread l (hsteps l (by omega))
    · obtain ⟨v, t, hvalue, ⟨rfl, hlen, hread⟩ | ⟨u, ws, hlen, hitems, rfl, hread⟩⟩ := parseItems_cases h
      · obtain ⟨hshorter, hgood, hsteps⟩ := ihv s v t hvalue
        refine ⟨hlen.trans hshorter, by simpa using hgood, fun m hm => ?_⟩
        obtain ⟨l, rfl⟩ := hsucc hm
        exact hread l (hsteps l (by omega))
      · obtain ⟨hshorter, hgood, hsteps⟩ := ihv s v t hvalue
        obtain ⟨hshorter', hgood', hsteps'⟩ := ihi u ws r hitems
        refine ⟨by omega, List.forall_mem_cons.mpr ⟨hgood, hgood'⟩, fun m hm => ?_⟩
        obtain ⟨l, rfl⟩ := hsucc hm
        exact hread l (hsteps l (by omega)) (hsteps' l (by omega))
    · obtain ⟨k, a, v, t, hkey, hvalue, ⟨rfl, hlen, hread⟩ | ⟨u, fs, hlen, hentries, rfl, hread⟩⟩ :=
        parseEntries_cases h
      · obtain ⟨hshorter, hgood, hsteps⟩ := ihv a v t hvalue
        refine ⟨by omega, by simpa using hgood, fun m hm => ?_⟩
        obtain ⟨l, rfl⟩ := hsucc hm
        exact hread l (hsteps l (by omega))
      · obtain ⟨hshorter, hgood, hsteps⟩ := ihv a v t hvalue
        obtain ⟨hshorter', hgood', hsteps'⟩ := ihe u fs r hentries
        refine ⟨by omega, List.forall_mem_cons.mpr ⟨hgood, hgood'⟩, fun m hm => ?_⟩
        obtain ⟨l, rfl⟩ := hsucc hm
        exact hread l (hsteps l (by omega)) (hsteps' l (by omega))

/-- Whatever number of steps reads a value, the steps of `parse` do. Source: none: infrastructure.
Kind: L -/
theorem parseValue_of_steps {v : Json} (h : parseValue n s = some (v, r)) :
    parseValue (2 * s.length + 1) s = some (v, r) :=
  ((reads n).1 s v r h).steps _ (by omega)

/-- **What `parse` returns** lists the properties of its objects in order. Source: none: ECMAScript
`JSON.parse`. Kind: L -/
theorem ordered_of_parse {v : Json} (h : parse s = some v) : v.ordered = true := by
  unfold parse at h
  split at h
  · rename_i w t hvalue
    split at h
    · obtain rfl := Option.some.inj h
      exact ((reads _).1 _ _ _ hvalue).good
    · cases h
  · cases h

end steps

/-! ## The round trip -/

section reading

variable {r : JsString} {u c : CodeUnit} {s : JsString}

/-- Where there is no white space none is skipped. Source: none: infrastructure. Kind: L -/
theorem skipSpace_cons (h : isSpaceUnit u = false) : skipSpace (u :: s) = u :: s := by
  rw [skipSpace, List.dropWhile_cons_of_neg (by simp [h])]

/-- A punctuator expected is taken. Source: none: infrastructure. Kind: L -/
theorem expect_self (h : isSpaceUnit u = false) : expect u (u :: s) = some s := by
  simp [expect, skipSpace_cons h]

/-- Another is not. Source: none: infrastructure. Kind: L -/
theorem expect_ne (h : isSpaceUnit c = false) (hne : c ≠ u) : expect u (c :: s) = none := by
  simp [expect, skipSpace_cons h, hne]

/-- No white space tells a constructor. Source: none: infrastructure. Kind: L -/
theorem tagOf_space (h : isSpaceUnit u = true) : tagOf u = 6 := by
  simp only [isSpaceUnit, List.contains_eq_mem, List.mem_cons, List.not_mem_nil, or_false,
    decide_eq_true_eq] at h
  rcases h with rfl | rfl | rfl | rfl <;> decide

/-- The text of a value does not begin with white space. Source: none: infrastructure. Kind: L -/
theorem isSpaceUnit_of_tagOf {v : Json} (h : tagOf u = v.tag) : isSpaceUnit u = false := by
  by_contra hspace
  rw [tagOf_space (by simpa using hspace)] at h
  cases v <;> simp [Json.tag] at h

/-- A literal is read back. Source: none: infrastructure. Kind: L -/
theorem dropPrefix?_literal {literal t : JsString} {u : CodeUnit} (h : literal = u :: t) (r : JsString) :
    (u :: (t ++ r)).dropPrefix? literal = some r := by
  rw [← List.cons_append, ← h]
  exact List.dropPrefix?_append_of_beq r (beq_self_eq_true literal)

/-- **A scalar is read back.** Source: none: ECMAScript `JSON.stringify`. Kind: L -/
theorem parseScalar_stringify {v : Json} (hv : v.plain = v) (htag : v.tag < 4) (hr : Ends r) :
    parseScalar (stringify v ++ r) = some (v, r) := by
  cases v with
  | null =>
    have hn : unit 'n' ≠ unit '"' := by decide
    obtain ⟨t, ht⟩ : ∃ t, ofString "null" = unit 'n' :: t := ⟨_, rfl⟩
    rw [stringify, ht, List.cons_append, parseScalar, if_neg hn, if_pos rfl, dropPrefix?_literal ht,
      Option.map_some]
  | bool b =>
    cases b with
    | true =>
      have hq : unit 't' ≠ unit '"' := by decide
      have hn : unit 't' ≠ unit 'n' := by decide
      obtain ⟨t, ht⟩ : ∃ t, ofString "true" = unit 't' :: t := ⟨_, rfl⟩
      rw [stringify, if_pos rfl, ht, List.cons_append, parseScalar, if_neg hq, if_neg hn, if_pos rfl,
        dropPrefix?_literal ht, Option.map_some]
    | false =>
      have hq : unit 'f' ≠ unit '"' := by decide
      have hn : unit 'f' ≠ unit 'n' := by decide
      have ht' : unit 'f' ≠ unit 't' := by decide
      obtain ⟨t, ht⟩ : ∃ t, ofString "false" = unit 'f' :: t := ⟨_, rfl⟩
      rw [stringify, if_neg Bool.false_ne_true, ht, List.cons_append, parseScalar, if_neg hq, if_neg hn,
        if_neg ht', if_pos rfl, dropPrefix?_literal ht, Option.map_some]
  | string t =>
    simp only [stringify, quote, List.cons_append, List.append_assoc, List.nil_append, parseScalar, if_true,
      parseString_quoteBody, Option.map_some]
  | number x =>
    obtain ⟨u, t, htext, hhead⟩ := stringify_head hv
    have hnumber := parseNumber_text hv hr
    have hne : ∀ c : CodeUnit, tagOf c ≠ 2 → u ≠ c := by
      rintro c hc rfl
      exact hc hhead
    rw [stringify] at htext ⊢
    rw [htext] at hnumber ⊢
    simp only [List.cons_append] at hnumber ⊢
    rw [parseScalar, if_neg (hne _ (by decide)), if_neg (hne _ (by decide)), if_neg (hne _ (by decide)),
      if_neg (hne _ (by decide)), hnumber, Option.map_some]
  | array _ => simp [Json.tag] at htag
  | object _ => simp [Json.tag] at htag

/-- A value is read back, in some number of steps. Source: none: infrastructure. Kind: D -/
def ReadBack (v : Json) : Prop := ∀ r, Ends r → ∃ n, parseValue n (stringify v ++ r) = some (v, r)

/-- What a punctuator of a list begins ends a value. Source: none: infrastructure. Kind: L -/
theorem Ends.cons (h : isNumberUnit u = false ∧ u ≠ unit 'E') : Ends (u :: r) := by
  intro c hc
  obtain rfl : u = c := by simpa using hc
  exact h

/-- The items of an array are read back. Source: none: ECMAScript `SerializeJSONArray`. Kind: L -/
theorem parseItems_join {vs : List Json} (hne : vs ≠ []) (hvs : ∀ v ∈ vs, ReadBack v) :
    ∃ n, parseItems n (joinComma (vs.map stringify) ++ unit ']' :: r) = some (vs, r) := by
  have hbracket : isSpaceUnit (unit ']') = false := by decide
  have hcomma : isSpaceUnit (unit ',') = false := by decide
  induction vs with
  | nil => exact absurd rfl hne
  | cons v vs ih =>
    cases vs with
    | nil =>
      obtain ⟨n, hn⟩ := hvs v List.mem_cons_self (unit ']' :: r) (Ends.cons (by decide))
      have hnext : expect (unit ',') (unit ']' :: r) = none := expect_ne hbracket (by decide)
      exact ⟨n + 1, by simp [joinComma, parseItems, hn, hnext, expect_self hbracket]⟩
    | cons w ws =>
      obtain ⟨m, hm⟩ := ih (by simp) fun x hx => hvs x (List.mem_cons_of_mem v hx)
      simp only [List.map_cons, joinComma, List.append_assoc, List.cons_append] at hm ⊢
      generalize joinComma (stringify w :: ws.map stringify) ++ unit ']' :: r = t at hm ⊢
      obtain ⟨n, hn⟩ := hvs v List.mem_cons_self (unit ',' :: t) (Ends.cons (by decide))
      -- as many steps as both parts need
      have hvalue := ((reads n).1 _ _ _ hn).steps (2 * (stringify v ++ unit ',' :: t).length + 1) (by omega)
      have hitems := ((reads m).2.1 _ _ _ hm).steps (2 * (stringify v ++ unit ',' :: t).length + 1)
        (by simp only [List.length_append, List.length_cons]; omega)
      refine ⟨2 * (stringify v ++ unit ',' :: t).length + 1 + 1, ?_⟩
      rw [parseItems]
      simp only [hvalue, expect_self hcomma, hitems, Option.map_some]

/-- A key is read back. Source: none: ECMAScript `SerializeJSONObject`. Kind: L -/
theorem parseKey_quote (k s : JsString) : parseKey (quote k ++ unit ':' :: s) = some (k, s) := by
  have hquote : isSpaceUnit (unit '"') = false := by decide
  have hcolon : isSpaceUnit (unit ':') = false := by decide
  simp only [parseKey, quote, List.cons_append, List.append_assoc, List.nil_append, expect_self hquote,
    parseString_quoteBody, expect_self hcolon, Option.bind_eq_bind, Option.bind_some, Option.pure_def]

/-- The properties of an object are read back. Source: none: ECMAScript `SerializeJSONObject`. Kind: L -/
theorem parseEntries_join {es : List (JsString × Json)} (hne : es ≠ []) (hes : ∀ e ∈ es, ReadBack e.2) :
    ∃ n, parseEntries n (joinComma (es.map fun e => quote e.1 ++ unit ':' :: stringify e.2) ++
      unit '}' :: r) = some (es, r) := by
  have hbrace : isSpaceUnit (unit '}') = false := by decide
  have hcomma : isSpaceUnit (unit ',') = false := by decide
  induction es with
  | nil => exact absurd rfl hne
  | cons e es ih =>
    obtain ⟨k, v⟩ := e
    cases es with
    | nil =>
      obtain ⟨n, hn⟩ := hes (k, v) List.mem_cons_self (unit '}' :: r) (Ends.cons (by decide))
      have hnext : expect (unit ',') (unit '}' :: r) = none := expect_ne hbrace (by decide)
      exact ⟨n + 1, by simp [joinComma, parseEntries, parseKey_quote, hn, hnext, expect_self hbrace]⟩
    | cons f fs =>
      obtain ⟨m, hm⟩ := ih (by simp) fun x hx => hes x (List.mem_cons_of_mem (k, v) hx)
      simp only [List.map_cons, joinComma, List.append_assoc, List.cons_append] at hm ⊢
      generalize joinComma ((quote f.1 ++ unit ':' :: stringify f.2) ::
        fs.map fun e => quote e.1 ++ unit ':' :: stringify e.2) ++ unit '}' :: r = t at hm ⊢
      obtain ⟨n, hn⟩ : ∃ n, parseValue n (stringify v ++ unit ',' :: t) = some (v, unit ',' :: t) :=
        hes (k, v) List.mem_cons_self _ (Ends.cons (by decide))
      -- as many steps as both parts need
      have hvalue := ((reads n).1 _ _ _ hn).steps (2 * (stringify v ++ unit ',' :: t).length + 1) (by omega)
      have hentries := ((reads m).2.2 _ _ _ hm).steps (2 * (stringify v ++ unit ',' :: t).length + 1)
        (by simp only [List.length_append, List.length_cons]; omega)
      refine ⟨2 * (stringify v ++ unit ',' :: t).length + 1 + 1, ?_⟩
      rw [parseEntries]
      simp only [parseKey_quote, hvalue, expect_self hcomma, hentries, Option.map_some]

/-- The first code unit of a list of texts is that of the first text. Source: none: infrastructure.
Kind: L -/
theorem joinComma_cons (t : JsString) (ts : List JsString) (r : JsString) :
    ∃ rest, joinComma (t :: ts) ++ r = t ++ rest := by
  cases ts with
  | nil => exact ⟨r, rfl⟩
  | cons u us => exact ⟨unit ',' :: joinComma (u :: us) ++ r, by simp [joinComma]⟩

/-- **The text of a plain value in order is read back**, in front of what may follow it.
Source: none: ECMAScript `JSON.stringify`. Kind: L -/
theorem readBack {v : Json} (hv : v.plain = v) (hordered : v.ordered = true) : ReadBack v := by
  have hleaf : ∀ {v : Json}, v.plain = v → v.tag < 4 → ReadBack v := by
    intro v hv htag r hr
    obtain ⟨u, s, htext, hu⟩ := stringify_head hv
    have hspace := isSpaceUnit_of_tagOf hu
    have hbracket : u ≠ unit '[' := by
      rintro rfl
      exact absurd htag (by rw [← hu]; decide)
    have hbrace : u ≠ unit '{' := by
      rintro rfl
      exact absurd htag (by rw [← hu]; decide)
    have hscalar := parseScalar_stringify hv htag hr
    refine ⟨1, ?_⟩
    rw [htext] at hscalar ⊢
    simp only [List.cons_append] at hscalar ⊢
    simp only [parseValue, expect_ne hspace hbracket, expect_ne hspace hbrace, skipSpace_cons hspace, hscalar]
  have hopen : isSpaceUnit (unit '[') = false := by decide
  have hopen' : isSpaceUnit (unit '{') = false := by decide
  have hbracket : isSpaceUnit (unit ']') = false := by decide
  have hbrace : isSpaceUnit (unit '}') = false := by decide
  have hquote : isSpaceUnit (unit '"') = false := by decide
  induction v using Json.induction with
  | null => exact hleaf hv (by decide)
  | bool b => exact hleaf hv (by simp [Json.tag])
  | number x => exact hleaf hv (by simp [Json.tag])
  | string s => exact hleaf hv (by simp [Json.tag])
  | array vs ih =>
    have hvs := plain_of_mem_array hv
    intro r _
    simp only [stringify_array, List.cons_append, List.append_assoc, List.nil_append]
    cases vs with
    | nil =>
      refine ⟨1, ?_⟩
      simp only [List.map_nil, joinComma, List.nil_append, parseValue, expect_self hopen,
        expect_self hbracket]
    | cons v vs =>
      obtain ⟨n, hn⟩ := parseItems_join (r := r) (List.cons_ne_nil v vs) fun x hx =>
        ih x hx (hvs x hx) (ordered_array.mp hordered x hx)
      have hnot : expect (unit ']') (joinComma ((v :: vs).map stringify) ++ unit ']' :: r) = none := by
        obtain ⟨u, s, htext, hu⟩ := stringify_head (hvs v List.mem_cons_self)
        obtain ⟨rest, hrest⟩ := joinComma_cons (stringify v) (vs.map stringify) (unit ']' :: r)
        rw [List.map_cons, hrest, htext]
        apply expect_ne (isSpaceUnit_of_tagOf hu)
        rintro rfl
        have htag : tagOf (unit ']') = 6 := by decide
        rw [htag] at hu
        cases v <;> simp [Json.tag] at hu
      exact ⟨n + 1, by simp only [parseValue, expect_self hopen, hnot, hn, Option.map_some]⟩
  | object es ih =>
    have hes := plain_of_mem_object hv
    obtain ⟨howned, hvalues⟩ := ordered_object.mp hordered
    intro r _
    simp only [stringify_object, List.cons_append, List.append_assoc, List.nil_append]
    have hnone : ∀ t, expect (unit '[') (unit '{' :: t) = none := fun t => expect_ne hopen' (by decide)
    cases es with
    | nil =>
      refine ⟨1, ?_⟩
      simp only [List.map_nil, joinComma, List.nil_append, parseValue, hnone, expect_self hopen',
        expect_self hbrace]
    | cons e es =>
      obtain ⟨n, hn⟩ := parseEntries_join (r := r) (List.cons_ne_nil e es) fun x hx =>
        ih x hx (hes x hx) (hvalues x hx)
      have hnot : expect (unit '}') (joinComma ((e :: es).map fun e =>
          quote e.1 ++ unit ':' :: stringify e.2) ++ unit '}' :: r) = none := by
        obtain ⟨rest, hrest⟩ := joinComma_cons (quote e.1 ++ unit ':' :: stringify e.2)
          (es.map fun e => quote e.1 ++ unit ':' :: stringify e.2) (unit '}' :: r)
        rw [List.map_cons, hrest]
        exact expect_ne hquote (by decide)
      exact ⟨n + 1, by simp only [parseValue, hnone, expect_self hopen', hnot, hn, Option.map_some,
        createAll_eq howned]⟩

/-- **The round trip.** What `JSON.stringify` wrote of a value is read as that value, plainly.
Source: none: ECMAScript `JSON.parse`, `JSON.stringify`. Kind: P -/
theorem parse_stringify {v : Json} (h : v.ordered = true) : parse (stringify v) = some v.plain := by
  obtain ⟨n, hn⟩ := readBack (Json.plain_plain v) ((Json.ordered_plain v).trans h) [] (by simp [Ends])
  have hread := parseValue_of_steps hn
  simp only [List.append_nil, stringify_plain] at hread
  simp only [parse, hread, skipSpace, List.dropWhile_nil, if_true]

end reading

end TrainsAndTracks.Found
