import Mathlib.Data.List.Lex
import Mathlib.Data.List.Perm.Subperm
import TrainsAndTracks.Found.Number

/-!
# JSON values as JavaScript holds them

A JSON value as `JSON.parse` returns it: an object is the list of its own entries.

* `Json.everyObject` — a condition on the entries of every object, at any depth.
* `Json.same` — equal up to the order of keys.
* `assign` — `out[key] = value` on a plain object: array indices come first and in order, other keys as
  they were created, and `__proto__` is no own property but the setter of the prototype.

`same_object_iff` is what equality of objects comes to, and `assign_perm` what an assignment adds.
-/

namespace TrainsAndTracks.Found

/-- A JSON value. Source: none: infrastructure. Kind: D -/
inductive Json where
  | null
  | bool (b : Bool)
  | number (x : Number)
  | string (s : JsString)
  | array (items : List Json)
  | object (entries : List (JsString × Json))

namespace Json

/-- The keys of an object. Source: none: infrastructure. Kind: D -/
def keys (entries : List (JsString × Json)) : List JsString := entries.map Prod.fst

/-- Induction on a JSON value. Source: none: infrastructure. Kind: L -/
@[elab_as_elim]
theorem induction {P : Json → Prop} (null : P .null) (bool : ∀ b, P (.bool b))
    (number : ∀ x, P (.number x)) (string : ∀ s, P (.string s))
    (array : ∀ items, (∀ v ∈ items, P v) → P (.array items))
    (object : ∀ entries, (∀ e ∈ entries, P e.2) → P (.object entries)) (v : Json) : P v :=
  @Json.rec P (fun items => ∀ v ∈ items, P v) (fun entries => ∀ e ∈ entries, P e.2) (fun e => P e.2)
    null bool number string array object (List.forall_mem_nil _)
    (fun _ _ hhead htail => List.forall_mem_cons.mpr ⟨hhead, htail⟩) (List.forall_mem_nil _)
    (fun _ _ hhead htail => List.forall_mem_cons.mpr ⟨hhead, htail⟩) (fun _ _ hv => hv) v

/-! ## Conditions on every object -/

mutual

/-- `p` holds of the entries of every object in a value. Source: none: infrastructure. Kind: D -/
def everyObject (p : List (JsString × Json) → Bool) : Json → Bool
  | .array items => everyObjectItems p items
  | .object entries => p entries && everyObjectEntries p entries
  | _ => true
termination_by structural v => v

/-- `everyObject` on the items of an array. Source: none: infrastructure. Kind: D -/
def everyObjectItems (p : List (JsString × Json) → Bool) : List Json → Bool
  | [] => true
  | v :: vs => everyObject p v && everyObjectItems p vs
termination_by structural vs => vs

/-- `everyObject` on the entries of an object. Source: none: infrastructure. Kind: D -/
def everyObjectEntries (p : List (JsString × Json) → Bool) : List (JsString × Json) → Bool
  | [] => true
  | (_, v) :: es => everyObject p v && everyObjectEntries p es
termination_by structural es => es

end

/-- No object has a key twice: what `JSON.parse` returns. Source: none: ECMAScript `JSON.parse`. Kind: D -/
def distinct (v : Json) : Bool := everyObject (fun entries => decide (keys entries).Nodup) v

/-- What `JSON.parse` returns. Source: none: ECMAScript `JSON.parse`. Kind: D -/
abbrev Parsed := {v : Json // v.distinct = true}

/-- No object has the key `k`. Source: none: infrastructure. Kind: D -/
def without (k : JsString) (v : Json) : Bool := everyObject (fun entries => decide (k ∉ keys entries)) v

section every

variable {p : List (JsString × Json) → Bool}

/-- The condition on an array. Source: none: infrastructure. Kind: L -/
@[simp] theorem everyObject_array {items : List Json} :
    everyObject p (.array items) = true ↔ ∀ v ∈ items, everyObject p v = true := by
  have hitems : everyObjectItems p items = true ↔ ∀ v ∈ items, everyObject p v = true := by
    induction items with
    | nil => simp [everyObjectItems]
    | cons v vs ih => simp [everyObjectItems, ih]
  rw [everyObject, hitems]

/-- The condition on an object. Source: none: infrastructure. Kind: L -/
@[simp] theorem everyObject_object {entries : List (JsString × Json)} :
    everyObject p (.object entries) = true ↔
      p entries = true ∧ ∀ e ∈ entries, everyObject p e.2 = true := by
  have hentries : ∀ es : List (JsString × Json),
      everyObjectEntries p es = true ↔ ∀ e ∈ es, everyObject p e.2 = true := by
    intro es
    induction es with
    | nil => simp [everyObjectEntries]
    | cons e es ih => simp [everyObjectEntries, ih]
  rw [everyObject, Bool.and_eq_true, hentries]

/-- Distinct keys in an array. Source: none: infrastructure. Kind: L -/
theorem distinct_array {items : List Json} :
    distinct (.array items) = true ↔ ∀ v ∈ items, distinct v = true := everyObject_array

/-- Distinct keys in an object. Source: none: infrastructure. Kind: L -/
theorem distinct_object {entries : List (JsString × Json)} :
    distinct (.object entries) = true ↔ (keys entries).Nodup ∧ ∀ e ∈ entries, distinct e.2 = true := by
  simp [distinct]

/-- An array without a key. Source: none: infrastructure. Kind: L -/
theorem without_array {k : JsString} {items : List Json} :
    without k (.array items) = true ↔ ∀ v ∈ items, without k v = true := everyObject_array

/-- An object without a key. Source: none: infrastructure. Kind: L -/
theorem without_object {k : JsString} {entries : List (JsString × Json)} :
    without k (.object entries) = true ↔ k ∉ keys entries ∧ ∀ e ∈ entries, without k e.2 = true := by
  simp [without]

end every

/-! ## Equal up to the order of keys -/

/-- The value under a key. Source: none: infrastructure. Kind: D -/
def lookup (k : JsString) (entries : List (JsString × Json)) : Option Json :=
  (entries.find? fun e => e.1 == k).map Prod.snd

mutual

/-- Equal JSON values: arrays item by item, objects key by key in any order.
Source: none: infrastructure. Kind: D -/
def same : Json → Json → Bool
  | .null, .null => true
  | .bool a, .bool b => a == b
  | .number x, .number y => x.eq y
  | .string s, .string t => s == t
  | .array vs, .array ws => sameItems vs ws
  | .object es, .object fs => es.length == fs.length && sameEntries es fs
  | _, _ => false
termination_by structural v => v

/-- `same` on the items of two arrays. Source: none: infrastructure. Kind: D -/
def sameItems : List Json → List Json → Bool
  | [], [] => true
  | v :: vs, w :: ws => same v w && sameItems vs ws
  | _, _ => false
termination_by structural vs => vs

/-- Every entry of one object is in the other. Source: none: infrastructure. Kind: D -/
def sameEntries : List (JsString × Json) → List (JsString × Json) → Bool
  | [], _ => true
  | (k, v) :: es, fs =>
    (match lookup k fs with
      | some w => same v w
      | none => false) && sameEntries es fs
termination_by structural es => es

end

section same

/-- The value under a key, where keys are distinct. Source: none: infrastructure. Kind: L -/
theorem lookup_eq_some {entries : List (JsString × Json)} {k : JsString} {v : Json}
    (h : (keys entries).Nodup) : lookup k entries = some v ↔ (k, v) ∈ entries := by
  induction entries with
  | nil => simp [lookup]
  | cons e es ih =>
    obtain ⟨k', v'⟩ := e
    simp only [keys, List.map_cons, List.nodup_cons] at h
    by_cases hk : k' = k
    · subst hk
      have hnot : (k', v) ∉ es := fun hmem => h.1 (List.mem_map_of_mem (f := Prod.fst) hmem)
      simp [lookup, hnot, eq_comm]
    · have htail := ih h.2
      simp only [lookup] at htail
      simp [lookup, hk, htail, Ne.symm hk]

/-- A key has one value, where keys are distinct. Source: none: infrastructure. Kind: L -/
theorem eq_of_mem {entries : List (JsString × Json)} {k : JsString} {v w : Json}
    (h : (keys entries).Nodup) (hv : (k, v) ∈ entries) (hw : (k, w) ∈ entries) : v = w :=
  (Prod.mk.inj (List.inj_on_of_nodup_map h hv hw rfl)).2

/-- Equal arrays. Source: none: infrastructure. Kind: L -/
theorem same_array_iff {vs ws : List Json} :
    same (.array vs) (.array ws) = true ↔ List.Forall₂ (fun v w => same v w = true) vs ws := by
  rw [same]
  induction vs generalizing ws with
  | nil => cases ws <;> simp [sameItems]
  | cons v vs ih => cases ws <;> simp [sameItems, ih]

/-- **Equal objects**: as many entries, and each of one in the other. Source: none: infrastructure.
Kind: L -/
theorem same_object_iff {es fs : List (JsString × Json)} (hfs : (keys fs).Nodup) :
    same (.object es) (.object fs) = true ↔
      es.length = fs.length ∧ ∀ e ∈ es, ∃ w, (e.1, w) ∈ fs ∧ same e.2 w = true := by
  have hentries : ∀ es : List (JsString × Json), sameEntries es fs = true ↔
      ∀ e ∈ es, ∃ w, (e.1, w) ∈ fs ∧ same e.2 w = true := by
    intro es
    induction es with
    | nil => simp [sameEntries]
    | cons e es ih =>
      obtain ⟨k, v⟩ := e
      have hhead : (match lookup k fs with
          | some w => same v w
          | none => false) = true ↔ ∃ w, (k, w) ∈ fs ∧ same v w = true := by
        simp only [← lookup_eq_some hfs]
        cases lookup k fs <;> simp
      simp [sameEntries, ih, hhead]
  rw [same, Bool.and_eq_true, hentries, beq_iff_eq]

/-- Relating the items of two lists by more. Source: none: infrastructure. Kind: L -/
theorem forall₂_imp {α : Type*} {R S : α → α → Prop} {vs ws : List α} (h : List.Forall₂ R vs ws)
    (himp : ∀ v ∈ vs, ∀ w ∈ ws, R v w → S v w) : List.Forall₂ S vs ws := by
  induction h with
  | nil => exact .nil
  | cons hvw _ ih =>
    refine .cons (himp _ List.mem_cons_self _ List.mem_cons_self hvw) (ih ?_)
    exact fun v hv w hw => himp v (List.mem_cons_of_mem _ hv) w (List.mem_cons_of_mem _ hw)

/-- What equals an array. Source: none: infrastructure. Kind: L -/
theorem same_array {vs : List Json} {w : Json} (h : same (.array vs) w = true) :
    ∃ ws, w = .array ws ∧ List.Forall₂ (fun v w => same v w = true) vs ws := by
  cases w with
  | array ws => exact ⟨ws, rfl, same_array_iff.mp h⟩
  | _ => simp [same] at h

/-- What equals an object. Source: none: infrastructure. Kind: L -/
theorem same_object {es : List (JsString × Json)} {w : Json} (hw : distinct w = true)
    (h : same (.object es) w = true) : ∃ fs, w = .object fs ∧ es.length = fs.length ∧
      ∀ e ∈ es, ∃ w, (e.1, w) ∈ fs ∧ same e.2 w = true := by
  cases w with
  | object fs => exact ⟨fs, rfl, (same_object_iff (distinct_object.mp hw).1).mp h⟩
  | _ => simp [same] at h

end same

/-! ## Assigning the properties of a plain object -/

/-- A number as a property key. Source: none: ECMAScript array indices. Kind: D -/
def indexText (n : ℕ) : JsString := if n = 0 then [unit '0'] else decimalDigits n

/-- The array index a key is, if it is one. Source: none: ECMAScript array indices. Kind: D -/
def arrayIndex (k : JsString) : Option ℕ :=
  if k = indexText (readDigits k) ∧ readDigits k < 2 ^ 32 - 1 then some (readDigits k) else none

/-- The key whose assignment sets the prototype. Source: none: ECMAScript `Object.prototype.__proto__`.
Kind: D -/
def protoKey : JsString := ofString "__proto__"

/-- A key that is an array index below `n`. Source: none: infrastructure. Kind: D -/
def indexBelow (n : ℕ) (k : JsString) : Bool := (arrayIndex k).any fun i => decide (i < n)

/-- The own entries after `out[k] = v` on a plain object. Source: none: ECMAScript `OrdinarySet`,
`OrdinaryOwnPropertyKeys`. Kind: D -/
def assign (out : List (JsString × Json)) (k : JsString) (v : Json) : List (JsString × Json) :=
  if k = protoKey then out
  else if k ∈ keys out then out.map fun e => if e.1 = k then (k, v) else e
  else match arrayIndex k with
    | some n => out.takeWhile (fun e => indexBelow n e.1) ++ (k, v) :: out.dropWhile fun e => indexBelow n e.1
    | none => out ++ [(k, v)]

/-- `for (const [k, v] of entries) out[k] = v` on a new object. Source: none: infrastructure. Kind: D -/
def assignAll (entries : List (JsString × Json)) : List (JsString × Json) :=
  entries.foldl (fun out e => assign out e.1 e.2) []

/-- The order of own properties that were created in ascending order: array indices, then the others.
Source: none: ECMAScript `OrdinaryOwnPropertyKeys`. Kind: D -/
def ownLe (a b : JsString) : Prop :=
  match arrayIndex a, arrayIndex b with
  | some m, some n => m ≤ n
  | some _, none => True
  | none, some _ => False
  | none, none => a ≤ b

section assign

variable {out es fs : List (JsString × Json)} {k : JsString} {v : Json}

/-- An array index is written in one way. Source: none: infrastructure. Kind: L -/
theorem arrayIndex_inj {a b : JsString} {n : ℕ} (ha : arrayIndex a = some n) (hb : arrayIndex b = some n) :
    a = b := by
  have htext : ∀ {c : JsString}, arrayIndex c = some n → c = indexText n := by
    intro c hc
    simp only [arrayIndex, Option.ite_none_right_eq_some, Option.some.injEq] at hc
    rw [← hc.2]
    exact hc.1.1
  rw [htext ha, htext hb]

/-- Two keys neither of which comes after the other are one. Source: none: infrastructure. Kind: L -/
theorem ownLe_antisymm {a b : JsString} (hab : ownLe a b) (hba : ownLe b a) : a = b := by
  unfold ownLe at hab hba
  cases ha : arrayIndex a <;> cases hb : arrayIndex b <;> simp only [ha, hb] at hab hba
  · exact le_antisymm hab hba
  · rw [le_antisymm hab hba] at ha
    exact arrayIndex_inj ha hb

/-- Behind a key that is no index below `n` there is none. Source: none: infrastructure. Kind: L -/
theorem indexBelow_of_ownLe {a b : JsString} {n : ℕ} (hab : ownLe a b) (ha : indexBelow n a = false) :
    indexBelow n b = false := by
  unfold ownLe at hab
  unfold indexBelow at ha ⊢
  cases hai : arrayIndex a <;> cases hbi : arrayIndex b <;> simp_all
  omega

/-- An index comes before what is no index below it. Source: none: infrastructure. Kind: L -/
theorem ownLe_of_indexBelow {a b : JsString} {n : ℕ} (ha : arrayIndex a = some n)
    (hb : indexBelow n b = false) : ownLe a b := by
  unfold ownLe
  unfold indexBelow at hb
  cases hbi : arrayIndex b <;> simp_all

/-- An index below `n` comes before `n`. Source: none: infrastructure. Kind: L -/
theorem ownLe_of_indexBelow_true {a b : JsString} {n : ℕ} (hb : arrayIndex b = some n)
    (ha : indexBelow n a = true) : ownLe a b := by
  unfold ownLe
  unfold indexBelow at ha
  cases hai : arrayIndex a <;> simp_all
  omega

/-- Assigning `__proto__` creates no property. Source: none: ECMAScript `Object.prototype.__proto__`.
Kind: L -/
@[simp] theorem assign_protoKey : assign out protoKey v = out := if_pos rfl

/-- **What an assignment adds**: one entry, for a key that is new. Source: none: infrastructure. Kind: L -/
theorem assign_perm (hk : k ≠ protoKey) (hnew : k ∉ keys out) :
    (assign out k v).Perm ((k, v) :: out) := by
  unfold assign
  rw [if_neg hk, if_neg hnew]
  split
  · rename_i n _
    have hsplit := List.takeWhile_append_dropWhile (p := fun e => indexBelow n e.1) (l := out)
    conv_rhs => rw [← hsplit]
    exact List.perm_middle
  · exact List.perm_append_singleton _ _

/-- **Where an assignment adds it**: own properties stay in their order, for a key above the others.
Source: none: ECMAScript `OrdinaryOwnPropertyKeys`. Kind: L -/
theorem assign_pairwise (hout : out.Pairwise fun a b => ownLe a.1 b.1) (habove : ∀ e ∈ out, e.1 < k) :
    (assign out k v).Pairwise fun a b => ownLe a.1 b.1 := by
  have hnew : k ∉ keys out := by
    intro hmem
    obtain ⟨e, he, hek⟩ := List.mem_map.mp hmem
    exact absurd (habove e he) (hek ▸ lt_irrefl e.1)
  unfold assign
  split
  · exact hout
  · split
    · rename_i n hn
      have hsplit := List.takeWhile_append_dropWhile (p := fun e => indexBelow n e.1) (l := out)
      rw [← hsplit, List.pairwise_append] at hout
      have hrest : ∀ e ∈ out.dropWhile (fun e => indexBelow n e.1), indexBelow n e.1 = false := by
        intro e he
        cases hdrop : out.dropWhile (fun e => indexBelow n e.1) with
        | nil => simp [hdrop] at he
        | cons f rest =>
          have hf := List.head_dropWhile_not (fun e : JsString × Json => indexBelow n e.1) (l := out)
            (by simp [hdrop])
          simp only [hdrop, List.head_cons] at hf
          rw [hdrop] at he hout
          rcases List.mem_cons.mp he with rfl | he
          · exact hf
          · exact indexBelow_of_ownLe (List.rel_of_pairwise_cons hout.2.1 he) hf
      rw [List.pairwise_append, List.pairwise_cons]
      refine ⟨hout.1, ⟨fun e he => ownLe_of_indexBelow hn (hrest e he), hout.2.1⟩, ?_⟩
      intro a ha b hb
      rcases List.mem_cons.mp hb with rfl | hb
      · have hall := List.all_takeWhile (p := fun e => indexBelow n e.1) (l := out)
        exact ownLe_of_indexBelow_true hn (List.all_eq_true.mp hall a ha)
      · exact hout.2.2 a ha b hb
    · rename_i hnone
      rw [List.pairwise_append]
      refine ⟨hout, List.pairwise_singleton _ _, ?_⟩
      intro a ha b hb
      rw [List.mem_singleton.mp hb]
      unfold ownLe
      have hle : a.1 ≤ k := (habove a ha).le
      cases hindex : arrayIndex a.1 <;> simp only [hnone, hle]

/-- The assignments of a loop, from any object on. Source: none: infrastructure. Kind: L -/
theorem foldl_assign_perm (out : List (JsString × Json)) (hes : (keys es).Nodup)
    (hnew : ∀ e ∈ es, e.1 ∉ keys out) :
    (es.foldl (fun out e => assign out e.1 e.2) out).Perm
      (out ++ es.filter fun e => decide (e.1 ≠ protoKey)) := by
  induction es generalizing out with
  | nil => simp
  | cons e es ih =>
    simp only [keys, List.map_cons, List.nodup_cons] at hes
    by_cases hk : e.1 = protoKey
    · have htail := ih out hes.2 fun f hf => hnew f (List.mem_cons_of_mem e hf)
      simpa [hk] using htail
    · have hperm : (assign out e.1 e.2).Perm (e :: out) :=
        assign_perm hk (hnew e List.mem_cons_self)
      have htail := ih (assign out e.1 e.2) hes.2 fun f hf => by
        have hne : f.1 ≠ e.1 := fun hfe => hes.1 (hfe ▸ List.mem_map_of_mem hf)
        have hfout := hnew f (List.mem_cons_of_mem e hf)
        simp only [keys, (hperm.map Prod.fst).mem_iff, List.map_cons, List.mem_cons, not_or]
        exact ⟨hne, hfout⟩
      simp only [List.foldl_cons]
      refine htail.trans ?_
      have hfilter : (e :: es).filter (fun e => decide (e.1 ≠ protoKey)) =
          e :: es.filter fun e => decide (e.1 ≠ protoKey) := by simp [hk]
      rw [hfilter]
      exact (hperm.append_right _).trans List.perm_middle.symm

/-- **What the loop builds**: every entry but that of `__proto__`. Source: none: infrastructure.
Kind: L -/
theorem assignAll_perm (hes : (keys es).Nodup) :
    (assignAll es).Perm (es.filter fun e => decide (e.1 ≠ protoKey)) := by
  simpa [assignAll] using foldl_assign_perm [] hes (by simp [keys])

/-- **In which order**, when it runs through ascending keys. Source: none: infrastructure. Kind: L -/
theorem assignAll_pairwise (hes : es.Pairwise fun a b => a.1 < b.1) :
    (assignAll es).Pairwise fun a b => ownLe a.1 b.1 := by
  have hloop : ∀ (es out : List (JsString × Json)), es.Pairwise (fun a b => a.1 < b.1) →
      (out.Pairwise fun a b => ownLe a.1 b.1) → (∀ a ∈ out, ∀ b ∈ es, a.1 < b.1) →
      (es.foldl (fun out e => assign out e.1 e.2) out).Pairwise fun a b => ownLe a.1 b.1 := by
    intro es
    induction es with
    | nil => exact fun _ _ hout _ => hout
    | cons e es ih =>
      intro out hes hout habove
      rw [List.pairwise_cons] at hes
      refine ih _ hes.2 (assign_pairwise hout fun a ha => habove a ha e List.mem_cons_self) ?_
      intro a ha b hb
      by_cases hk : e.1 = protoKey
      · simp only [hk, assign_protoKey] at ha
        exact habove a ha b (List.mem_cons_of_mem e hb)
      · have hnew : e.1 ∉ keys out := by
          intro hmem
          obtain ⟨c, hc, hce⟩ := List.mem_map.mp hmem
          exact absurd (habove c hc e List.mem_cons_self) (hce ▸ lt_irrefl c.1)
        rcases List.mem_cons.mp ((assign_perm hk hnew).mem_iff.mp ha) with rfl | ha
        · exact hes.1 b hb
        · exact habove a ha b (List.mem_cons_of_mem e hb)
  exact hloop es [] hes List.Pairwise.nil (by simp)

/-- Entries with distinct keys, in the same order of keys, are the same list. Source: none: infrastructure.
Kind: L -/
theorem eq_of_perm_of_pairwise {r : JsString → JsString → Prop} (hr : ∀ a b, r a b → r b a → a = b)
    (hes : (keys es).Nodup) (hperm : es.Perm fs) (hl : es.Pairwise fun a b => r a.1 b.1)
    (hr' : fs.Pairwise fun a b => r a.1 b.1) : es = fs := by
  refine hperm.eq_of_pairwise (fun a b ha hb hab hba => ?_) hl hr'
  exact List.inj_on_of_nodup_map hes ha (hperm.mem_iff.mpr hb) (hr _ _ hab hba)

end assign

end Json

end TrainsAndTracks.Found
