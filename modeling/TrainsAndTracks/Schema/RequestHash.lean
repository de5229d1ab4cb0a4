import Mathlib.Data.List.Sort
import TrainsAndTracks.Found.JsonText
import TrainsAndTracks.Schema.Ingress

/-!
# The request hash

`lib/idempotency/request-hash.ts`: the canonical JSON of a value and its hash. The entries of an object are
sorted by key and assigned to a new object one by one; an entry whose key is `__proto__` sets the prototype
of that object instead of a property, and is lost.

* `canonicalize`, `canonicalJson`, `computeRequestHash` — the code.
* `IdentifiesBodies` — what canonical JSON is for, on two bodies.

`canonicalize_eq_iff` says which values are canonicalized alike, and `identifiesBodies_iff` on which bodies
the code does what it is for.
-/

namespace TrainsAndTracks

open Found Found.Json

/-! ## The code -/

/-- `a < b ? -1 : a > b ? 1 : 0` on the keys of two entries. Source: `lib/idempotency/request-hash.ts`
`canonicalize`. Kind: D -/
def byKey (a b : JsString × Json) : Prop := a.1 ≤ b.1

instance : DecidableRel byKey := fun a b => inferInstanceAs (Decidable (a.1 ≤ b.1))

mutual

/-- `canonicalize`. A parsed body holds no `undefined`, so the filter drops nothing; the sort looks at keys
only, so that it does not matter that the values are canonicalized first.
Source: `lib/idempotency/request-hash.ts` `canonicalize`. Kind: D. Fidelity: exact -/
def canonicalize : Json → Json
  | .array items => .array (canonicalizeItems items)
  | .object entries => .object (assignAll ((canonicalizeEntries entries).insertionSort byKey))
  | v => v
termination_by structural v => v

/-- `value.map(canonicalize)`. Source: `lib/idempotency/request-hash.ts` `canonicalize`. Kind: D -/
def canonicalizeItems : List Json → List Json
  | [] => []
  | v :: vs => canonicalize v :: canonicalizeItems vs
termination_by structural vs => vs

/-- The values of an object's entries. Source: `lib/idempotency/request-hash.ts` `canonicalize`. Kind: D -/
def canonicalizeEntries : List (JsString × Json) → List (JsString × Json)
  | [] => []
  | (k, v) :: es => (k, canonicalize v) :: canonicalizeEntries es
termination_by structural es => es

end

/-- `canonicalJson`. Source: `lib/idempotency/request-hash.ts` `canonicalJson`. Kind: D. Fidelity: exact -/
def canonicalJson (value : Json) : JsString := stringify (canonicalize value)

/-- `computeRequestHash`, for the hash function `sha256` of bytes. Source: `lib/idempotency/request-hash.ts`
`computeRequestHash`. Kind: D. Fidelity: exact -/
def computeRequestHash (sha256 : ByteArray → String) (value : Json) : String :=
  sha256 (utf8 (canonicalJson value))

/-! ## What an object is canonicalized to -/

section entries

variable {es fs : List (JsString × Json)}

/-- A canonicalized array. Source: none: infrastructure. Kind: L -/
@[simp] theorem canonicalize_array (items : List Json) :
    canonicalize (.array items) = .array (items.map canonicalize) := by
  have hitems : canonicalizeItems items = items.map canonicalize := by
    induction items with
    | nil => rfl
    | cons v vs ih => simp [canonicalizeItems, ih]
  rw [canonicalize, hitems]

/-- The own entries of a canonicalized object. Source: `lib/idempotency/request-hash.ts` `canonicalize`.
Kind: D -/
def canonicalEntries (entries : List (JsString × Json)) : List (JsString × Json) :=
  assignAll ((entries.map fun e => (e.1, canonicalize e.2)).insertionSort byKey)

/-- A canonicalized object. Source: none: infrastructure. Kind: L -/
@[simp] theorem canonicalize_object (entries : List (JsString × Json)) :
    canonicalize (.object entries) = .object (canonicalEntries entries) := by
  have hentries : canonicalizeEntries entries = entries.map fun e => (e.1, canonicalize e.2) := by
    induction entries with
    | nil => rfl
    | cons e es ih => simp [canonicalizeEntries, ih]
  rw [canonicalize, hentries, canonicalEntries]

instance : Std.Total byKey := ⟨fun a b => le_total a.1 b.1⟩

instance : IsTrans _ byKey := ⟨fun _ _ _ hab hbc => le_trans hab hbc⟩

/-- Mapping the values leaves the keys. Source: none: infrastructure. Kind: L -/
@[simp] theorem keys_map (f : Json → Json) : keys (es.map fun e => (e.1, f e.2)) = keys es := by
  simp [keys]

/-- Sorted entries with distinct keys ascend. Source: none: infrastructure. Kind: L -/
theorem pairwise_sort (h : (keys es).Nodup) :
    (es.insertionSort byKey).Pairwise fun a b => a.1 < b.1 := by
  have hnodup : (keys (es.insertionSort byKey)).Nodup :=
    (((List.perm_insertionSort byKey es).map Prod.fst).nodup_iff).mpr h
  have hne : (es.insertionSort byKey).Pairwise fun a b => a.1 ≠ b.1 := List.pairwise_map.mp hnodup
  exact (List.pairwise_insertionSort byKey es).imp₂ (fun a b hab hne => lt_of_le_of_ne hab hne) hne

/-- **What a canonicalized object holds**: every entry, its value canonicalized, but that of `__proto__`.
Source: `lib/idempotency/request-hash.ts` `canonicalize`. Kind: L -/
theorem canonicalEntries_perm (h : (keys es).Nodup) : (canonicalEntries es).Perm
    ((es.map fun e => (e.1, canonicalize e.2)).filter fun e => decide (e.1 ≠ protoKey)) := by
  have hsort := List.perm_insertionSort byKey (es.map fun e => (e.1, canonicalize e.2))
  have hnodup : (keys ((es.map fun e => (e.1, canonicalize e.2)).insertionSort byKey)).Nodup :=
    ((hsort.map Prod.fst).nodup_iff).mpr (by rwa [← keys, keys_map])
  exact (assignAll_perm hnodup).trans (hsort.filter _)

/-- **In which order it holds them.** Source: `lib/idempotency/request-hash.ts` `canonicalize`. Kind: L -/
theorem canonicalEntries_pairwise (h : (keys es).Nodup) :
    (canonicalEntries es).Pairwise fun a b => ownLe a.1 b.1 :=
  assignAll_pairwise (pairwise_sort (by simpa using h))

/-- The keys of a canonicalized object are distinct. Source: none: infrastructure. Kind: L -/
theorem nodup_canonicalEntries (h : (keys es).Nodup) : (keys (canonicalEntries es)).Nodup := by
  rw [keys, ((canonicalEntries_perm h).map Prod.fst).nodup_iff]
  have hmap : (keys (es.map fun e => (e.1, canonicalize e.2))).Nodup := by simpa using h
  exact hmap.sublist (List.filter_sublist.map Prod.fst)

/-- An entry of a canonicalized object. Source: none: infrastructure. Kind: L -/
theorem mem_canonicalEntries (h : (keys es).Nodup) {k : JsString} {v : Json} :
    (k, v) ∈ canonicalEntries es ↔ k ≠ protoKey ∧ ∃ w, (k, w) ∈ es ∧ canonicalize w = v := by
  rw [(canonicalEntries_perm h).mem_iff, List.mem_filter, List.mem_map]
  constructor
  · rintro ⟨⟨e, he, hev⟩, hk⟩
    obtain ⟨rfl, rfl⟩ := Prod.mk.inj hev
    exact ⟨of_decide_eq_true hk, e.2, he, rfl⟩
  · rintro ⟨hk, w, hw, rfl⟩
    exact ⟨⟨(k, w), hw, rfl⟩, decide_eq_true hk⟩

/-- Without `__proto__` a canonicalized object has every entry. Source: none: infrastructure. Kind: L -/
theorem canonicalEntries_perm_map (h : (keys es).Nodup) (hk : protoKey ∉ keys es) :
    (canonicalEntries es).Perm (es.map fun e => (e.1, canonicalize e.2)) := by
  have hall : ∀ e ∈ es.map fun e => (e.1, canonicalize e.2), decide (e.1 ≠ protoKey) = true := by
    intro e he
    obtain ⟨f, hf, rfl⟩ := List.mem_map.mp he
    exact decide_eq_true fun hfk => hk (List.mem_map.mpr ⟨f, hf, hfk⟩)
  have hperm := canonicalEntries_perm h
  rwa [List.filter_eq_self.mpr hall] at hperm

/-- **There is one way to hold them.** Source: none: infrastructure. Kind: L -/
theorem eq_canonicalEntries (h : (keys es).Nodup)
    (hperm : fs.Perm ((es.map fun e => (e.1, canonicalize e.2)).filter fun e => decide (e.1 ≠ protoKey)))
    (hord : fs.Pairwise fun a b => ownLe a.1 b.1) : fs = canonicalEntries es :=
  (eq_of_perm_of_pairwise (fun _ _ => ownLe_antisymm) (nodup_canonicalEntries h)
    ((canonicalEntries_perm h).trans hperm.symm) (canonicalEntries_pairwise h) hord).symm

end entries

/-! ## Which values are canonicalized alike -/

section canonical

/-- The text tells of a canonicalized value what it tells of the value. Source: none: infrastructure.
Kind: L -/
theorem canonicalize_plain {v : Json} (hv : distinct v = true) :
    canonicalize v.plain = (canonicalize v).plain := by
  induction v using Json.induction with
  | null => rfl
  | bool b => rfl
  | string s => rfl
  | number x => cases x <;> rfl
  | array items ih =>
    rw [distinct_array] at hv
    simp only [plain_array, canonicalize_array, List.map_map, Json.array.injEq]
    exact List.map_congr_left fun v hmem => ih v hmem (hv v hmem)
  | object es ih =>
    rw [distinct_object] at hv
    have hvalues : (es.map fun e => (e.1, e.2.plain)).map (fun e => (e.1, canonicalize e.2)) =
        (es.map fun e => (e.1, canonicalize e.2)).map fun e => (e.1, e.2.plain) := by
      rw [List.map_map, List.map_map]
      exact List.map_congr_left fun e he => by simp [ih e he (hv.2 e he)]
    simp only [plain_object, canonicalize_object, Json.object.injEq]
    symm
    apply eq_canonicalEntries (by rw [keys_map]; exact hv.1)
    · rw [hvalues, List.filter_map]
      exact (canonicalEntries_perm hv.1).map _
    · exact List.pairwise_map.mpr (canonicalEntries_pairwise hv.1)

/-- **Canonicalizing twice is canonicalizing once.** Source: `lib/idempotency/request-hash.ts`
`canonicalize`. Kind: L -/
theorem canonicalize_idem {v : Json} (hv : distinct v = true) :
    canonicalize (canonicalize v) = canonicalize v := by
  induction v using Json.induction with
  | null => rfl
  | bool b => rfl
  | string s => rfl
  | number x => rfl
  | array items ih =>
    rw [distinct_array] at hv
    simp only [canonicalize_array, List.map_map, Json.array.injEq]
    exact List.map_congr_left fun v hmem => ih v hmem (hv v hmem)
  | object es ih =>
    rw [distinct_object] at hv
    simp only [canonicalize_object, Json.object.injEq]
    symm
    apply eq_canonicalEntries (nodup_canonicalEntries hv.1)
    · -- every value is canonical, and no key is `__proto__`
      have hvalues : (canonicalEntries es).map (fun e => (e.1, canonicalize e.2)) = canonicalEntries es := by
        conv_rhs => rw [← List.map_id (canonicalEntries es)]
        apply List.map_congr_left
        rintro ⟨k, v⟩ he
        obtain ⟨-, w, hw, rfl⟩ := (mem_canonicalEntries hv.1).mp he
        simp [ih (k, w) hw (hv.2 (k, w) hw)]
      have hkeys : ∀ e ∈ canonicalEntries es, decide (e.1 ≠ protoKey) = true := fun e he =>
        decide_eq_true ((mem_canonicalEntries hv.1).mp he).1
      rw [hvalues, List.filter_eq_self.mpr hkeys]
    · exact canonicalEntries_pairwise hv.1

/-- Objects equal up to order are canonicalized to the same entries. Source:
`lib/idempotency/request-hash.ts` `canonicalize`. Kind: L -/
theorem canonicalEntries_eq {es fs : List (JsString × Json)} (hes : (keys es).Nodup)
    (hfs : (keys fs).Nodup) (hlen : es.length = fs.length)
    (hsub : ∀ e ∈ es, ∃ w, (e.1, w) ∈ fs ∧ canonicalize e.2 = canonicalize w) :
    canonicalEntries es = canonicalEntries fs := by
  have hnodup : (es.map fun e => (e.1, canonicalize e.2)).Nodup := by
    apply List.Nodup.of_map Prod.fst
    rwa [← keys, keys_map]
  have hsubset : (es.map fun e => (e.1, canonicalize e.2)) ⊆ fs.map fun e => (e.1, canonicalize e.2) := by
    intro x hx
    obtain ⟨e, he, rfl⟩ := List.mem_map.mp hx
    obtain ⟨w, hw, heq⟩ := hsub e he
    exact List.mem_map.mpr ⟨(e.1, w), hw, by rw [heq]⟩
  have hperm := (List.subperm_of_subset hnodup hsubset).perm_of_length_le (by simp [hlen])
  apply eq_canonicalEntries hfs
  · exact (canonicalEntries_perm hes).trans (hperm.filter _)
  · exact canonicalEntries_pairwise hes

/-- Objects canonicalized to the same entries have the same keys, and values canonicalized alike.
Source: `lib/idempotency/request-hash.ts` `canonicalize`. Kind: L -/
theorem of_canonicalEntries_eq {es fs : List (JsString × Json)} (hes : (keys es).Nodup)
    (hfs : (keys fs).Nodup) (hep : protoKey ∉ keys es) (hfp : protoKey ∉ keys fs)
    (h : canonicalEntries es = canonicalEntries fs) : es.length = fs.length ∧
      ∀ e ∈ es, ∃ w, (e.1, w) ∈ fs ∧ canonicalize e.2 = canonicalize w := by
  constructor
  · have hlen := (canonicalEntries_perm_map hes hep).length_eq
    rw [h, (canonicalEntries_perm_map hfs hfp).length_eq] at hlen
    simpa using hlen.symm
  · intro e he
    have hmem : (e.1, canonicalize e.2) ∈ canonicalEntries es :=
      (canonicalEntries_perm_map hes hep).mem_iff.mpr (List.mem_map_of_mem he)
    rw [h, mem_canonicalEntries hfs] at hmem
    obtain ⟨-, w, hw, heq⟩ := hmem
    exact ⟨w, hw, heq.symm⟩

/-- **Which values are canonicalized alike**: without `__proto__`, those that are equal up to the order of
keys. Source: `lib/idempotency/request-hash.ts` `canonicalize`. Kind: P -/
theorem canonicalize_eq_iff {v w : Json} (hv : distinct v = true) (hw : distinct w = true)
    (hvp : without protoKey v = true) (hwp : without protoKey w = true)
    (hpv : v.plain = v) (hpw : w.plain = w) : canonicalize v = canonicalize w ↔ same v w = true := by
  induction v using Json.induction generalizing w with
  | null => cases w <;> simp [canonicalize, same]
  | bool b => cases w <;> simp [canonicalize, same]
  | string s => cases w <;> simp [canonicalize, same]
  | number x =>
    cases w with
    | number y => simp [canonicalize, same, Number.eq_iff_of_plain hpv hpw]
    | _ => simp [canonicalize, same]
  | array vs ih =>
    cases w with
    | array ws =>
      rw [distinct_array] at hv hw
      rw [without_array] at hvp hwp
      have hiff : ∀ v ∈ vs, ∀ w ∈ ws, canonicalize v = canonicalize w ↔ same v w = true :=
        fun v hmv w hmw => ih v hmv (hv v hmv) (hw w hmw) (hvp v hmv) (hwp w hmw)
          (plain_of_mem_array hpv v hmv) (plain_of_mem_array hpw w hmw)
      rw [canonicalize_array, canonicalize_array, Json.array.injEq, same_array_iff, ← List.forall₂_eq_eq_eq,
        List.forall₂_map_left_iff, List.forall₂_map_right_iff]
      exact ⟨fun h => forall₂_imp h fun v hmv w hmw => (hiff v hmv w hmw).mp,
        fun h => forall₂_imp h fun v hmv w hmw => (hiff v hmv w hmw).mpr⟩
    | _ => simp [canonicalize, same]
  | object es ih =>
    cases w with
    | object fs =>
      rw [distinct_object] at hv hw
      rw [without_object] at hvp hwp
      have hiff : ∀ e ∈ es, ∀ w, (e.1, w) ∈ fs → (canonicalize e.2 = canonicalize w ↔ same e.2 w = true) :=
        fun e he w hw' => ih e he (hv.2 e he) (hw.2 _ hw') (hvp.2 e he) (hwp.2 _ hw')
          (plain_of_mem_object hpv e he) (plain_of_mem_object hpw _ hw')
      rw [canonicalize_object, canonicalize_object, Json.object.injEq, same_object_iff hw.1]
      constructor
      · intro h
        obtain ⟨hlen, hall⟩ := of_canonicalEntries_eq hv.1 hw.1 hvp.1 hwp.1 h
        refine ⟨hlen, fun e he => ?_⟩
        obtain ⟨w, hw', heq⟩ := hall e he
        exact ⟨w, hw', (hiff e he w hw').mp heq⟩
      · rintro ⟨hlen, hall⟩
        refine canonicalEntries_eq hv.1 hw.1 hlen fun e he => ?_
        obtain ⟨w, hw', hsame⟩ := hall e he
        exact ⟨w, hw', (hiff e he w hw').mpr hsame⟩
    | _ => simp [canonicalize, same]

/-- **No key is lost** but `__proto__`. Source: `lib/idempotency/request-hash.ts` `canonicalize`. Kind: L -/
theorem same_canonicalize_iff {v : Json} (hv : distinct v = true) :
    same (canonicalize v) v = true ↔ without protoKey v = true := by
  induction v using Json.induction with
  | null => simp [canonicalize, same, without, everyObject]
  | bool b => simp [canonicalize, same, without, everyObject]
  | string s => simp [canonicalize, same, without, everyObject]
  | number x => simp [canonicalize, same, without, everyObject]
  | array vs ih =>
    rw [distinct_array] at hv
    rw [canonicalize_array, same_array_iff, without_array, List.forall₂_map_left_iff, List.forall₂_same]
    exact forall₂_congr fun v hmem => ih v hmem (hv v hmem)
  | object es ih =>
    rw [distinct_object] at hv
    rw [canonicalize_object, same_object_iff hv.1, without_object]
    constructor
    · rintro ⟨hlen, hall⟩
      have hkey : protoKey ∉ keys es := by
        have hmap : es.length = (es.map fun e => (e.1, canonicalize e.2)).length := by
          rw [List.length_map]
        rw [(canonicalEntries_perm hv.1).length_eq, hmap, List.length_filter_eq_length_iff] at hlen
        intro hmem
        obtain ⟨e, he, hek⟩ := List.mem_map.mp hmem
        exact absurd hek (of_decide_eq_true (hlen (e.1, canonicalize e.2) (List.mem_map_of_mem he)))
      refine ⟨hkey, fun e he => (ih e he (hv.2 e he)).mp ?_⟩
      have hmem : (e.1, canonicalize e.2) ∈ canonicalEntries es :=
        (canonicalEntries_perm_map hv.1 hkey).mem_iff.mpr (List.mem_map_of_mem he)
      obtain ⟨w, hw, hsame⟩ := hall _ hmem
      rwa [eq_of_mem hv.1 hw he] at hsame
    · rintro ⟨hkey, hall⟩
      constructor
      · rw [(canonicalEntries_perm_map hv.1 hkey).length_eq, List.length_map]
      · rintro ⟨k, v⟩ he
        obtain ⟨-, w, hw, rfl⟩ := (mem_canonicalEntries hv.1).mp he
        exact ⟨w, hw, (ih _ hw (hv.2 _ hw)).mpr (hall _ hw)⟩

/-- **Which values have one canonical text**: without `__proto__`, those that are plainly equal up to the
order of keys. Source: `lib/idempotency/request-hash.ts` `canonicalJson`. Kind: P -/
theorem canonicalJson_eq_iff {v w : Json} (hv : distinct v = true) (hw : distinct w = true)
    (hvp : without protoKey v = true) (hwp : without protoKey w = true) :
    canonicalJson v = canonicalJson w ↔ same v.plain w.plain = true := by
  rw [canonicalJson, canonicalJson, stringify_inj, ← canonicalize_plain hv, ← canonicalize_plain hw]
  exact canonicalize_eq_iff (by simpa using hv) (by simpa using hw) (by simpa using hvp)
    (by simpa using hwp) (plain_plain v) (plain_plain w)

end canonical

/-! ## What canonical JSON is for -/

/-- What the request hash is for, on two bodies: they have one canonical text exactly when they are equal up
to the order of keys, none loses a key or an item in canonicalization, canonicalizing twice changes nothing,
and short of a collision their hashes tell them apart.
Source: `lib/idempotency/request-hash.ts`. Kind: D -/
structure IdentifiesBodies (v w : Parsed) : Prop where
  tells : canonicalJson v.val = canonicalJson w.val ↔ same v.val w.val = true
  keeps_left : same (canonicalize v.val) v.val = true
  keeps_right : same (canonicalize w.val) w.val = true
  idem_left : canonicalize (canonicalize v.val) = canonicalize v.val
  idem_right : canonicalize (canonicalize w.val) = canonicalize w.val
  hashes : ∀ sha256 : ByteArray → String,
    (sha256 (utf8 (canonicalJson v.val)) = sha256 (utf8 (canonicalJson w.val)) →
      utf8 (canonicalJson v.val) = utf8 (canonicalJson w.val)) →
    (computeRequestHash sha256 v.val = computeRequestHash sha256 w.val ↔ same v.val w.val = true)

section identifies

/-- Short of a collision, one hash is one canonical text. Source: `lib/idempotency/request-hash.ts`
`computeRequestHash`. Kind: L -/
theorem computeRequestHash_eq_iff {sha256 : ByteArray → String} {v w : Json}
    (hsha : sha256 (utf8 (canonicalJson v)) = sha256 (utf8 (canonicalJson w)) →
      utf8 (canonicalJson v) = utf8 (canonicalJson w)) :
    computeRequestHash sha256 v = computeRequestHash sha256 w ↔ canonicalJson v = canonicalJson w := by
  have hinj := utf8_inj (wellFormed_stringify (canonicalize v)) (wellFormed_stringify (canonicalize w))
  exact ⟨fun h => hinj.mp (hsha h), fun h => by rw [computeRequestHash, computeRequestHash, h]⟩

/-- **Canonical JSON identifies exactly the equal bodies** when, and only when, neither has a key
`__proto__` and they do not differ just in what the text of a number leaves out.
Source: `lib/idempotency/request-hash.ts`. Kind: P -/
theorem identifiesBodies_iff (v w : Parsed) : IdentifiesBodies v w ↔
    without protoKey v.val = true ∧ without protoKey w.val = true ∧
      (same v.val.plain w.val.plain = true → same v.val w.val = true) := by
  obtain ⟨v, hv⟩ := v
  obtain ⟨w, hw⟩ := w
  constructor
  · intro h
    have hvp := (same_canonicalize_iff hv).mp h.keeps_left
    have hwp := (same_canonicalize_iff hw).mp h.keeps_right
    exact ⟨hvp, hwp, fun hsame => h.tells.mp ((canonicalJson_eq_iff hv hw hvp hwp).mpr hsame)⟩
  · rintro ⟨hvp, hwp, hplain⟩
    have htells : canonicalJson v = canonicalJson w ↔ same v w = true :=
      (canonicalJson_eq_iff hv hw hvp hwp).trans ⟨hplain, same_plain hw⟩
    exact {
      tells := htells
      keeps_left := (same_canonicalize_iff hv).mpr hvp
      keeps_right := (same_canonicalize_iff hw).mpr hwp
      idem_left := canonicalize_idem hv
      idem_right := canonicalize_idem hw
      hashes := fun _ hsha => (computeRequestHash_eq_iff hsha).trans htells }

example : canonicalJson (.object [(ofString "b", .null), (ofString "10", .null), (ofString "9", .null)]) =
    ofString "\x7b\"9\":null,\"10\":null,\"b\":null\x7d" := by decide

/-- The bodies `{"__proto__":true}` and `{}` have one canonical text. Source:
`lib/idempotency/request-hash.ts` `canonicalize`. Kind: L -/
theorem canonicalJson_proto : canonicalJson (.object [(protoKey, .bool true)]) = canonicalJson (.object []) ∧
    same (.object [(protoKey, .bool true)]) (.object []) = false ∧
      ¬ ∀ v w : Parsed, IdentifiesBodies v w := by
  have htext : canonicalJson (.object [(protoKey, .bool true)]) = canonicalJson (.object []) := by decide
  have hsame : same (.object [(protoKey, .bool true)]) (.object []) = false := by decide
  refine ⟨htext, hsame, fun hall => ?_⟩
  have htells := (hall ⟨.object [(protoKey, .bool true)], by decide⟩ ⟨.object [], by decide⟩).tells
  exact absurd (htells.mp htext) (by simp [hsame])

end identifies

/-! ## The bodies of the route -/

section route

open BookRequestSchema

/-- Parsed bodies are equal as JSON values when their fields are. Source: `lib/validation/book.ts`
`BookRequest`. Kind: L -/
theorem same_body_iff {a b : Output} : same a.body b.body = true ↔ a = b := by
  obtain ⟨hname, hphone, hphone'⟩ := bodyKeys_ne
  obtain ⟨t, n, p⟩ := a
  obtain ⟨t', n', p'⟩ := b
  cases p <;> cases p' <;>
    simp [Output.body, same, sameEntries, lookup, hname, hphone, hphone']

/-- A parsed body has its three keys once. Source: `lib/validation/book.ts` `BookRequest`. Kind: L -/
theorem distinct_body (a : Output) : distinct a.body = true := by
  obtain ⟨t, n, p⟩ := a
  have hthree : [ofString "trainId", ofString "passengerName", ofString "passengerPhone"].Nodup := by decide
  have htwo : [ofString "trainId", ofString "passengerName"].Nodup := by decide
  cases p <;> rw [Output.body, distinct_object] <;> refine ⟨by assumption, ?_⟩ <;>
    simp [distinct, everyObject]

/-- None of them is `__proto__`. Source: `lib/validation/book.ts` `BookRequest`. Kind: L -/
theorem without_body (a : Output) : without protoKey a.body = true := by
  obtain ⟨t, n, p⟩ := a
  have hthree : protoKey ∉ [ofString "trainId", ofString "passengerName", ofString "passengerPhone"] := by
    decide
  have htwo : protoKey ∉ [ofString "trainId", ofString "passengerName"] := by decide
  cases p <;> rw [Output.body, without_object] <;> refine ⟨by assumption, ?_⟩ <;>
    simp [without, everyObject]

/-- A parsed body holds strings only. Source: `lib/validation/book.ts` `BookRequest`. Kind: L -/
theorem plain_body (a : Output) : a.body.plain = a.body := by
  obtain ⟨t, n, p⟩ := a
  cases p <;> simp [Output.body, Json.plain]

/-- **The hash of step 5 tells parsed bodies apart**, short of a collision: of their fields nothing is lost.
Source: `app/api/book/route.ts` (step 5). Kind: P -/
theorem computeRequestHash_body_iff {sha256 : ByteArray → String} {a b : Output}
    (hsha : sha256 (utf8 (canonicalJson a.body)) = sha256 (utf8 (canonicalJson b.body)) →
      utf8 (canonicalJson a.body) = utf8 (canonicalJson b.body)) :
    computeRequestHash sha256 a.body = computeRequestHash sha256 b.body ↔ a = b := by
  rw [computeRequestHash_eq_iff hsha, canonicalJson_eq_iff (distinct_body a) (distinct_body b)
    (without_body a) (without_body b), plain_body, plain_body, same_body_iff]

end route

end TrainsAndTracks
