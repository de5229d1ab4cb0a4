import TrainsAndTracks.Found.Json

/-!
# The text of a JSON value

`JSON.stringify` without indentation, on values as `JSON.parse` returns them. An infinity is written as
`null` and both zeros as `0`: `Json.plain` is the value the text still tells.

* `quote`, `stringify` — the text.
* `readUnit` — one code unit read back from between quotes, which makes the quoted text self-delimiting.
* `stringify_append_inj` — the text of a plain value is self-delimiting in front of what may follow it.

`stringify_inj` concludes: two values have one text exactly when they are plainly the same.
-/

namespace TrainsAndTracks.Found

/-! ## Quoted strings -/

/-- The letter of a short escape. Source: none: ECMAScript `QuoteJSONString`. Kind: D -/
def shortEscape (u : CodeUnit) : Option CodeUnit :=
  if u = codeUnit 0x08 then some (unit 'b')
  else if u = codeUnit 0x09 then some (unit 't')
  else if u = codeUnit 0x0A then some (unit 'n')
  else if u = codeUnit 0x0C then some (unit 'f')
  else if u = codeUnit 0x0D then some (unit 'r')
  else if u = unit '"' then some (unit '"')
  else if u = unit '\\' then some (unit '\\')
  else none

/-- A lower-case hexadecimal digit. Source: none: infrastructure. Kind: D -/
def hexDigit (d : ℕ) : CodeUnit := if d < 10 then codeUnit (0x30 + d) else codeUnit (0x57 + d)

/-- The escape of a code unit by its number. Source: none: ECMAScript `UnicodeEscape`. Kind: D -/
def unicodeEscape (u : CodeUnit) : JsString :=
  [unit '\\', unit 'u', hexDigit (u.val / 0x1000), hexDigit (u.val / 0x100 % 0x10),
    hexDigit (u.val / 0x10 % 0x10), hexDigit (u.val % 0x10)]

/-- A code unit that stands alone, between quotes. Source: none: ECMAScript `QuoteJSONString`. Kind: D -/
def escape (u : CodeUnit) : JsString :=
  match shortEscape u with
  | some c => [unit '\\', c]
  | none => if decide (u.val < 0x20) || isSurrogate u then unicodeEscape u else [u]

/-- A string between its quotes. Source: none: ECMAScript `QuoteJSONString`. Kind: D -/
def quoteBody : JsString → JsString
  | [] => []
  | [u] => escape u
  | u :: v :: s =>
    if isHigh u && isLow v then u :: v :: quoteBody s else escape u ++ quoteBody (v :: s)

/-- A string in quotes. Source: none: ECMAScript `QuoteJSONString`. Kind: D -/
def quote (s : JsString) : JsString := unit '"' :: quoteBody s ++ [unit '"']

/-- The code unit of a short escape. Source: none: infrastructure. Kind: D -/
def shortUnescape (c : CodeUnit) : CodeUnit :=
  if c = unit 'b' then codeUnit 0x08
  else if c = unit 't' then codeUnit 0x09
  else if c = unit 'n' then codeUnit 0x0A
  else if c = unit 'f' then codeUnit 0x0C
  else if c = unit 'r' then codeUnit 0x0D
  else c

/-- The value of a hexadecimal digit. Source: none: infrastructure. Kind: D -/
def hexValue (u : CodeUnit) : ℕ := if u.val < 0x40 then u.val - 0x30 else u.val - 0x57

/-- The first code unit of what follows an opening quote, and the rest. Source: none: infrastructure.
Kind: D -/
def readUnit : JsString → Option (CodeUnit × JsString)
  | [] => none
  | u :: s =>
    if u = unit '"' then none
    else if u ≠ unit '\\' then some (u, s)
    else match s with
      | [] => none
      | c :: s =>
        if c ≠ unit 'u' then some (shortUnescape c, s)
        else match s with
          | a :: b :: c :: d :: s => some (codeUnit (hexValue a * 0x1000 + hexValue b * 0x100 +
              hexValue c * 0x10 + hexValue d), s)
          | _ => none

section quoting

/-- A hexadecimal digit is read back. Source: none: infrastructure. Kind: L -/
theorem hexValue_hexDigit {d : ℕ} (h : d < 0x10) : hexValue (hexDigit d) = d := by
  unfold hexValue hexDigit
  split
  · rw [val_codeUnit (by omega), if_pos (by omega)]
    omega
  · rw [val_codeUnit (by omega), if_neg (by omega)]
    omega

/-- A short escape is read back. Source: none: infrastructure. Kind: L -/
theorem shortUnescape_of_shortEscape {u c : CodeUnit} (h : shortEscape u = some c) :
    c ≠ unit 'u' ∧ shortUnescape c = u := by
  unfold shortEscape at h
  split_ifs at h with h1 h2 h3 h4 h5 h6 h7 <;>
    (rw [← Option.some.inj h]; first | rw [h1] | rw [h2] | rw [h3] | rw [h4] | rw [h5] | rw [h6] | rw [h7]) <;>
    decide

/-- A code unit without a short escape is neither a quote nor a backslash. Source: none: infrastructure.
Kind: L -/
theorem ne_of_shortEscape {u : CodeUnit} (h : shortEscape u = none) : u ≠ unit '"' ∧ u ≠ unit '\\' := by
  unfold shortEscape at h
  split_ifs at h with _ _ _ _ _ h6 h7
  exact ⟨h6, h7⟩

/-- Anything but a quote and a backslash is read as it stands. Source: none: infrastructure. Kind: L -/
theorem readUnit_cons {u : CodeUnit} (hq : u ≠ unit '"') (hb : u ≠ unit '\\') (s : JsString) :
    readUnit (u :: s) = some (u, s) := by
  simp [readUnit, hq, hb]

/-- The closing quote ends the string. Source: none: infrastructure. Kind: L -/
theorem readUnit_quote (s : JsString) : readUnit (unit '"' :: s) = none := by simp [readUnit]

/-- A surrogate is read as it stands. Source: none: infrastructure. Kind: L -/
theorem readUnit_surrogate {u : CodeUnit} (h : isSurrogate u = true) (s : JsString) :
    readUnit (u :: s) = some (u, s) := by
  apply readUnit_cons <;> rintro rfl <;> exact absurd h (by decide)

/-- **An escaped code unit is read back.** Source: none: infrastructure. Kind: L -/
theorem readUnit_escape (u : CodeUnit) (s : JsString) : readUnit (escape u ++ s) = some (u, s) := by
  have hbq : unit '\\' ≠ unit '"' := by decide
  unfold escape
  cases hshort : shortEscape u with
  | some c =>
    obtain ⟨hc, hread⟩ := shortUnescape_of_shortEscape hshort
    simp [readUnit, hbq, hc, hread]
  | none =>
    obtain ⟨hq, hb⟩ := ne_of_shortEscape hshort
    simp only
    split
    · have hu := u.isLt
      have hsum : u.val / 0x1000 * 0x1000 + u.val / 0x100 % 0x10 * 0x100 + u.val / 0x10 % 0x10 * 0x10 +
          u.val % 0x10 = u.val := by omega
      have hcode : codeUnit u.val = u := Fin.ext (val_codeUnit hu)
      simp [readUnit, unicodeEscape, hbq, hexValue_hexDigit (d := u.val / 0x1000) (by omega),
        hexValue_hexDigit (d := u.val / 0x100 % 0x10) (by omega),
        hexValue_hexDigit (d := u.val / 0x10 % 0x10) (by omega),
        hexValue_hexDigit (d := u.val % 0x10) (by omega), hsum, hcode]
    · exact readUnit_cons hq hb s

/-- `c` is a way to write the code unit `u` between quotes. Source: none: infrastructure. Kind: D -/
def Writes (c : JsString) (u : CodeUnit) : Prop := ∀ s, readUnit (c ++ s) = some (u, s)

/-- A string between quotes is written code unit by code unit. Source: none: infrastructure. Kind: L -/
theorem quoteBody_eq (s : JsString) : ∃ codes, List.Forall₂ Writes codes s ∧ codes.flatten = quoteBody s := by
  fun_induction quoteBody s with
  | case1 => exact ⟨[], .nil, rfl⟩
  | case2 u => exact ⟨[escape u], .cons (readUnit_escape u) .nil, by simp⟩
  | case3 u v s h ih =>
    obtain ⟨codes, hcodes, hflat⟩ := ih
    rw [Bool.and_eq_true] at h
    have hu : Writes [u] u := readUnit_surrogate (by simp [isSurrogate, h.1])
    have hv : Writes [v] v := readUnit_surrogate (by simp [isSurrogate, h.2])
    exact ⟨[u] :: [v] :: codes, .cons hu (.cons hv hcodes), by simp [hflat]⟩
  | case4 u v s h ih =>
    obtain ⟨codes, hcodes, hflat⟩ := ih
    exact ⟨escape u :: codes, .cons (readUnit_escape u) hcodes, by simp [hflat]⟩

/-- Code units in front of a closing quote are told. Source: none: infrastructure. Kind: L -/
theorem writes_inj {s t r r' : JsString} {codes codes' : List JsString} (hs : List.Forall₂ Writes codes s)
    (ht : List.Forall₂ Writes codes' t)
    (h : codes.flatten ++ unit '"' :: r = codes'.flatten ++ unit '"' :: r') : s = t ∧ r = r' := by
  induction hs generalizing codes' t with
  | nil =>
    cases ht with
    | nil => exact ⟨rfl, (List.cons_eq_cons.mp h).2⟩
    | cons hu ht =>
      have hread := congrArg readUnit h
      simp [readUnit_quote, hu _] at hread
  | cons hu hs ih =>
    have hread := congrArg readUnit h
    cases ht with
    | nil => simp [readUnit_quote, hu _] at hread
    | cons hv ht =>
      simp only [List.flatten_cons, List.append_assoc, hu _, hv _, Option.some.injEq, Prod.mk.injEq] at hread
      obtain ⟨hst, hr⟩ := ih ht hread.2
      exact ⟨by rw [hread.1, hst], hr⟩

/-- **A quoted string is self-delimiting.** Source: none: ECMAScript `QuoteJSONString`. Kind: L -/
theorem quote_append_inj {s t r r' : JsString} (h : quote s ++ r = quote t ++ r') : s = t ∧ r = r' := by
  obtain ⟨codes, hs, hflat⟩ := quoteBody_eq s
  obtain ⟨codes', ht, hflat'⟩ := quoteBody_eq t
  apply writes_inj hs ht
  rw [hflat, hflat']
  simpa [quote] using h

end quoting

/-! ## Values -/

/-- Texts with commas between them. Source: none: infrastructure. Kind: D -/
def joinComma : List JsString → JsString
  | [] => []
  | [t] => t
  | t :: u :: ts => t ++ unit ',' :: joinComma (u :: ts)

mutual

/-- `JSON.stringify`. Source: none: ECMAScript `JSON.stringify`. Kind: D -/
def stringify : Json → JsString
  | .null => ofString "null"
  | .bool b => if b then ofString "true" else ofString "false"
  | .number x => x.text
  | .string s => quote s
  | .array items => unit '[' :: joinComma (stringifyItems items) ++ [unit ']']
  | .object entries => unit '{' :: joinComma (stringifyEntries entries) ++ [unit '}']
termination_by structural v => v

/-- The texts of the items of an array. Source: none: ECMAScript `SerializeJSONArray`. Kind: D -/
def stringifyItems : List Json → List JsString
  | [] => []
  | v :: vs => stringify v :: stringifyItems vs
termination_by structural vs => vs

/-- The texts of the entries of an object. Source: none: ECMAScript `SerializeJSONObject`. Kind: D -/
def stringifyEntries : List (JsString × Json) → List JsString
  | [] => []
  | (k, v) :: es => (quote k ++ unit ':' :: stringify v) :: stringifyEntries es
termination_by structural es => es

end

/-- What a text says of a number. Source: none: ECMAScript `SerializeJSONProperty`. Kind: D -/
def Number.plain : Number → Json
  | .finite negative m => .number (.finite (negative && decide (m.units ≠ 0)) m)
  | .infinite _ => .null

mutual

/-- What the text of a value says of it: an infinity is no number, and zero has no sign.
Source: none: ECMAScript `SerializeJSONProperty`. Kind: D -/
def Json.plain : Json → Json
  | .number x => x.plain
  | .array items => .array (plainItems items)
  | .object entries => .object (plainEntries entries)
  | v => v
termination_by structural v => v

/-- `plain` on the items of an array. Source: none: infrastructure. Kind: D -/
def plainItems : List Json → List Json
  | [] => []
  | v :: vs => v.plain :: plainItems vs
termination_by structural vs => vs

/-- `plain` on the entries of an object. Source: none: infrastructure. Kind: D -/
def plainEntries : List (JsString × Json) → List (JsString × Json)
  | [] => []
  | (k, v) :: es => (k, v.plain) :: plainEntries es
termination_by structural es => es

end

section mapping

/-- The texts of items. Source: none: infrastructure. Kind: L -/
theorem stringifyItems_eq (items : List Json) : stringifyItems items = items.map stringify := by
  induction items with
  | nil => rfl
  | cons v vs ih => simp [stringifyItems, ih]

/-- The texts of entries. Source: none: infrastructure. Kind: L -/
theorem stringifyEntries_eq (entries : List (JsString × Json)) :
    stringifyEntries entries = entries.map fun e => quote e.1 ++ unit ':' :: stringify e.2 := by
  induction entries with
  | nil => rfl
  | cons e es ih => simp [stringifyEntries, ih]

/-- An array, plainly. Source: none: infrastructure. Kind: L -/
@[simp] theorem Json.plain_array (items : List Json) :
    (Json.array items).plain = .array (items.map Json.plain) := by
  have hitems : plainItems items = items.map Json.plain := by
    induction items with
    | nil => rfl
    | cons v vs ih => simp [plainItems, ih]
  rw [Json.plain, hitems]

/-- An object, plainly. Source: none: infrastructure. Kind: L -/
@[simp] theorem Json.plain_object (entries : List (JsString × Json)) :
    (Json.object entries).plain = .object (entries.map fun e => (e.1, e.2.plain)) := by
  have hentries : plainEntries entries = entries.map fun e => (e.1, e.2.plain) := by
    induction entries with
    | nil => rfl
    | cons e es ih => simp [plainEntries, ih]
  rw [Json.plain, hentries]

/-- The text of an array. Source: none: infrastructure. Kind: L -/
theorem stringify_array (items : List Json) :
    stringify (.array items) = unit '[' :: joinComma (items.map stringify) ++ [unit ']'] := by
  rw [stringify, stringifyItems_eq]

/-- The text of an object. Source: none: infrastructure. Kind: L -/
theorem stringify_object (entries : List (JsString × Json)) :
    stringify (.object entries) = unit '{' ::
      joinComma (entries.map fun e => quote e.1 ++ unit ':' :: stringify e.2) ++ [unit '}'] := by
  rw [stringify, stringifyEntries_eq]

/-- A value and its plain value have one text. Source: none: infrastructure. Kind: L -/
@[simp] theorem stringify_plain (v : Json) : stringify v.plain = stringify v := by
  induction v using Json.induction with
  | null => rfl
  | bool b => rfl
  | string s => rfl
  | number x =>
    cases x with
    | infinite negative => rfl
    | finite negative m => cases negative <;> by_cases hz : m.units = 0 <;>
        simp [Json.plain, Number.plain, stringify, Number.text, hz]
  | array items ih =>
    have hmap : (items.map Json.plain).map stringify = items.map stringify := by
      rw [List.map_map]
      exact List.map_congr_left ih
    rw [Json.plain_array, stringify_array, stringify_array, hmap]
  | object entries ih =>
    have hmap : (entries.map fun e => (e.1, e.2.plain)).map
        (fun e => quote e.1 ++ unit ':' :: stringify e.2) =
        entries.map fun e => quote e.1 ++ unit ':' :: stringify e.2 := by
      rw [List.map_map]
      exact List.map_congr_left fun e he => by simp [ih e he]
    rw [Json.plain_object, stringify_object, stringify_object, hmap]

/-- A plain value is plain. Source: none: infrastructure. Kind: L -/
@[simp] theorem Json.plain_plain (v : Json) : v.plain.plain = v.plain := by
  induction v using Json.induction with
  | null => rfl
  | bool b => rfl
  | string s => rfl
  | number x => cases x <;> simp [Json.plain, Number.plain]
  | array items ih =>
    rw [Json.plain_array, Json.plain_array, List.map_map]
    exact congrArg Json.array (List.map_congr_left ih)
  | object entries ih =>
    rw [Json.plain_object, Json.plain_object, List.map_map]
    exact congrArg Json.object (List.map_congr_left fun e he => by simp [ih e he])

/-- Equal numbers are plainly one. Source: none: ECMAScript `Number::equal`. Kind: L -/
theorem Number.plain_eq_of_eq {x y : Number} (h : x.eq y = true) : x.plain = y.plain := by
  cases x <;> cases y <;> simp only [Number.eq, Bool.false_eq_true, Bool.and_eq_true, Bool.or_eq_true,
    beq_iff_eq] at h
  · obtain ⟨hunits, hsign⟩ := h
    rw [Number.plain, Number.plain, Magnitude.ext hunits]
    rcases hsign with rfl | hz
    · rfl
    · simp [hunits ▸ hz]
  · rfl

/-- A number equals itself. Source: none: ECMAScript `Number::equal`. Kind: L -/
@[simp] theorem Number.eq_self (x : Number) : x.eq x = true := by cases x <;> simp [Number.eq]

/-- Plain numbers are equal when they are one. Source: none: infrastructure. Kind: L -/
theorem Number.eq_iff_of_plain {x y : Number} (hx : (Json.number x).plain = .number x)
    (hy : (Json.number y).plain = .number y) : x.eq y = true ↔ x = y := by
  constructor
  · intro h
    have hplain : x.plain = y.plain := Number.plain_eq_of_eq h
    rw [Json.plain] at hx hy
    rw [hx, hy] at hplain
    exact Json.number.inj hplain
  · rintro rfl
    exact Number.eq_self x

/-- Equal numbers are plainly equal. Source: none: infrastructure. Kind: L -/
theorem Number.same_plain {x y : Number} (h : x.eq y = true) : x.plain.same y.plain = true := by
  rw [Number.plain_eq_of_eq h]
  cases y <;> simp [Number.plain, Json.same]

/-- Conditions on keys do not see what the text leaves out. Source: none: infrastructure. Kind: L -/
theorem Json.everyObject_plain {p : List JsString → Bool} (v : Json) :
    v.plain.everyObject (fun es => p (keys es)) = v.everyObject fun es => p (keys es) := by
  induction v using Json.induction with
  | null => rfl
  | bool b => rfl
  | string s => rfl
  | number x => cases x <;> rfl
  | array items ih =>
    rw [plain_array, Bool.eq_iff_iff, everyObject_array, everyObject_array]
    simp +contextual [ih]
  | object es ih =>
    have hkeys : keys (es.map fun e => (e.1, e.2.plain)) = keys es := by simp [keys]
    rw [plain_object, Bool.eq_iff_iff, everyObject_object, everyObject_object, hkeys]
    have hvalues : (∀ e ∈ es.map fun e => (e.1, e.2.plain), e.2.everyObject (fun es => p (keys es)) = true) ↔
        ∀ e ∈ es, e.2.everyObject (fun es => p (keys es)) = true := by
      rw [List.forall_mem_map]
      exact forall₂_congr fun e he => by rw [ih e he]
    rw [hvalues]

/-- Distinct keys, plainly. Source: none: infrastructure. Kind: L -/
@[simp] theorem Json.distinct_plain (v : Json) : v.plain.distinct = v.distinct :=
  Json.everyObject_plain (p := fun ks => decide ks.Nodup) v

/-- Without a key, plainly. Source: none: infrastructure. Kind: L -/
@[simp] theorem Json.without_plain (k : JsString) (v : Json) : v.plain.without k = v.without k :=
  Json.everyObject_plain (p := fun ks => decide (k ∉ ks)) v

/-- **Equal values are plainly equal.** Source: none: infrastructure. Kind: L -/
theorem Json.same_plain {v w : Json} (hw : w.distinct = true) (h : same v w = true) :
    same v.plain w.plain = true := by
  induction v using Json.induction generalizing w with
  | null =>
    cases w <;> simp [same] at h
    rfl
  | bool b =>
    cases w <;> simp [same] at h
    simpa [plain, same] using h
  | string s =>
    cases w <;> simp [same] at h
    simpa [plain, same] using h
  | number x =>
    cases w <;> simp [same] at h
    exact Number.same_plain h
  | array vs ih =>
    obtain ⟨ws, rfl, hall⟩ := same_array h
    rw [distinct_array] at hw
    rw [plain_array, plain_array, same_array_iff, List.forall₂_map_left_iff, List.forall₂_map_right_iff]
    exact forall₂_imp hall fun v hv w hwm => ih v hv (hw w hwm)
  | object es ih =>
    obtain ⟨fs, rfl, hlen, hall⟩ := same_object hw h
    rw [distinct_object] at hw
    have hkeys : keys (fs.map fun e => (e.1, e.2.plain)) = keys fs := by simp [keys]
    rw [plain_object, plain_object, same_object_iff (hkeys ▸ hw.1), List.length_map, List.length_map,
      List.forall_mem_map]
    refine ⟨hlen, fun e he => ?_⟩
    obtain ⟨w, hmem, hsame⟩ := hall e he
    exact ⟨w.plain, List.mem_map.mpr ⟨(e.1, w), hmem, rfl⟩, ih e he (hw.2 _ hmem) hsame⟩

end mapping

/-! ## Texts told apart -/

/-- A text that does not go on a number: what may follow a value. Source: none: infrastructure. Kind: D -/
def Stops (r : JsString) : Prop := ∀ u ∈ r.head?, isNumberUnit u = false

/-- In front of what may follow them, the text of `v` and the text of `w` tell the one from the other.
Source: none: infrastructure. Kind: D -/
def Tells {α : Type*} (text : α → JsString) (v w : α) : Prop :=
  ∀ r r', Stops r → Stops r' → text v ++ r = text w ++ r' → v = w ∧ r = r'

/-- The constructor of a value. Source: none: infrastructure. Kind: D -/
def Json.tag : Json → ℕ
  | .null => 0
  | .bool _ => 1
  | .number _ => 2
  | .string _ => 3
  | .array _ => 4
  | .object _ => 5

/-- The constructor a text stands for, by its first code unit. Source: none: infrastructure. Kind: D -/
def tagOf (u : CodeUnit) : ℕ :=
  if isNumberUnit u then 2
  else if u = unit 'n' then 0
  else if u = unit 't' ∨ u = unit 'f' then 1
  else if u = unit '"' then 3
  else if u = unit '[' then 4
  else if u = unit '{' then 5
  else 6

section telling

variable {r r' : JsString}

/-- The end of the text stops. Source: none: infrastructure. Kind: L -/
theorem Stops.nil : Stops [] := by simp [Stops]

/-- A delimiter stops. Source: none: infrastructure. Kind: L -/
theorem Stops.cons {u : CodeUnit} (h : isNumberUnit u = false) : Stops (u :: r) := by simpa [Stops] using h

/-- A number ends where the units of numbers do. Source: none: infrastructure. Kind: L -/
theorem takeWhile_number {s : JsString} (hs : ∀ u ∈ s, isNumberUnit u = true) (hr : Stops r) :
    (s ++ r).takeWhile isNumberUnit = s := by
  rw [List.takeWhile_append_of_pos hs]
  cases r with
  | nil => simp
  | cons u r => simp [hr u (by simp)]

/-- The first code unit of a text gives the constructor away. Source: none: infrastructure. Kind: L -/
theorem stringify_head {v : Json} (hv : v.plain = v) : ∃ u s, stringify v = u :: s ∧ tagOf u = v.tag := by
  have hquote : tagOf (unit '"') = 3 := by decide
  have hbracket : tagOf (unit '[') = 4 := by decide
  have hbrace : tagOf (unit '{') = 5 := by decide
  cases v with
  | null => exact ⟨unit 'n', _, rfl, by decide⟩
  | bool b =>
    cases b
    · exact ⟨unit 'f', _, rfl, by decide⟩
    · exact ⟨unit 't', _, rfl, by decide⟩
  | string s => exact ⟨unit '"', _, rfl, hquote⟩
  | array items => exact ⟨unit '[', _, rfl, hbracket⟩
  | object entries => exact ⟨unit '{', _, rfl, hbrace⟩
  | number x =>
    cases x with
    | infinite negative => simp [Json.plain, Number.plain] at hv
    | finite negative m =>
      obtain ⟨u, s, hcons⟩ := List.exists_cons_of_ne_nil (Number.text_ne_nil (a := negative) (m := m))
      have hu : isNumberUnit u = true :=
        Number.isNumberUnit_of_mem (a := negative) (m := m) (by simp [hcons])
      exact ⟨u, s, hcons, by simp [tagOf, Json.tag, hu]⟩

/-- Texts that begin alike have one constructor. Source: none: infrastructure. Kind: L -/
theorem tag_eq {v w : Json} (hv : v.plain = v) (hw : w.plain = w)
    (h : stringify v ++ r = stringify w ++ r') : v.tag = w.tag := by
  obtain ⟨a, s, hvs, ha⟩ := stringify_head hv
  obtain ⟨b, t, hwt, hb⟩ := stringify_head hw
  rw [hvs, hwt] at h
  rw [← ha, ← hb, (List.cons_eq_cons.mp h).1]

/-- No text begins like the end of an array. Source: none: infrastructure. Kind: L -/
theorem stringify_ne_close {v : Json} (hv : v.plain = v) : stringify v ++ r ≠ unit ']' :: r' := by
  obtain ⟨a, s, hvs, ha⟩ := stringify_head hv
  rw [hvs]
  intro h
  rw [(List.cons_eq_cons.mp h).1] at ha
  have htag : tagOf (unit ']') = 6 := by decide
  rw [htag] at ha
  cases v <;> simp [Json.tag] at ha

/-- **Texts with commas between them are told apart** as the texts are, in front of the bracket that closes
them. Source: none: infrastructure. Kind: L -/
theorem joinComma_inj {α : Type*} {text : α → JsString} {close : CodeUnit} (hcomma : close ≠ unit ',')
    (hstop : isNumberUnit close = false) {vs ws : List α}
    (htell : ∀ v ∈ vs, ∀ w ∈ ws, Tells text v w)
    (hvs : ∀ v ∈ vs, ∀ r r', text v ++ r ≠ close :: r') (hws : ∀ w ∈ ws, ∀ r r', text w ++ r ≠ close :: r')
    (h : joinComma (vs.map text) ++ close :: r = joinComma (ws.map text) ++ close :: r') :
    vs = ws ∧ r = r' := by
  have hc : ∀ s, Stops (close :: s) := fun s => Stops.cons hstop
  have hm : ∀ s, Stops (unit ',' :: s) := fun s => Stops.cons (by decide)
  induction vs generalizing ws with
  | nil =>
    cases ws with
    | nil => exact ⟨rfl, (List.cons_eq_cons.mp h).2⟩
    | cons w ws =>
      cases ws with
      | nil => exact absurd h.symm (hws w List.mem_cons_self _ _)
      | cons w' ws =>
        simp only [List.map_cons, joinComma, List.append_assoc] at h
        exact absurd h.symm (hws w List.mem_cons_self _ _)
  | cons v vs ih =>
    cases ws with
    | nil =>
      cases vs with
      | nil => exact absurd h (hvs v List.mem_cons_self _ _)
      | cons v' vs =>
        simp only [List.map_cons, joinComma, List.append_assoc] at h
        exact absurd h (hvs v List.mem_cons_self _ _)
    | cons w ws =>
      have hvw := htell v List.mem_cons_self w List.mem_cons_self
      cases vs with
      | nil =>
        cases ws with
        | nil =>
          obtain ⟨hv, hr⟩ := hvw _ _ (hc r) (hc r') h
          exact ⟨by rw [hv], (List.cons_eq_cons.mp hr).2⟩
        | cons w' ws =>
          simp only [List.map_cons, joinComma, List.append_assoc] at h
          obtain ⟨-, hr⟩ := hvw _ _ (hc r) (hm _) h
          exact absurd (List.cons_eq_cons.mp hr).1 hcomma
      | cons v' vs =>
        cases ws with
        | nil =>
          simp only [List.map_cons, joinComma, List.append_assoc] at h
          obtain ⟨-, hr⟩ := hvw _ _ (hm _) (hc r') h
          exact absurd (List.cons_eq_cons.mp hr).1.symm hcomma
        | cons w' ws =>
          simp only [List.map_cons, joinComma, List.append_assoc, List.cons_append] at h
          obtain ⟨hv, hr⟩ := hvw _ _ (hm _) (hm _) h
          obtain ⟨hrest, hend⟩ := @ih (w' :: ws)
            (fun a ha b hb => htell a (List.mem_cons_of_mem v ha) b (List.mem_cons_of_mem w hb))
            (fun a ha => hvs a (List.mem_cons_of_mem v ha)) (fun b hb => hws b (List.mem_cons_of_mem w hb))
            (List.cons_eq_cons.mp hr).2
          exact ⟨by rw [hv, hrest], hend⟩

/-- Plain numbers are told apart. Source: none: ECMAScript `Number::toString`. Kind: L -/
theorem tells_number {x y : Number} (hx : (Json.number x).plain = .number x)
    (hy : (Json.number y).plain = .number y) : Tells stringify (.number x) (.number y) := by
  intro r r' hr hr' h
  cases x with
  | infinite a => simp [Json.plain, Number.plain] at hx
  | finite a m =>
    cases y with
    | infinite b => simp [Json.plain, Number.plain] at hy
    | finite b n =>
      have htext : (Number.finite a m).text = (Number.finite b n).text := by
        have htake := congrArg (List.takeWhile isNumberUnit) h
        simp only [stringify] at htake
        rwa [takeWhile_number (fun u hu => Number.isNumberUnit_of_mem hu) hr,
          takeWhile_number (fun u hu => Number.isNumberUnit_of_mem hu) hr'] at htake
      have hrest : r = r' := by
        simp only [stringify, htext] at h
        exact List.append_cancel_left h
      exact ⟨congrArg _ ((Number.eq_iff_of_plain hx hy).mp (Number.text_inj.mp htext)), hrest⟩

/-- Plain arrays are told apart as their items are. Source: none: ECMAScript `SerializeJSONArray`.
Kind: L -/
theorem tells_array {vs ws : List Json} (hvs : ∀ v ∈ vs, v.plain = v) (hws : ∀ w ∈ ws, w.plain = w)
    (htell : ∀ v ∈ vs, ∀ w ∈ ws, Tells stringify v w) : Tells stringify (.array vs) (.array ws) := by
  intro r r' _ _ h
  simp only [stringify_array, List.cons_append, List.append_assoc, List.nil_append] at h
  have hinner := (List.cons_eq_cons.mp h).2
  obtain ⟨hitems, hrest⟩ := joinComma_inj (by decide) (by decide) htell
    (fun v hv _ _ => stringify_ne_close (hvs v hv)) (fun w hw _ _ => stringify_ne_close (hws w hw)) hinner
  exact ⟨by rw [hitems], hrest⟩

/-- Plain objects are told apart as the values of their entries are.
Source: none: ECMAScript `SerializeJSONObject`. Kind: L -/
theorem tells_object {es fs : List (JsString × Json)}
    (htell : ∀ e ∈ es, ∀ f ∈ fs, Tells stringify e.2 f.2) : Tells stringify (.object es) (.object fs) := by
  intro r r' _ _ h
  simp only [stringify_object, List.cons_append, List.append_assoc, List.nil_append] at h
  have hinner := (List.cons_eq_cons.mp h).2
  have hentry : ∀ e ∈ es, ∀ f ∈ fs,
      Tells (fun e : JsString × Json => quote e.1 ++ unit ':' :: stringify e.2) e f := by
    intro e he f hf t t' ht ht' htt
    simp only [List.append_assoc, List.cons_append] at htt
    obtain ⟨hkey, hcolon⟩ := quote_append_inj htt
    obtain ⟨hvalue, hrest⟩ := htell e he f hf t t' ht ht' (List.cons_eq_cons.mp hcolon).2
    exact ⟨Prod.ext hkey hvalue, hrest⟩
  have hclose : ∀ e : JsString × Json, ∀ t t',
      (quote e.1 ++ unit ':' :: stringify e.2) ++ t ≠ unit '}' :: t' := by
    intro e t t' htt
    have hne : unit '"' ≠ unit '}' := by decide
    exact hne (List.cons_eq_cons.mp htt).1
  obtain ⟨hentries, hrest⟩ := joinComma_inj (by decide) (by decide) hentry
    (fun e _ => hclose e) (fun f _ => hclose f) hinner
  exact ⟨by rw [hentries], hrest⟩

/-- The items of a plain array are plain. Source: none: infrastructure. Kind: L -/
theorem plain_of_mem_array {vs : List Json} (h : (Json.array vs).plain = .array vs) :
    ∀ v ∈ vs, v.plain = v := by
  rw [Json.plain_array, Json.array.injEq] at h
  exact List.map_inj_left.mp (h.trans (List.map_id vs).symm)

/-- The values of a plain object are plain. Source: none: infrastructure. Kind: L -/
theorem plain_of_mem_object {es : List (JsString × Json)} (h : (Json.object es).plain = .object es) :
    ∀ e ∈ es, e.2.plain = e.2 := by
  rw [Json.plain_object, Json.object.injEq] at h
  intro e he
  exact congrArg Prod.snd (List.map_inj_left.mp (h.trans (List.map_id es).symm) e he)

/-- It is enough to tell apart values of one constructor. Source: none: infrastructure. Kind: L -/
theorem tells_of_tag {v w : Json} (hv : v.plain = v) (hw : w.plain = w)
    (hsame : v.tag = w.tag → Tells stringify v w) : Tells stringify v w := fun r r' hr hr' h =>
  hsame (tag_eq hv hw h) r r' hr hr' h

/-- **The text of a plain value is self-delimiting.** Source: none: ECMAScript `JSON.stringify`.
Kind: L -/
theorem tells_stringify {v w : Json} (hv : v.plain = v) (hw : w.plain = w) : Tells stringify v w := by
  induction v using Json.induction generalizing w with
  | null =>
    refine tells_of_tag hv hw fun htag => ?_
    cases w <;> simp [Json.tag] at htag
    exact fun r r' _ _ h => ⟨rfl, List.append_cancel_left h⟩
  | bool a =>
    refine tells_of_tag hv hw fun htag => ?_
    cases w <;> simp [Json.tag] at htag
    rename_i b
    intro r r' _ _ h
    have hft : unit 'f' ≠ unit 't' := by decide
    cases a <;> cases b
    · exact ⟨rfl, List.append_cancel_left h⟩
    · exact absurd (List.cons_eq_cons.mp h).1 hft
    · exact absurd (List.cons_eq_cons.mp h).1.symm hft
    · exact ⟨rfl, List.append_cancel_left h⟩
  | string s =>
    refine tells_of_tag hv hw fun htag => ?_
    cases w <;> simp [Json.tag] at htag
    intro r r' _ _ h
    obtain ⟨hst, hrest⟩ := quote_append_inj h
    exact ⟨by rw [hst], hrest⟩
  | number x =>
    refine tells_of_tag hv hw fun htag => ?_
    cases w <;> simp [Json.tag] at htag
    exact tells_number hv hw
  | array vs ih =>
    refine tells_of_tag hv hw fun htag => ?_
    cases w <;> simp [Json.tag] at htag
    have hvs := plain_of_mem_array hv
    have hws := plain_of_mem_array hw
    exact tells_array hvs hws fun v hmv w hmw => ih v hmv (hvs v hmv) (hws w hmw)
  | object es ih =>
    refine tells_of_tag hv hw fun htag => ?_
    cases w <;> simp [Json.tag] at htag
    have hes := plain_of_mem_object hv
    have hfs := plain_of_mem_object hw
    exact tells_object fun e he f hf => ih e he (hes e he) (hfs f hf)

/-- **What the text of a value says**: two values have one text exactly when they are plainly the same.
Source: none: ECMAScript `JSON.stringify`. Kind: P -/
theorem stringify_inj {v w : Json} : stringify v = stringify w ↔ v.plain = w.plain := by
  constructor
  · intro h
    have htext : stringify v.plain ++ [] = stringify w.plain ++ [] := by simp [h]
    exact (tells_stringify (Json.plain_plain v) (Json.plain_plain w) _ _ Stops.nil Stops.nil htext).1
  · intro h
    rw [← stringify_plain v, h, stringify_plain]

end telling

/-! ## The text in bytes -/

section bytes

/-- A short escape is no surrogate. Source: none: infrastructure. Kind: L -/
theorem isSurrogate_of_shortEscape {u c : CodeUnit} (h : shortEscape u = some c) : isSurrogate c = false := by
  unfold shortEscape at h
  split_ifs at h <;> rw [← Option.some.inj h] <;> decide

/-- A hexadecimal digit is no surrogate. Source: none: infrastructure. Kind: L -/
theorem isSurrogate_hexDigit {d : ℕ} (h : d < 0x10) : isSurrogate (hexDigit d) = false := by
  unfold hexDigit isSurrogate isHigh isLow
  split <;> rw [val_codeUnit (by omega)] <;> simp <;> omega

/-- An escaped code unit is well formed. Source: none: ECMAScript `QuoteJSONString`. Kind: L -/
theorem wellFormed_escape (u : CodeUnit) : WellFormed (escape u) := by
  have hbackslash : isSurrogate (unit '\\') = false := by decide
  have hletter : isSurrogate (unit 'u') = false := by decide
  unfold escape
  cases hshort : shortEscape u with
  | some c =>
    have hc := isSurrogate_of_shortEscape hshort
    exact WellFormed.of_forall (by simp [hbackslash, hc])
  | none =>
    simp only
    split
    · have hu := u.isLt
      apply WellFormed.of_forall
      simp [unicodeEscape, hbackslash, hletter, isSurrogate_hexDigit (d := u.val / 0x1000) (by omega),
        isSurrogate_hexDigit (d := u.val / 0x100 % 0x10) (by omega),
        isSurrogate_hexDigit (d := u.val / 0x10 % 0x10) (by omega),
        isSurrogate_hexDigit (d := u.val % 0x10) (by omega)]
    · rename_i hplain
      simp only [Bool.or_eq_true, not_or, Bool.not_eq_true] at hplain
      exact WellFormed.singleton hplain.2

/-- A quoted string is well formed: a lone surrogate is escaped.
Source: none: ECMAScript `QuoteJSONString`. Kind: L -/
theorem wellFormed_quote (s : JsString) : WellFormed (quote s) := by
  have hq : WellFormed [unit '"'] := WellFormed.singleton (by decide)
  have hbody : WellFormed (quoteBody s) := by
    fun_induction quoteBody s with
    | case1 => exact .nil
    | case2 u => exact wellFormed_escape u
    | case3 u v s h ih =>
      rw [Bool.and_eq_true] at h
      exact (WellFormed.pair h.1 h.2).append ih
    | case4 u v s h ih => exact (wellFormed_escape u).append ih
  exact (hq.append hbody).append hq

/-- Texts with commas between them are well formed. Source: none: infrastructure. Kind: L -/
theorem wellFormed_joinComma {ts : List JsString} (h : ∀ t ∈ ts, WellFormed t) :
    WellFormed (joinComma ts) := by
  have hcomma : WellFormed [unit ','] := WellFormed.singleton (by decide)
  fun_induction joinComma ts with
  | case1 => exact .nil
  | case2 t => exact h t (by simp)
  | case3 t u ts ih =>
    have htail := ih fun x hx => h x (List.mem_cons_of_mem t hx)
    exact (h t (by simp)).append (hcomma.append htail)

/-- A number's text is well formed. Source: none: ECMAScript `Number::toString`. Kind: L -/
theorem wellFormed_number (x : Number) : WellFormed x.text := by
  cases x with
  | infinite a => exact ⟨_, rfl⟩
  | finite a m =>
    apply WellFormed.of_forall
    intro u hu
    have hnumber := Number.isNumberUnit_of_mem hu
    simp only [isNumberUnit, isDigitUnit, Bool.or_eq_true, Bool.and_eq_true, decide_eq_true_eq,
      List.contains_eq_mem, List.mem_cons, List.not_mem_nil, or_false] at hnumber
    rcases hnumber with hdigit | rfl | rfl | rfl | rfl
    · simp [isSurrogate, isHigh, isLow]
      omega
    all_goals decide

/-- **The text of a value is well formed**, whatever its strings hold. Source: none: ECMAScript
`JSON.stringify`. Kind: L -/
theorem wellFormed_stringify (v : Json) : WellFormed (stringify v) := by
  have hone : ∀ c : Char, c.toNat < 0x10000 → WellFormed [unit c] := fun c hc =>
    WellFormed.singleton (isSurrogate_unit hc)
  induction v using Json.induction with
  | null => exact ⟨_, rfl⟩
  | bool b => cases b <;> exact ⟨_, rfl⟩
  | number x => exact wellFormed_number x
  | string s => exact wellFormed_quote s
  | array items ih =>
    rw [stringify_array]
    have hitems : WellFormed (joinComma (items.map stringify)) :=
      wellFormed_joinComma (by simpa using ih)
    exact ((hone '[' (by decide)).append hitems).append (hone ']' (by decide))
  | object entries ih =>
    rw [stringify_object]
    have hentries : WellFormed (joinComma (entries.map fun e => quote e.1 ++ unit ':' :: stringify e.2)) := by
      apply wellFormed_joinComma
      intro t ht
      obtain ⟨e, he, rfl⟩ := List.mem_map.mp ht
      exact (wellFormed_quote e.1).append ((hone ':' (by decide)).append (ih e he))
    exact ((hone '{' (by decide)).append hentries).append (hone '}' (by decide))

end bytes

end TrainsAndTracks.Found
