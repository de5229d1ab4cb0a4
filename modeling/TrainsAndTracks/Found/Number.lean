import Mathlib.Algebra.Order.Floor.Div
import Mathlib.Data.Int.Log
import Mathlib.Data.Nat.Digits.Lemmas
import Mathlib.Data.Rat.Floor
import Mathlib.Tactic.FieldSimp
import Mathlib.Tactic.Linarith
import Mathlib.Tactic.Ring
import TrainsAndTracks.Found.Utf16

/-!
# Binary64 numbers and their text

What a JSON text can hold as a number: a binary64 value or, from a literal too large, an infinity.
`Number.text` is the text of ECMAScript's `Number::toString`: the fewest digits that round back to the
value, the closest such digits, laid out with or without an exponent.

* `Magnitude` — a finite binary64 value without its sign, in units of 2^-1074.
* `nearest` — rounding to binary64, half to even.
* `Magnitude.shortest`, `Decimal.text` — the digits and their layout.
* `readNumber` — the value a text stands for.

`nearest_readNumber_text` is the round trip: the text read and rounded is the number.
-/

namespace TrainsAndTracks.Found

/-- The least positive value is 2^-1074. Source: none: infrastructure. Kind: D -/
def scale : ℕ := 1074

/-- A finite binary64 value without its sign: at most 53 significant bits, below 2^1024.
Source: none: infrastructure. Kind: D -/
@[ext] structure Magnitude where
  /-- The value in units of 2^-1074. -/
  units : ℕ
  precise : 2 ^ (Nat.log2 units - 52) ∣ units
  finite : units < 2 ^ (1024 + scale)
  deriving DecidableEq

/-- A number of a JSON value. Source: none: infrastructure. Kind: D -/
inductive Number where
  | finite (negative : Bool) (magnitude : Magnitude)
  | infinite (negative : Bool)
  deriving DecidableEq

/-- The value of a magnitude. Source: none: infrastructure. Kind: D -/
def Magnitude.value (m : Magnitude) : ℚ := m.units / 2 ^ scale

/-- `x === y`: both zeros are one number. Source: none: ECMAScript `Number::equal`. Kind: D -/
def Number.eq : Number → Number → Bool
  | .finite a m, .finite b n => m.units == n.units && (a == b || m.units == 0)
  | .infinite a, .infinite b => a == b
  | _, _ => false

/-! ## Rounding -/

/-- The nearest natural number, half to even. Source: none: infrastructure. Kind: D -/
def roundHalfEven (q : ℚ) : ℕ :=
  let low := ⌊q⌋₊
  if q - low < 1 / 2 then low else if 1 / 2 < q - low then low + 1
  else if low % 2 = 0 then low else low + 1

/-- The nearest binary64 value, in units of 2^-1074. Source: none: infrastructure. Kind: D -/
def nearest (q : ℚ) : ℕ :=
  let y := q * 2 ^ scale
  let e := Nat.log2 ⌊y⌋₊ - 52
  roundHalfEven (y / 2 ^ e) * 2 ^ e

/-- A whole number rounds to itself. Source: none: infrastructure. Kind: L -/
@[simp] theorem roundHalfEven_natCast (n : ℕ) : roundHalfEven n = n := by
  simp [roundHalfEven]

/-- A binary64 value rounds to itself. Source: none: infrastructure. Kind: L -/
theorem nearest_value (m : Magnitude) : nearest m.value = m.units := by
  obtain ⟨c, hc⟩ := m.precise
  have hy : m.value * 2 ^ scale = (m.units : ℚ) := by
    rw [Magnitude.value]
    field_simp
  have hq : (m.units : ℚ) / 2 ^ (Nat.log2 m.units - 52) = (c : ℕ) := by
    rw [div_eq_iff (by positivity)]
    nth_rewrite 1 [hc]
    push_cast
    ring
  simp only [nearest, hy, Nat.floor_natCast, hq, roundHalfEven_natCast]
  rw [mul_comm, ← hc]

/-! ## Digits -/

/-- The digit `d`. Source: none: infrastructure. Kind: D -/
def digit (d : ℕ) : CodeUnit := codeUnit (0x30 + d)

/-- A number in decimal, without leading zeros. Source: none: infrastructure. Kind: D -/
def decimalDigits (n : ℕ) : JsString := ((Nat.digits 10 n).map digit).reverse

/-- The value of decimal digits. Source: none: infrastructure. Kind: D -/
def readDigits (s : JsString) : ℕ := Nat.ofDigits 10 (s.reverse.map fun u => u.val - 0x30)

/-- A decimal digit. Source: none: infrastructure. Kind: D -/
def isDigitUnit (u : CodeUnit) : Bool := decide (0x30 ≤ u.val) && decide (u.val ≤ 0x39)

section digits

/-- The number of a digit. Source: none: infrastructure. Kind: L -/
theorem val_digit {d : ℕ} (h : d < 10) : (digit d).val = 0x30 + d := val_codeUnit (by omega)

/-- A digit is one. Source: none: infrastructure. Kind: L -/
theorem isDigitUnit_digit {d : ℕ} (h : d < 10) : isDigitUnit (digit d) = true := by
  simp only [isDigitUnit, val_digit h, Bool.and_eq_true, decide_eq_true_eq]
  omega

/-- A number is written with digits. Source: none: infrastructure. Kind: L -/
theorem isDigitUnit_of_mem {n : ℕ} {u : CodeUnit} (h : u ∈ decimalDigits n) : isDigitUnit u = true := by
  simp only [decimalDigits, List.mem_reverse, List.mem_map] at h
  obtain ⟨d, hd, rfl⟩ := h
  exact isDigitUnit_digit (Nat.digits_lt_base (by norm_num) hd)

/-- A number above zero has a digit. Source: none: infrastructure. Kind: L -/
theorem decimalDigits_ne_nil {n : ℕ} (h : n ≠ 0) : decimalDigits n ≠ [] := by
  simpa [decimalDigits, Nat.digits_ne_nil_iff_ne_zero] using h

/-- A number in decimal is read back. Source: none: infrastructure. Kind: L -/
@[simp] theorem readDigits_decimalDigits (n : ℕ) : readDigits (decimalDigits n) = n := by
  have hmap : ((Nat.digits 10 n).map digit).map (fun u => u.val - 0x30) = Nat.digits 10 n := by
    rw [List.map_map]
    conv_rhs => rw [← List.map_id (Nat.digits 10 n)]
    apply List.map_congr_left
    intro d hd
    simp [val_digit (Nat.digits_lt_base (by norm_num) hd)]
  rw [readDigits, decimalDigits, List.reverse_reverse, hmap, Nat.ofDigits_digits]

/-- Digits after digits. Source: none: infrastructure. Kind: L -/
theorem readDigits_append (s t : JsString) :
    readDigits (s ++ t) = readDigits s * 10 ^ t.length + readDigits t := by
  simp only [readDigits, List.reverse_append, List.map_append, Nat.ofDigits_append, List.length_map,
    List.length_reverse]
  ring

/-- Zeros are worth nothing. Source: none: infrastructure. Kind: L -/
@[simp] theorem readDigits_zeros (k : ℕ) : readDigits (List.replicate k (unit '0')) = 0 := by
  have hzero : (unit '0').val - 0x30 = 0 := by decide
  rw [readDigits, List.reverse_replicate, List.map_replicate, hzero, Nat.ofDigits_replicate_zero]

end digits

/-! ## The shortest decimal that rounds back -/

/-- `digits · 10^exponent`. Source: none: infrastructure. Kind: D -/
structure Decimal where
  digits : ℕ
  exponent : ℤ

/-- The value of a decimal. Source: none: infrastructure. Kind: D -/
def Decimal.value (d : Decimal) : ℚ := d.digits * 10 ^ d.exponent

/-- The decimals of `k` digits next to `q`, the closer one first and the even one where both are as
close. Source: none: ECMAScript `Number::toString`. Kind: D -/
def candidates (q : ℚ) (k : ℕ) : List Decimal :=
  let n := Int.log 10 q + 1
  let scaled := q * 10 ^ (k - n)
  let low := ⌊scaled⌋₊
  let below : Decimal := ⟨low, n - k⟩
  let above : Decimal := if low + 1 = 10 ^ k then ⟨1, n⟩ else ⟨low + 1, n - k⟩
  if scaled - low < 1 / 2 ∨ (scaled - low = 1 / 2 ∧ low % 2 = 0) then [below, above]
  else [above, below]

/-- The decimal `Number::toString` prints: as few digits as possible, then as close as possible. Seventeen
digits always tell a binary64 value from the others; its exact decimal stands behind them.
Source: none: ECMAScript `Number::toString`. Kind: D -/
def Magnitude.shortest (m : Magnitude) : Decimal :=
  (((List.range 17).flatMap fun k => candidates m.value (k + 1)).find? fun d =>
    d.digits ≠ 0 ∧ nearest d.value = m.units).getD ⟨m.units * 5 ^ scale, -scale⟩

/-- A signed power of ten. Source: none: ECMAScript `Number::toString`. Kind: D -/
def powerText (n : ℤ) : JsString := (if 0 ≤ n then unit '+' else unit '-') :: decimalDigits n.natAbs

/-- The text of a decimal. Source: none: ECMAScript `Number::toString`. Kind: D -/
def Decimal.text (d : Decimal) : JsString :=
  let ds := decimalDigits d.digits
  let n := d.exponent + ds.length
  if ds.length ≤ n ∧ n ≤ 21 then ds ++ List.replicate (n - ds.length).toNat (unit '0')
  else if 0 < n ∧ n ≤ 21 then ds.take n.toNat ++ unit '.' :: ds.drop n.toNat
  else if -6 < n ∧ n ≤ 0 then [unit '0', unit '.'] ++ List.replicate (-n).toNat (unit '0') ++ ds
  else
    let power := unit 'e' :: powerText (n - 1)
    if ds.length = 1 then ds ++ power else ds.take 1 ++ unit '.' :: ds.drop 1 ++ power

/-- The text of a magnitude. Source: none: ECMAScript `Number::toString`. Kind: D -/
def Magnitude.text (m : Magnitude) : JsString :=
  if m.units = 0 then [unit '0'] else m.shortest.text

/-- The text of a number in JSON: `null` where it is not finite.
Source: none: ECMAScript `SerializeJSONProperty`. Kind: D -/
def Number.text : Number → JsString
  | .finite negative m => if negative = true ∧ m.units ≠ 0 then unit '-' :: m.text else m.text
  | .infinite _ => ofString "null"

/-- The decimal printed rounds back. Source: none: infrastructure. Kind: L -/
theorem Magnitude.shortest_spec (m : Magnitude) (h : m.units ≠ 0) :
    m.shortest.digits ≠ 0 ∧ nearest m.shortest.value = m.units := by
  unfold Magnitude.shortest
  cases hfind : (((List.range 17).flatMap fun k => candidates m.value (k + 1)).find? fun d =>
      d.digits ≠ 0 ∧ nearest d.value = m.units) with
  | some d =>
    have hd := List.find?_some hfind
    rw [decide_eq_true_eq] at hd
    exact hd
  | none =>
    have hexact : (Decimal.mk (m.units * 5 ^ scale) (-scale)).value = m.value := by
      have hten : (10 : ℚ) ^ (-scale : ℤ) = 1 / (2 ^ scale * 5 ^ scale) := by
        rw [zpow_neg, ← mul_pow, one_div]
        norm_num
      rw [Decimal.value, Magnitude.value, hten]
      push_cast
      field_simp
    rw [Option.getD_none, hexact, nearest_value]
    exact ⟨by positivity, rfl⟩

/-! ## The text read back -/

/-- What lies before the first `mark`, and behind it. Source: none: infrastructure. Kind: D -/
def cut (mark : CodeUnit) (s : JsString) : JsString × JsString :=
  (s.takeWhile (· ≠ mark), (s.dropWhile (· ≠ mark)).drop 1)

/-- The power of ten after the `e`. Source: none: infrastructure. Kind: D -/
def readExponent : JsString → ℤ
  | [] => 0
  | sign :: ds => if sign = unit '-' then -readDigits ds else readDigits ds

/-- The value of the text of a number without its sign. Source: none: infrastructure. Kind: D -/
def readNumber (t : JsString) : ℚ :=
  let (mantissa, exponent) := cut (unit 'e') t
  let (whole, fraction) := cut (unit '.') mantissa
  readDigits (whole ++ fraction) * 10 ^ (readExponent exponent - fraction.length)

/-- A part that begins with a mark, when there is one. Source: none: infrastructure. Kind: D -/
def marked (mark : CodeUnit) : Option JsString → JsString
  | none => []
  | some s => mark :: s

section reading

/-- Digits hold no mark. Source: none: infrastructure. Kind: L -/
theorem not_mem_of_isDigitUnit {s : JsString} {mark : CodeUnit} (hs : ∀ u ∈ s, isDigitUnit u = true)
    (hm : isDigitUnit mark = false) : mark ∉ s := by
  intro hmem
  rw [hs mark hmem] at hm
  cases hm

/-- A cut gives back what was put together. Source: none: infrastructure. Kind: L -/
theorem cut_marked {s : JsString} {mark : CodeUnit} (h : mark ∉ s) (t : Option JsString) :
    cut mark (s ++ marked mark t) = (s, t.getD []) := by
  have hs : ∀ u ∈ s, decide (u ≠ mark) = true := fun u hu =>
    decide_eq_true fun hum => h (hum ▸ hu)
  rw [cut, List.takeWhile_append_of_pos hs, List.dropWhile_append_of_pos hs]
  cases t <;> simp [marked]

/-- Digits, digits behind a point, and an exponent. Source: none: infrastructure. Kind: L -/
theorem readNumber_of (whole : JsString) (fraction exponent : Option JsString)
    (hw : ∀ u ∈ whole, isDigitUnit u = true)
    (hf : ∀ u ∈ fraction.getD [], isDigitUnit u = true) :
    readNumber (whole ++ marked (unit '.') fraction ++ marked (unit 'e') exponent) =
      readDigits (whole ++ fraction.getD []) *
        10 ^ (readExponent (exponent.getD []) - (fraction.getD []).length) := by
  have hpoint : unit '.' ∉ whole := not_mem_of_isDigitUnit hw (by decide)
  have hmark : unit 'e' ∉ whole ++ marked (unit '.') fraction := by
    have he : unit 'e' ≠ unit '.' := by decide
    have hew : unit 'e' ∉ whole := not_mem_of_isDigitUnit hw (by decide)
    have hef : unit 'e' ∉ fraction.getD [] := not_mem_of_isDigitUnit hf (by decide)
    cases fraction <;> simp_all [marked]
  simp only [readNumber, cut_marked hmark, cut_marked hpoint]

/-- A signed power of ten is read back. Source: none: infrastructure. Kind: L -/
theorem readExponent_powerText (n : ℤ) : readExponent (powerText n) = n := by
  have hne : unit '+' ≠ unit '-' := by decide
  by_cases hn : 0 ≤ n
  · simp [readExponent, powerText, hn, hne]
  · simp only [readExponent, powerText, if_neg hn, if_true, readDigits_decimalDigits]
    omega

/-- A power of ten with a whole exponent. Source: none: infrastructure. Kind: L -/
theorem zpow_toNat {n : ℤ} (h : 0 ≤ n) : ((10 ^ n.toNat : ℕ) : ℚ) = 10 ^ n := by
  rw [Nat.cast_pow, Nat.cast_ofNat, ← zpow_natCast, Int.toNat_of_nonneg h]

/-- **A decimal is read back from its text.** Source: none: ECMAScript `Number::toString`. Kind: L -/
theorem readNumber_text (d : Decimal) (h : d.digits ≠ 0) : readNumber d.text = d.value := by
  have hds : ∀ u ∈ decimalDigits d.digits, isDigitUnit u = true := fun u hu => isDigitUnit_of_mem hu
  have htake : ∀ k, ∀ u ∈ (decimalDigits d.digits).take k, isDigitUnit u = true := fun k u hu =>
    hds u (List.mem_of_mem_take hu)
  have hdrop : ∀ k, ∀ u ∈ (decimalDigits d.digits).drop k, isDigitUnit u = true := fun k u hu =>
    hds u (List.mem_of_mem_drop hu)
  have hz : ∀ k, ∀ u ∈ List.replicate k (unit '0'), isDigitUnit u = true := fun k u hu => by
    rw [List.eq_of_mem_replicate hu]
    decide
  have hlen : 0 < (decimalDigits d.digits).length :=
    List.length_pos_iff.mpr (decimalDigits_ne_nil h)
  have hread := readDigits_decimalDigits d.digits
  simp only [Decimal.text]
  generalize decimalDigits d.digits = ds at *
  split_ifs with hint hpoint hsmall hone
  · -- the digits, then zeros up to the point
    have hwhole := readNumber_of (ds ++ List.replicate d.exponent.toNat (unit '0')) none none
      (fun u hu => (List.mem_append.mp hu).elim (hds u) (hz _ u)) (by simp)
    have hexp : (d.exponent + ds.length - ds.length).toNat = d.exponent.toNat := by omega
    simp only [marked, List.append_nil, Option.getD_none, readExponent, List.length_nil] at hwhole
    rw [hexp, hwhole, readDigits_append, hread, readDigits_zeros, List.length_replicate, Nat.add_zero,
      Nat.cast_mul, zpow_toNat (by omega), Decimal.value]
    simp
  · -- the point among the digits
    have hwhole := readNumber_of _ (some (ds.drop (d.exponent + ds.length).toNat)) none
      (htake (d.exponent + ds.length).toNat) (hdrop _)
    have hexp : (0 : ℤ) - (ds.length - (d.exponent + ds.length).toNat : ℕ) = d.exponent := by omega
    simp only [marked, List.append_nil, Option.getD_none, Option.getD_some, readExponent,
      List.take_append_drop, List.length_drop, hexp, hread] at hwhole
    exact hwhole
  · -- zeros between the point and the digits
    have hwhole := readNumber_of [unit '0']
      (some (List.replicate (-(d.exponent + ds.length)).toNat (unit '0') ++ ds)) none
      (hz 1) (fun u hu => (List.mem_append.mp hu).elim (hz _ u) (hds u))
    have hexp : (0 : ℤ) - ((-(d.exponent + ds.length)).toNat + ds.length : ℕ) = d.exponent := by omega
    have hdigits : readDigits ([unit '0'] ++
        (List.replicate (-(d.exponent + ds.length)).toNat (unit '0') ++ ds)) = d.digits := by
      rw [readDigits_append, readDigits_append, readDigits_zeros, hread, ← List.replicate_one,
        readDigits_zeros]
      ring
    simp only [marked, List.append_nil, Option.getD_none, Option.getD_some, readExponent,
      List.length_append, List.length_replicate, hexp, hdigits] at hwhole
    simpa [Decimal.value] using hwhole
  · -- one digit and an exponent
    have hwhole := readNumber_of _ none (some (powerText (d.exponent + ds.length - 1))) hds (by simp)
    have hexp : d.exponent + ds.length - 1 - (0 : ℕ) = d.exponent := by omega
    simp only [marked, List.append_nil, Option.getD_none, Option.getD_some, readExponent_powerText,
      List.length_nil, hexp, hread] at hwhole
    exact hwhole
  · -- a digit, a point, digits and an exponent
    have hwhole := readNumber_of _ (some (ds.drop 1)) (some (powerText (d.exponent + ds.length - 1)))
      (htake 1) (hdrop 1)
    have hexp : d.exponent + ds.length - 1 - (ds.length - 1 : ℕ) = d.exponent := by omega
    simp only [marked, Option.getD_some, readExponent_powerText, List.take_append_drop, List.length_drop, hexp,
      hread] at hwhole
    exact hwhole

/-- **A number is told by its text.** The text of a magnitude, read and rounded, is the magnitude.
Source: none: ECMAScript `Number::toString`. Kind: L -/
theorem nearest_readNumber_text (m : Magnitude) : nearest (readNumber m.text) = m.units := by
  unfold Magnitude.text
  split
  · rename_i hzero
    have hread : readNumber [unit '0'] = 0 := by
      have hof := readNumber_of (List.replicate 1 (unit '0')) none none
        (fun u hu => by rw [List.eq_of_mem_replicate hu]; decide) (by simp)
      simp only [marked, Option.getD_none, List.append_nil, readDigits_zeros] at hof
      simpa using hof
    rw [hread, hzero]
    simp [nearest, roundHalfEven]
  · rename_i hne
    obtain ⟨hdigits, hnearest⟩ := m.shortest_spec hne
    rw [readNumber_text _ hdigits, hnearest]

end reading

/-! ## Texts told apart -/

/-- What the text of a number is made of. Source: none: infrastructure. Kind: D -/
def isNumberUnit (u : CodeUnit) : Bool :=
  isDigitUnit u || [unit '.', unit 'e', unit '+', unit '-'].contains u

section telling

/-- A digit is part of a number. Source: none: infrastructure. Kind: L -/
theorem isNumberUnit_of_isDigitUnit {u : CodeUnit} (h : isDigitUnit u = true) : isNumberUnit u = true := by
  simp [isNumberUnit, h]

/-- The text of a decimal is made of the units of numbers. Source: none: infrastructure. Kind: L -/
theorem Decimal.isNumberUnit_of_mem {d : Decimal} {u : CodeUnit} (h : u ∈ d.text) :
    isNumberUnit u = true := by
  have hds : ∀ n, ∀ v ∈ decimalDigits n, isNumberUnit v = true := fun n v hv =>
    isNumberUnit_of_isDigitUnit (isDigitUnit_of_mem hv)
  have hzeros : ∀ k, ∀ v ∈ List.replicate k (unit '0'), isNumberUnit v = true := fun k v hv => by
    rw [List.eq_of_mem_replicate hv]
    decide
  have hpower : ∀ n, ∀ v ∈ powerText n, isNumberUnit v = true := by
    intro n v hv
    rcases List.mem_cons.mp hv with rfl | hv
    · split <;> decide
    · exact hds _ v hv
  simp only [Decimal.text] at h
  split_ifs at h <;> simp only [List.mem_append, List.mem_cons, List.not_mem_nil, or_false] at h
  · exact h.elim (hds _ u) (hzeros _ u)
  · rcases h with h | rfl | h
    · exact hds _ u (List.mem_of_mem_take h)
    · decide
    · exact hds _ u (List.mem_of_mem_drop h)
  · rcases h with ((rfl | rfl) | h) | h
    · decide
    · decide
    · exact hzeros _ u h
    · exact hds _ u h
  · rcases h with h | rfl | h
    · exact hds _ u h
    · decide
    · exact hpower _ u h
  · rcases h with (h | rfl | h) | rfl | h
    · exact hds _ u (List.mem_of_mem_take h)
    · decide
    · exact hds _ u (List.mem_of_mem_drop h)
    · decide
    · exact hpower _ u h

/-- The text of a decimal begins with a digit. Source: none: infrastructure. Kind: L -/
theorem Decimal.text_head (d : Decimal) (h : d.digits ≠ 0) :
    ∃ u s, d.text = u :: s ∧ isDigitUnit u = true := by
  obtain ⟨u, ds, hcons⟩ := List.exists_cons_of_ne_nil (decimalDigits_ne_nil h)
  have hu : isDigitUnit u = true := isDigitUnit_of_mem (n := d.digits) (by simp [hcons])
  simp only [Decimal.text, hcons]
  split_ifs with hint hpoint hsmall hone
  · exact ⟨u, _, rfl, hu⟩
  · obtain ⟨n, hn⟩ : ∃ n, (d.exponent + (u :: ds).length).toNat = n + 1 :=
      ⟨(d.exponent + (u :: ds).length).toNat - 1, by omega⟩
    rw [hn]
    exact ⟨u, _, rfl, hu⟩
  · exact ⟨unit '0', _, rfl, by decide⟩
  · exact ⟨u, _, rfl, hu⟩
  · exact ⟨u, _, rfl, hu⟩

/-- So is the text of a magnitude. Source: none: infrastructure. Kind: L -/
theorem Magnitude.isNumberUnit_of_mem {m : Magnitude} {u : CodeUnit} (h : u ∈ m.text) :
    isNumberUnit u = true := by
  unfold Magnitude.text at h
  split at h
  · rw [List.mem_singleton.mp h]
    decide
  · exact Decimal.isNumberUnit_of_mem h

/-- It begins with a digit. Source: none: infrastructure. Kind: L -/
theorem Magnitude.text_head (m : Magnitude) : ∃ u s, m.text = u :: s ∧ isDigitUnit u = true := by
  unfold Magnitude.text
  split
  · exact ⟨unit '0', [], rfl, by decide⟩
  · rename_i hne
    exact Decimal.text_head _ (m.shortest_spec hne).1

/-- Magnitudes are told apart by their texts. Source: none: infrastructure. Kind: L -/
theorem Magnitude.text_inj {m n : Magnitude} (h : m.text = n.text) : m = n := by
  apply Magnitude.ext
  rw [← nearest_readNumber_text m, ← nearest_readNumber_text n, h]

/-- No text of a magnitude begins with a minus. Source: none: infrastructure. Kind: L -/
theorem Magnitude.text_ne_minus (m : Magnitude) (s : JsString) : m.text ≠ unit '-' :: s := by
  obtain ⟨u, t, hm, hu⟩ := m.text_head
  rw [hm]
  intro h
  rw [(List.cons_eq_cons.mp h).1] at hu
  revert hu
  decide

/-- **Finite numbers are told apart by their texts**, up to the sign of zero.
Source: none: ECMAScript `Number::toString`. Kind: L -/
theorem Number.text_inj {a b : Bool} {m n : Magnitude} :
    (Number.finite a m).text = (Number.finite b n).text ↔
      (Number.finite a m).eq (Number.finite b n) = true := by
  constructor
  · intro h
    simp only [Number.text] at h
    split_ifs at h with ha hb hb
    · have hmn := Magnitude.text_inj (List.cons_eq_cons.mp h).2
      simp [Number.eq, hmn, ha.1, hb.1]
    · exact absurd h.symm (n.text_ne_minus _)
    · exact absurd h (m.text_ne_minus _)
    · have hmn := Magnitude.text_inj h
      subst hmn
      by_cases hz : m.units = 0
      · simp [Number.eq, hz]
      · have haf : a = false := by simpa [hz] using ha
        have hbf : b = false := by simpa [hz] using hb
        simp [Number.eq, haf, hbf]
  · intro h
    simp only [Number.eq, Bool.and_eq_true, Bool.or_eq_true, beq_iff_eq] at h
    obtain ⟨hunits, hsign⟩ := h
    have hmn : m = n := Magnitude.ext hunits
    subst hmn
    rcases hsign with rfl | hz
    · rfl
    · simp [Number.text, hz]

/-- A finite number is written with the units of numbers. Source: none: infrastructure. Kind: L -/
theorem Number.isNumberUnit_of_mem {a : Bool} {m : Magnitude} {u : CodeUnit}
    (h : u ∈ (Number.finite a m).text) : isNumberUnit u = true := by
  simp only [Number.text] at h
  split at h
  · rcases List.mem_cons.mp h with rfl | h
    · decide
    · exact Magnitude.isNumberUnit_of_mem h
  · exact Magnitude.isNumberUnit_of_mem h

/-- It is written with at least one. Source: none: infrastructure. Kind: L -/
theorem Number.text_ne_nil {a : Bool} {m : Magnitude} : (Number.finite a m).text ≠ [] := by
  obtain ⟨u, s, hm, -⟩ := m.text_head
  simp only [Number.text]
  split <;> simp [hm]

end telling

end TrainsAndTracks.Found
