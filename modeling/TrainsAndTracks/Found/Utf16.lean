import Mathlib.Data.Fin.Basic
import Mathlib.Data.List.Basic

/-!
# Strings of UTF-16 code units

A JavaScript string is a list of code units, of which a high surrogate followed by a low one stands for one
character. A surrogate outside such a pair stands for none.

* `encode`, `decode` — characters to code units and back, a lone surrogate read as U+FFFD.
* `WellFormed` — no lone surrogate: the string is the encoding of some characters.
* `utf8` — the bytes a string is sent as.

`decode_encode` is the round trip, and `utf8_inj` what it is for: well-formed strings are told apart by
their bytes.
-/

namespace TrainsAndTracks.Found

/-- A UTF-16 code unit. Source: none: infrastructure. Kind: D -/
abbrev CodeUnit := Fin 0x10000

/-- A JavaScript string. Source: none: infrastructure. Kind: D -/
abbrev JsString := List CodeUnit

/-- The code unit of a number, modulo 2^16. Source: none: infrastructure. Kind: D -/
def codeUnit (n : ℕ) : CodeUnit := Fin.ofNat 0x10000 n

/-- The code unit of a character of the basic plane. Source: none: infrastructure. Kind: D -/
def unit (c : Char) : CodeUnit := codeUnit c.toNat

/-- A leading surrogate. Source: none: infrastructure. Kind: D -/
def isHigh (u : CodeUnit) : Bool := decide (0xD800 ≤ u.val) && decide (u.val ≤ 0xDBFF)

/-- A trailing surrogate. Source: none: infrastructure. Kind: D -/
def isLow (u : CodeUnit) : Bool := decide (0xDC00 ≤ u.val) && decide (u.val ≤ 0xDFFF)

/-- A surrogate. Source: none: infrastructure. Kind: D -/
def isSurrogate (u : CodeUnit) : Bool := isHigh u || isLow u

/-- U+FFFD. Source: none: infrastructure. Kind: D -/
def replacement : Char := Char.ofNat 0xFFFD

/-- The character of a code unit that stands alone. Source: none: infrastructure. Kind: D -/
def single (u : CodeUnit) : Char := if isSurrogate u then replacement else Char.ofNat u.val

/-- The character of a surrogate pair. Source: none: infrastructure. Kind: D -/
def paired (u v : CodeUnit) : Char :=
  Char.ofNat (0x10000 + (u.val - 0xD800) * 0x400 + (v.val - 0xDC00))

/-- The characters of a string. Source: none: infrastructure. Kind: D -/
def decode : JsString → List Char
  | [] => []
  | [u] => [single u]
  | u :: v :: s =>
    if isHigh u && isLow v then paired u v :: decode s else single u :: decode (v :: s)

/-- The code units of a character. Source: none: infrastructure. Kind: D -/
def encodeChar (c : Char) : JsString :=
  if c.toNat < 0x10000 then [unit c]
  else [codeUnit (0xD800 + (c.toNat - 0x10000) / 0x400), codeUnit (0xDC00 + (c.toNat - 0x10000) % 0x400)]

/-- The code units of a text. Source: none: infrastructure. Kind: D -/
def encode (cs : List Char) : JsString := cs.flatMap encodeChar

/-- The JavaScript string of a text. Source: none: infrastructure. Kind: D -/
def ofString (s : String) : JsString := encode s.toList

/-- A string without a lone surrogate. Source: none: infrastructure. Kind: D -/
def WellFormed (s : JsString) : Prop := ∃ cs, encode cs = s

/-- The bytes of a string, a lone surrogate sent as U+FFFD. Source: none: infrastructure. Kind: D -/
def utf8 (s : JsString) : ByteArray := (String.ofList (decode s)).toUTF8

section units

/-- The number of a code unit. Source: none: infrastructure. Kind: L -/
@[simp] theorem val_codeUnit {n : ℕ} (h : n < 0x10000) : (codeUnit n).val = n := Nat.mod_eq_of_lt h

/-- The number of a character given by its number. Source: none: infrastructure. Kind: L -/
theorem toNat_ofNat_of_valid {n : ℕ} (h : n.isValidChar) : (Char.ofNat n).toNat = n := by
  unfold Char.ofNat
  rw [dif_pos h]
  rfl

/-- The character of a code unit that is no surrogate. Source: none: infrastructure. Kind: L -/
theorem single_of_not {u : CodeUnit} (h : isSurrogate u = false) : single u = Char.ofNat u.val := by
  simp [single, h]

/-- A number below the surrogates or above them is a character. Source: none: infrastructure. Kind: L -/
theorem isValidChar_of_not {u : CodeUnit} (h : isSurrogate u = false) : u.val.isValidChar := by
  simp only [isSurrogate, isHigh, isLow, Bool.or_eq_false_iff, Bool.and_eq_false_iff,
    decide_eq_false_iff_not] at h
  have hu := u.isLt
  unfold Nat.isValidChar
  omega

/-- The number of the character of a code unit. Source: none: infrastructure. Kind: L -/
theorem toNat_single {u : CodeUnit} (h : isSurrogate u = false) : (single u).toNat = u.val := by
  rw [single_of_not h, toNat_ofNat_of_valid (isValidChar_of_not h)]

/-- A surrogate stands for no character. Source: none: infrastructure. Kind: L -/
theorem single_of_surrogate {u : CodeUnit} (h : isSurrogate u = true) : single u = replacement := by
  simp [single, h]

/-- A code unit stands for a character of the basic plane. Source: none: infrastructure. Kind: L -/
theorem toNat_single_lt (u : CodeUnit) : (single u).toNat < 0x10000 := by
  cases hu : isSurrogate u with
  | false =>
    rw [toNat_single hu]
    exact u.isLt
  | true =>
    rw [single_of_surrogate hu]
    decide

/-- Only U+0000 stands for U+0000. Source: none: infrastructure. Kind: L -/
theorem single_eq_nul {u : CodeUnit} : single u = Char.ofNat 0 ↔ u = codeUnit 0 := by
  constructor
  · intro h
    cases hu : isSurrogate u with
    | false =>
      apply Fin.ext
      rw [← toNat_single hu, h]
      rfl
    | true =>
      rw [single_of_surrogate hu] at h
      exact absurd h (by decide)
  · rintro rfl
    decide

/-- A character is no surrogate. Source: none: infrastructure. Kind: L -/
theorem isSurrogate_unit {c : Char} (h : c.toNat < 0x10000) : isSurrogate (unit c) = false := by
  have hc : c.toNat.isValidChar := c.valid
  unfold Nat.isValidChar at hc
  simp only [isSurrogate, isHigh, isLow, unit, val_codeUnit h, Bool.or_eq_false_iff,
    Bool.and_eq_false_iff, decide_eq_false_iff_not]
  omega

/-- The code unit of a character stands for it. Source: none: infrastructure. Kind: L -/
theorem single_unit {c : Char} (h : c.toNat < 0x10000) : single (unit c) = c := by
  rw [single_of_not (isSurrogate_unit h), unit, val_codeUnit h, Char.ofNat_toNat]

/-- A code unit that is no surrogate is the code unit of its character. Source: none: infrastructure.
Kind: L -/
theorem unit_single {u : CodeUnit} (h : isSurrogate u = false) : unit (single u) = u := by
  apply Fin.ext
  rw [unit, toNat_single h, val_codeUnit u.isLt]

/-- What is no leading surrogate stands alone. Source: none: infrastructure. Kind: L -/
theorem decode_cons_of_not_high {u : CodeUnit} (h : isHigh u = false) (s : JsString) :
    decode (u :: s) = single u :: decode s := by
  cases s <;> simp [decode, h]

end units

section coding

/-- Encoding goes character by character. Source: none: infrastructure. Kind: L -/
theorem encode_cons (c : Char) (cs : List Char) : encode (c :: cs) = encodeChar c ++ encode cs :=
  List.flatMap_cons

/-- Encoding goes text by text. Source: none: infrastructure. Kind: L -/
@[simp] theorem encode_append (cs ds : List Char) : encode (cs ++ ds) = encode cs ++ encode ds :=
  List.flatMap_append

/-- A character of the basic plane is one code unit. Source: none: infrastructure. Kind: L -/
theorem encodeChar_of_lt {c : Char} (h : c.toNat < 0x10000) : encodeChar c = [unit c] := if_pos h

/-- Any other is a surrogate pair. Source: none: infrastructure. Kind: L -/
theorem encodeChar_of_ge {c : Char} (h : ¬ c.toNat < 0x10000) :
    ∃ u v, encodeChar c = [u, v] ∧ isHigh u = true ∧ isLow v = true ∧ paired u v = c := by
  have hc : c.toNat < 0x110000 := by
    have hvalid : c.toNat.isValidChar := c.valid
    unfold Nat.isValidChar at hvalid
    omega
  have hu : (codeUnit (0xD800 + (c.toNat - 0x10000) / 0x400)).val =
      0xD800 + (c.toNat - 0x10000) / 0x400 := val_codeUnit (by omega)
  have hv : (codeUnit (0xDC00 + (c.toNat - 0x10000) % 0x400)).val =
      0xDC00 + (c.toNat - 0x10000) % 0x400 := val_codeUnit (by omega)
  have hsum : 0x10000 + (0xD800 + (c.toNat - 0x10000) / 0x400 - 0xD800) * 0x400 +
      (0xDC00 + (c.toNat - 0x10000) % 0x400 - 0xDC00) = c.toNat := by omega
  refine ⟨_, _, if_neg h, ?_, ?_, ?_⟩
  · simp only [isHigh, hu, Bool.and_eq_true, decide_eq_true_eq]
    omega
  · simp only [isLow, hv, Bool.and_eq_true, decide_eq_true_eq]
    omega
  · rw [paired, hu, hv, hsum, Char.ofNat_toNat]

/-- The first character is decoded first. Source: none: infrastructure. Kind: L -/
theorem decode_encodeChar (c : Char) (s : JsString) :
    decode (encodeChar c ++ s) = c :: decode s := by
  by_cases hc : c.toNat < 0x10000
  · have hhigh : isHigh (unit c) = false := (Bool.or_eq_false_iff.mp (isSurrogate_unit hc)).1
    rw [encodeChar_of_lt hc, List.singleton_append, decode_cons_of_not_high hhigh, single_unit hc]
  · obtain ⟨u, v, hcode, hu, hv, hpair⟩ := encodeChar_of_ge hc
    simp [hcode, decode, hu, hv, hpair]

/-- **The round trip.** The characters of an encoded text are the text. Source: none: infrastructure.
Kind: L -/
@[simp] theorem decode_encode (cs : List Char) : decode (encode cs) = cs := by
  induction cs with
  | nil => rfl
  | cons c cs ih => rw [encode_cons, decode_encodeChar, ih]

/-- A character for each code unit, at most. Source: none: infrastructure. Kind: L -/
theorem length_decode_le (s : JsString) : (decode s).length ≤ s.length := by
  fun_induction decode s with
  | case1 => simp
  | case2 u => simp
  | case3 u v s h ih => simp only [List.length_cons]; omega
  | case4 u v s h ih => simp only [List.length_cons] at ih ⊢; omega

/-- A string has the character U+0000 where it has the code unit. Source: none: infrastructure. Kind: L -/
theorem nul_mem_decode {s : JsString} : Char.ofNat 0 ∈ decode s ↔ codeUnit 0 ∈ s := by
  fun_induction decode s with
  | case1 => simp
  | case2 u => simpa [eq_comm] using single_eq_nul
  | case3 u v s h ih =>
    simp only [isHigh, isLow, Bool.and_eq_true, decide_eq_true_eq] at h
    have hvalid : (0x10000 + (u.val - 0xD800) * 0x400 + (v.val - 0xDC00)).isValidChar := by
      unfold Nat.isValidChar
      omega
    have hpair : Char.ofNat 0 ≠ paired u v := by
      intro heq
      have hnat := congrArg Char.toNat heq
      have hzero : (Char.ofNat 0).toNat = 0 := rfl
      rw [paired, toNat_ofNat_of_valid hvalid] at hnat
      omega
    have hu : codeUnit 0 ≠ u := by
      rintro rfl
      exact absurd h.1.1 (by decide)
    have hv : codeUnit 0 ≠ v := by
      rintro rfl
      exact absurd h.2.1 (by decide)
    simp [hpair, hu, hv, ih]
  | case4 u v s h ih =>
    rw [List.mem_cons, List.mem_cons, ih, eq_comm, single_eq_nul, eq_comm]

/-- Without surrogates every code unit is a character. Source: none: infrastructure. Kind: L -/
theorem decode_eq_map {s : JsString} (h : ∀ u ∈ s, isSurrogate u = false) : decode s = s.map single := by
  induction s with
  | nil => rfl
  | cons u s ih =>
    have hu : isHigh u = false := (Bool.or_eq_false_iff.mp (h u List.mem_cons_self)).1
    rw [decode_cons_of_not_high hu, ih fun v hv => h v (List.mem_cons_of_mem u hv), List.map_cons]

/-- Characters of the basic plane are their code units. Source: none: infrastructure. Kind: L -/
theorem map_single_encode {cs : List Char} (h : ∀ c ∈ cs, c.toNat < 0x10000) :
    (encode cs).map single = cs := by
  induction cs with
  | nil => rfl
  | cons c cs ih =>
    have hc := h c List.mem_cons_self
    have htail := ih fun d hd => h d (List.mem_cons_of_mem c hd)
    rw [encode_cons, encodeChar_of_lt hc, List.singleton_append, List.map_cons, single_unit hc, htail]

/-- A string with a code unit has a character. Source: none: infrastructure. Kind: L -/
@[simp] theorem decode_eq_nil {s : JsString} : decode s = [] ↔ s = [] := by
  fun_cases decode s <;> simp

end coding

section wellFormed

/-- Nothing is well formed. Source: none: infrastructure. Kind: L -/
@[simp] theorem WellFormed.nil : WellFormed [] := ⟨[], rfl⟩

/-- Well-formed strings one after the other are well formed. Source: none: infrastructure. Kind: L -/
theorem WellFormed.append {s t : JsString} (hs : WellFormed s) (ht : WellFormed t) :
    WellFormed (s ++ t) := by
  obtain ⟨cs, rfl⟩ := hs
  obtain ⟨ds, rfl⟩ := ht
  exact ⟨cs ++ ds, encode_append cs ds⟩

/-- A code unit that is no surrogate is well formed. Source: none: infrastructure. Kind: L -/
theorem WellFormed.singleton {u : CodeUnit} (h : isSurrogate u = false) : WellFormed [u] := by
  have hlt : (single u).toNat < 0x10000 := by
    rw [toNat_single h]
    exact u.isLt
  refine ⟨[single u], ?_⟩
  simp [encode, encodeChar, hlt, unit_single h]

/-- Code units none of which is a surrogate are well formed. Source: none: infrastructure. Kind: L -/
theorem WellFormed.of_forall {s : JsString} (h : ∀ u ∈ s, isSurrogate u = false) : WellFormed s := by
  induction s with
  | nil => exact .nil
  | cons u s ih =>
    have hs := ih fun v hv => h v (List.mem_cons_of_mem u hv)
    exact (WellFormed.singleton (h u List.mem_cons_self)).append hs

/-- A surrogate pair is well formed. Source: none: infrastructure. Kind: L -/
theorem WellFormed.pair {u v : CodeUnit} (hu : isHigh u = true) (hv : isLow v = true) :
    WellFormed [u, v] := by
  simp only [isHigh, isLow, Bool.and_eq_true, decide_eq_true_eq] at hu hv
  have hvalid : (0x10000 + (u.val - 0xD800) * 0x400 + (v.val - 0xDC00)).isValidChar := by
    unfold Nat.isValidChar
    omega
  have hnat : (paired u v).toNat = 0x10000 + (u.val - 0xD800) * 0x400 + (v.val - 0xDC00) := by
    rw [paired, toNat_ofNat_of_valid hvalid]
  have hhigh : codeUnit (0xD800 + ((paired u v).toNat - 0x10000) / 0x400) = u := by
    apply Fin.ext
    rw [hnat, val_codeUnit (by omega)]
    omega
  have hlow : codeUnit (0xDC00 + ((paired u v).toNat - 0x10000) % 0x400) = v := by
    apply Fin.ext
    rw [hnat, val_codeUnit (by omega)]
    omega
  refine ⟨[paired u v], ?_⟩
  have hbig : ¬ (paired u v).toNat < 0x10000 := by omega
  simp [encode, encodeChar, hbig, hhigh, hlow]

/-- **Well-formed strings are told apart by their bytes.** Source: none: infrastructure. Kind: L -/
theorem utf8_inj {s t : JsString} (hs : WellFormed s) (ht : WellFormed t) : utf8 s = utf8 t ↔ s = t := by
  obtain ⟨cs, rfl⟩ := hs
  obtain ⟨ds, rfl⟩ := ht
  constructor
  · intro h
    rw [utf8, utf8, String.toUTF8_eq_toByteArray, String.toUTF8_eq_toByteArray, String.toByteArray_inj,
      String.ofList_inj, decode_encode, decode_encode] at h
    rw [h]
  · intro h
    rw [h]

end wellFormed

end TrainsAndTracks.Found
