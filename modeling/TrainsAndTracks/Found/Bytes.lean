import Mathlib.Tactic.SplitIfs
import TrainsAndTracks.Found.Utf16

/-!
# Strings in bytes and in Base64

A string is sent in UTF-8, and bytes are put into a JSON document in Base64.

* `utf8Bytes`, `utf8Decode`, `decodeBody` — UTF-8 out and in; a reader replaces what is ill formed and, of
  the body of a request, takes a byte order mark away.
* `toBase64`, `ofBase64` — Base64 out and in; a reader skips what is no digit.

`utf8Decode_utf8Bytes` and `ofBase64_toBase64` are the round trips.
-/

namespace TrainsAndTracks.Found

/-! ## UTF-8 -/

/-- The bytes of a string. Source: none: infrastructure. Kind: D -/
def utf8Bytes (s : JsString) : List UInt8 := (utf8 s).data.toList

/-- Where a decoder stands: how many bytes a character still needs, its bits so far, and the bounds of the
next byte. Source: none: the Encoding standard, UTF-8 decoder. Kind: D -/
structure Utf8State where
  needed : ℕ
  point : ℕ
  lower : ℕ
  upper : ℕ

/-- Between characters. Source: none: the Encoding standard, UTF-8 decoder. Kind: D -/
def Utf8State.start : Utf8State := ⟨0, 0, 0x80, 0xBF⟩

/-- A byte between characters. Source: none: the Encoding standard, UTF-8 decoder. Kind: D -/
def utf8First (b : ℕ) : List Char × Utf8State :=
  if b ≤ 0x7F then ([Char.ofNat b], .start)
  else if 0xC2 ≤ b ∧ b ≤ 0xDF then ([], ⟨1, b % 0x20, 0x80, 0xBF⟩)
  else if 0xE0 ≤ b ∧ b ≤ 0xEF then
    ([], ⟨2, b % 0x10, if b = 0xE0 then 0xA0 else 0x80, if b = 0xED then 0x9F else 0xBF⟩)
  else if 0xF0 ≤ b ∧ b ≤ 0xF4 then
    ([], ⟨3, b % 0x08, if b = 0xF0 then 0x90 else 0x80, if b = 0xF4 then 0x8F else 0xBF⟩)
  else ([replacement], .start)

/-- A byte: one out of bounds ends an ill-formed character and begins the next.
Source: none: the Encoding standard, UTF-8 decoder. Kind: D -/
def utf8Step (st : Utf8State) (b : ℕ) : List Char × Utf8State :=
  if st.needed = 0 then utf8First b
  else if st.lower ≤ b ∧ b ≤ st.upper then
    if st.needed = 1 then ([Char.ofNat (st.point * 0x40 + b % 0x40)], .start)
    else ([], ⟨st.needed - 1, st.point * 0x40 + b % 0x40, 0x80, 0xBF⟩)
  else (replacement :: (utf8First b).1, (utf8First b).2)

/-- The characters of bytes, from a state on. Source: none: the Encoding standard, UTF-8 decoder. Kind: D -/
def utf8Run : Utf8State → List UInt8 → List Char
  | st, [] => if st.needed = 0 then [] else [replacement]
  | st, b :: bs => (utf8Step st b.toNat).1 ++ utf8Run (utf8Step st b.toNat).2 bs

/-- The string of bytes, a byte order mark being a character. Source: none: the Encoding standard, UTF-8
decode without BOM. Kind: D -/
def utf8Decode (bs : List UInt8) : JsString := encode (utf8Run .start bs)

/-- The string of the body of a request: without a byte order mark at its front.
Source: none: the Encoding standard, UTF-8 decode. Kind: D -/
def decodeBody (bs : List UInt8) : JsString :=
  if bs.take 3 = [0xEF, 0xBB, 0xBF] then utf8Decode (bs.drop 3) else utf8Decode bs

section utf8

/-- The bytes of a string, character by character. Source: none: infrastructure. Kind: L -/
theorem utf8Bytes_eq (s : JsString) : utf8Bytes s = (decode s).flatMap String.utf8EncodeChar := by
  rw [utf8Bytes, utf8, String.toUTF8_eq_toByteArray, String.toByteArray_ofList, List.utf8Encode,
    List.toList_data_toByteArray]

/-- A byte given by its number. Source: none: infrastructure. Kind: L -/
theorem toNat_byte {n : ℕ} (h : n < 0x100) : (UInt8.ofNat n).toNat = n := UInt8.toNat_ofNat_of_lt' h

/-- A byte that ends a character within its bounds. Source: none: the Encoding standard, UTF-8 decoder.
Kind: L -/
theorem utf8Run_last {p lo hi d n : ℕ} {bs : List UInt8} (hd : d < 0x40) (hlo : lo ≤ d + 0x80)
    (hhi : d + 0x80 ≤ hi) (hn : p * 0x40 + d = n) :
    utf8Run ⟨1, p, lo, hi⟩ (UInt8.ofNat (d + 0x80) :: bs) = Char.ofNat n :: utf8Run .start bs := by
  have hbyte : (UInt8.ofNat (d + 0x80)).toNat = d + 0x80 := toNat_byte (by omega)
  have hmod : (d + 0x80) % 0x40 = d := by omega
  simp only [utf8Run, utf8Step, hbyte, hmod, hn, hlo, hhi, and_self, if_true]
  simp

/-- A byte that goes on with a character within its bounds. Source: none: the Encoding standard, UTF-8
decoder. Kind: L -/
theorem utf8Run_next {k p lo hi d n : ℕ} {bs : List UInt8} (hd : d < 0x40) (hlo : lo ≤ d + 0x80)
    (hhi : d + 0x80 ≤ hi) (hn : p * 0x40 + d = n) :
    utf8Run ⟨k + 2, p, lo, hi⟩ (UInt8.ofNat (d + 0x80) :: bs) = utf8Run ⟨k + 1, n, 0x80, 0xBF⟩ bs := by
  have hbyte : (UInt8.ofNat (d + 0x80)).toNat = d + 0x80 := toNat_byte (by omega)
  have hmod : (d + 0x80) % 0x40 = d := by omega
  simp only [utf8Run, utf8Step, hbyte, hmod, hn, hlo, hhi, and_self, if_true]
  simp

/-- A byte that begins a character. Source: none: the Encoding standard, UTF-8 decoder. Kind: L -/
theorem utf8Run_first {b : ℕ} {bs : List UInt8} (hb : b < 0x100) :
    utf8Run .start (UInt8.ofNat b :: bs) = (utf8First b).1 ++ utf8Run (utf8First b).2 bs := by
  simp [utf8Run, utf8Step, Utf8State.start, toNat_byte hb]

/-- **The bytes of a character are read as it.** Source: none: the Encoding standard. Kind: L -/
theorem utf8Run_utf8EncodeChar (c : Char) (bs : List UInt8) :
    utf8Run .start (String.utf8EncodeChar c ++ bs) = c :: utf8Run .start bs := by
  have hvalid : c.val.toNat.isValidChar := c.valid
  have hc : Char.ofNat c.val.toNat = c := Char.ofNat_toNat c
  unfold Nat.isValidChar at hvalid
  unfold String.utf8EncodeChar
  generalize c.val.toNat = v at hvalid hc
  rw [← hc]
  simp only
  split_ifs with h1 h2 h3
  · rw [List.cons_append, utf8Run_first (by omega), utf8First, if_pos h1]
    rfl
  · have hlow : ¬ v / 64 % 0x20 + 0xC0 ≤ 0x7F := by omega
    have htwo : 0xC2 ≤ v / 64 % 0x20 + 0xC0 ∧ v / 64 % 0x20 + 0xC0 ≤ 0xDF := by omega
    rw [List.cons_append, utf8Run_first (by omega), utf8First, if_neg hlow, if_pos htwo]
    exact utf8Run_last (by omega) (by omega) (by omega) (by omega)
  · have hlow : ¬ v / 4096 % 0x10 + 0xE0 ≤ 0x7F := by omega
    have htwo : ¬ (0xC2 ≤ v / 4096 % 0x10 + 0xE0 ∧ v / 4096 % 0x10 + 0xE0 ≤ 0xDF) := by omega
    have hthree : 0xE0 ≤ v / 4096 % 0x10 + 0xE0 ∧ v / 4096 % 0x10 + 0xE0 ≤ 0xEF := by omega
    rw [List.cons_append, utf8Run_first (by omega), utf8First, if_neg hlow, if_neg htwo, if_pos hthree]
    -- the bounds keep overlong forms and surrogates out
    refine (utf8Run_next (k := 0) (n := v / 64) (by omega) ?_ ?_ (by omega)).trans ?_
    · split <;> omega
    · split <;> omega
    · exact utf8Run_last (by omega) (by omega) (by omega) (by omega)
  · have hlow : ¬ v / 262144 % 0x08 + 0xF0 ≤ 0x7F := by omega
    have htwo : ¬ (0xC2 ≤ v / 262144 % 0x08 + 0xF0 ∧ v / 262144 % 0x08 + 0xF0 ≤ 0xDF) := by omega
    have hthree : ¬ (0xE0 ≤ v / 262144 % 0x08 + 0xF0 ∧ v / 262144 % 0x08 + 0xF0 ≤ 0xEF) := by omega
    have hfour : 0xF0 ≤ v / 262144 % 0x08 + 0xF0 ∧ v / 262144 % 0x08 + 0xF0 ≤ 0xF4 := by omega
    rw [List.cons_append, utf8Run_first (by omega), utf8First, if_neg hlow, if_neg htwo, if_neg hthree,
      if_pos hfour]
    -- the bounds keep overlong forms and what is beyond U+10FFFF out
    refine (utf8Run_next (k := 1) (n := v / 4096) (by omega) ?_ ?_ (by omega)).trans ?_
    · split <;> omega
    · split <;> omega
    · refine (utf8Run_next (k := 0) (n := v / 64) (by omega) (by omega) (by omega) (by omega)).trans ?_
      exact utf8Run_last (by omega) (by omega) (by omega) (by omega)

/-- **A well-formed string comes back from its bytes.** Source: none: the Encoding standard. Kind: P -/
theorem utf8Decode_utf8Bytes {s : JsString} (h : WellFormed s) : utf8Decode (utf8Bytes s) = s := by
  obtain ⟨cs, rfl⟩ := h
  have hrun : utf8Run .start (cs.flatMap String.utf8EncodeChar) = cs := by
    induction cs with
    | nil => rfl
    | cons c cs ih => rw [List.flatMap_cons, utf8Run_utf8EncodeChar, ih]
  rw [utf8Decode, utf8Bytes_eq, decode_encode, hrun]

/-- The body of a request that begins with a character of ASCII has no byte order mark.
Source: none: the Encoding standard. Kind: L -/
theorem decodeBody_utf8Bytes {c : Char} {s : JsString} (hc : c.toNat < 0x80) (h : WellFormed (unit c :: s)) :
    decodeBody (utf8Bytes (unit c :: s)) = unit c :: s := by
  have hplane : c.toNat < 0x10000 := by omega
  have hhigh : isHigh (unit c) = false := (Bool.or_eq_false_iff.mp (isSurrogate_unit hplane)).1
  have hone : String.utf8EncodeChar c = [UInt8.ofNat c.toNat] := if_pos (Nat.le_of_lt_succ hc)
  have hbytes : utf8Bytes (unit c :: s) = UInt8.ofNat c.toNat :: utf8Bytes s := by
    rw [utf8Bytes_eq, utf8Bytes_eq, decode_cons_of_not_high hhigh, single_unit hplane, List.flatMap_cons,
      hone, List.singleton_append]
  have hmark : (utf8Bytes (unit c :: s)).take 3 ≠ [0xEF, 0xBB, 0xBF] := by
    rw [hbytes]
    intro htake
    have hbyte := congrArg UInt8.toNat (List.cons_eq_cons.mp htake).1
    rw [toNat_byte (by omega)] at hbyte
    change c.toNat = 0xEF at hbyte
    omega
  rw [decodeBody, if_neg hmark, utf8Decode_utf8Bytes h]

end utf8

/-! ## Base64 -/

/-- A digit. Source: none: RFC 4648. Kind: D -/
def base64Digit (d : ℕ) : CodeUnit :=
  if d < 26 then codeUnit (0x41 + d)
  else if d < 52 then codeUnit (0x61 + (d - 26))
  else if d < 62 then codeUnit (0x30 + (d - 52))
  else if d = 62 then unit '+'
  else unit '/'

/-- Bytes in Base64, padded. Source: none: RFC 4648. Kind: D -/
def toBase64 : List UInt8 → JsString
  | [] => []
  | [a] => [base64Digit (a.toNat / 4), base64Digit (a.toNat % 4 * 16), unit '=', unit '=']
  | [a, b] => [base64Digit (a.toNat / 4), base64Digit (a.toNat % 4 * 16 + b.toNat / 16),
      base64Digit (b.toNat % 16 * 4), unit '=']
  | a :: b :: c :: bs => base64Digit (a.toNat / 4) :: base64Digit (a.toNat % 4 * 16 + b.toNat / 16) ::
      base64Digit (b.toNat % 16 * 4 + c.toNat / 64) :: base64Digit (c.toNat % 64) :: toBase64 bs

/-- The value of a digit of either alphabet. Source: none: Node.js `Buffer.from`. Kind: D -/
def base64Value (u : CodeUnit) : Option ℕ :=
  if 0x41 ≤ u.val ∧ u.val ≤ 0x5A then some (u.val - 0x41)
  else if 0x61 ≤ u.val ∧ u.val ≤ 0x7A then some (u.val - 0x61 + 26)
  else if 0x30 ≤ u.val ∧ u.val ≤ 0x39 then some (u.val - 0x30 + 52)
  else if u = unit '+' ∨ u = unit '-' then some 62
  else if u = unit '/' ∨ u = unit '_' then some 63
  else none

/-- The bytes of digits, what is left of the last byte thrown away. Source: none: Node.js `Buffer.from`.
Kind: D -/
def ofSextets : List ℕ → List UInt8
  | a :: b :: c :: d :: ds => UInt8.ofNat (a * 4 + b / 16) :: UInt8.ofNat (b % 16 * 16 + c / 4) ::
      UInt8.ofNat (c % 4 * 64 + d) :: ofSextets ds
  | [a, b, c] => [UInt8.ofNat (a * 4 + b / 16), UInt8.ofNat (b % 16 * 16 + c / 4)]
  | [a, b] => [UInt8.ofNat (a * 4 + b / 16)]
  | _ => []

/-- `Buffer.from(s, 'base64')`: the padding ends it, and what else is no digit is skipped.
Source: none: Node.js `Buffer.from`. Kind: D -/
def ofBase64 (s : JsString) : List UInt8 :=
  ofSextets ((s.takeWhile fun u => u != unit '=').filterMap base64Value)

section base64

/-- A digit has its value. Source: none: RFC 4648. Kind: L -/
theorem base64Value_base64Digit {d : ℕ} (h : d < 64) : base64Value (base64Digit d) = some d := by
  have hall : ∀ d : Fin 64, base64Value (base64Digit d.val) = some d.val := by decide
  exact hall ⟨d, h⟩

/-- It is no padding. Source: none: RFC 4648. Kind: L -/
theorem base64Digit_ne_padding {d : ℕ} (h : d < 64) : (base64Digit d != unit '=') = true := by
  have hall : ∀ d : Fin 64, (base64Digit d.val != unit '=') = true := by decide
  exact hall ⟨d, h⟩

/-- What a digit in front adds. Source: none: RFC 4648. Kind: L -/
theorem sextets_cons {d : ℕ} (h : d < 64) (s : JsString) :
    ((base64Digit d :: s).takeWhile fun u => u != unit '=').filterMap base64Value =
      d :: (s.takeWhile fun u => u != unit '=').filterMap base64Value := by
  rw [List.takeWhile_cons, if_pos (base64Digit_ne_padding h), List.filterMap_cons, base64Value_base64Digit h]

/-- The padding adds nothing. Source: none: RFC 4648. Kind: L -/
theorem sextets_padding (s : JsString) :
    ((unit '=' :: s).takeWhile fun u => u != unit '=').filterMap base64Value = [] := by
  rw [List.takeWhile_cons, if_neg (by simp), List.filterMap_nil]

/-- A byte put together again. Source: none: infrastructure. Kind: L -/
theorem ofNat_byte {a : UInt8} {n : ℕ} (h : n = a.toNat) : UInt8.ofNat n = a := by
  rw [h, UInt8.ofNat_toNat]

/-- **Bytes come back from Base64.** Source: none: RFC 4648. Kind: P -/
theorem ofBase64_toBase64 (bs : List UInt8) : ofBase64 (toBase64 bs) = bs := by
  unfold ofBase64
  fun_induction toBase64 bs with
  | case1 => rfl
  | case2 a =>
    have ha : a.toNat < 0x100 := a.toNat_lt
    rw [sextets_cons (by omega), sextets_cons (by omega), sextets_padding, ofSextets,
      ofNat_byte (a := a) (by omega)]
  | case3 a b =>
    have ha : a.toNat < 0x100 := a.toNat_lt
    have hb : b.toNat < 0x100 := b.toNat_lt
    rw [sextets_cons (by omega), sextets_cons (by omega), sextets_cons (by omega), sextets_padding, ofSextets,
      ofNat_byte (a := a) (by omega), ofNat_byte (a := b) (by omega)]
  | case4 a b c bs ih =>
    have ha : a.toNat < 0x100 := a.toNat_lt
    have hb : b.toNat < 0x100 := b.toNat_lt
    have hc : c.toNat < 0x100 := c.toNat_lt
    rw [sextets_cons (by omega), sextets_cons (by omega), sextets_cons (by omega), sextets_cons (by omega),
      ofSextets, ih, ofNat_byte (a := a) (by omega), ofNat_byte (a := b) (by omega),
      ofNat_byte (a := c) (by omega)]

/-- Bytes are written with digits. Source: none: RFC 4648. Kind: L -/
theorem toBase64_ne_nil {bs : List UInt8} (h : bs ≠ []) : toBase64 bs ≠ [] := by
  fun_cases toBase64 bs with
  | case1 => exact absurd rfl h
  | case2 a => simp
  | case3 a b => simp
  | case4 a b c bs => simp

end base64

end TrainsAndTracks.Found
