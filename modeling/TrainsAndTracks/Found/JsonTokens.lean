import TrainsAndTracks.Found.JsonText

/-!
# Reading the tokens of a JSON text

The two kinds of token with an inside: a string, with its escapes and without control characters, and a
number, by the grammar of JSON and rounded to binary64.

* `parseUnit`, `parseString` — the code units between quotes.
* `parseMagnitude`, `parseNumber` — a numeral, an infinity where it is too large.

`parseString_quoteBody` and `parseNumber_text` read back what `JSON.stringify` writes.
-/

namespace TrainsAndTracks.Found

open Json

/-! ## Strings -/

/-- The value of a hexadecimal digit in either case. Source: none: ECMAScript `HexDigit`. Kind: D -/
def hexUnit (u : CodeUnit) : Option ℕ :=
  if isDigitUnit u then some (u.val - 0x30)
  else if 0x61 ≤ u.val ∧ u.val ≤ 0x66 then some (u.val - 0x57)
  else if 0x41 ≤ u.val ∧ u.val ≤ 0x46 then some (u.val - 0x37)
  else none

/-- The code unit of a short escape: there are eight. Source: none: ECMAScript `JSONEscapeCharacter`.
Kind: D -/
def jsonUnescape (c : CodeUnit) : Option CodeUnit :=
  if [unit '"', unit '\\', unit '/', unit 'b', unit 'f', unit 'n', unit 'r', unit 't'].contains c then
    some (shortUnescape c)
  else none

/-- One code unit between quotes, and the rest: no control character, and a backslash only in an escape.
Source: none: ECMAScript `JSONStringCharacter`. Kind: D -/
def parseUnit : JsString → Option (CodeUnit × JsString)
  | [] => none
  | u :: s =>
    if u.val < 0x20 then none
    else if u ≠ unit '\\' then some (u, s)
    else match s with
      | [] => none
      | c :: s =>
        if c ≠ unit 'u' then (jsonUnescape c).map fun c => (c, s)
        else match s with
          | a :: b :: c :: d :: s => do
            let a ← hexUnit a
            let b ← hexUnit b
            let c ← hexUnit c
            let d ← hexUnit d
            return (codeUnit (a * 0x1000 + b * 0x100 + c * 0x10 + d), s)
          | _ => none

/-- What follows an opening quote, up to the closing one, in at most `n` steps.
Source: none: ECMAScript `JSONString`. Kind: D -/
def parseChars : ℕ → JsString → Option (JsString × JsString)
  | 0, _ => none
  | n + 1, s =>
    if s.head? = some (unit '"') then some ([], s.tail)
    else do
      let (u, s) ← parseUnit s
      let (us, s) ← parseChars n s
      return (u :: us, s)

/-- A string and the rest, behind the opening quote. Source: none: ECMAScript `JSONString`. Kind: D -/
def parseString (s : JsString) : Option (JsString × JsString) := parseChars s.length s

section strings

/-- A hexadecimal digit is read back. Source: none: infrastructure. Kind: L -/
theorem hexUnit_hexDigit {d : ℕ} (h : d < 0x10) : hexUnit (hexDigit d) = some d := by
  have hall : ∀ d : Fin 0x10, hexUnit (hexDigit d.val) = some d.val := by decide
  exact hall ⟨d, h⟩

/-- A short escape is read back. Source: none: infrastructure. Kind: L -/
theorem jsonUnescape_of_shortEscape {u c : CodeUnit} (h : shortEscape u = some c) :
    c ≠ unit 'u' ∧ jsonUnescape c = some u := by
  obtain ⟨hc, hread⟩ := shortUnescape_of_shortEscape h
  have hmem : [unit '"', unit '\\', unit '/', unit 'b', unit 'f', unit 'n', unit 'r', unit 't'].contains c =
      true := by
    unfold shortEscape at h
    split_ifs at h <;> (rw [← Option.some.inj h]; decide)
  exact ⟨hc, by rw [jsonUnescape, if_pos hmem, hread]⟩

/-- Anything but a control character and a backslash is read as it stands. Source: none: infrastructure.
Kind: L -/
theorem parseUnit_cons {u : CodeUnit} (hcontrol : ¬ u.val < 0x20) (hb : u ≠ unit '\\') (s : JsString) :
    parseUnit (u :: s) = some (u, s) := by
  simp [parseUnit, hcontrol, hb]

/-- A surrogate is read as it stands. Source: none: infrastructure. Kind: L -/
theorem parseUnit_surrogate {u : CodeUnit} (h : isSurrogate u = true) (s : JsString) :
    parseUnit (u :: s) = some (u, s) := by
  apply parseUnit_cons
  · simp only [isSurrogate, isHigh, isLow, Bool.or_eq_true, Bool.and_eq_true, decide_eq_true_eq] at h
    omega
  · rintro rfl
    exact absurd h (by decide)

/-- **An escaped code unit is read back.** Source: none: ECMAScript `QuoteJSONString`. Kind: L -/
theorem parseUnit_escape (u : CodeUnit) (s : JsString) : parseUnit (escape u ++ s) = some (u, s) := by
  have hb : ¬ (unit '\\').val < 0x20 := by decide
  unfold escape
  cases hshort : shortEscape u with
  | some c =>
    obtain ⟨hc, hread⟩ := jsonUnescape_of_shortEscape hshort
    simp [parseUnit, hb, hc, hread]
  | none =>
    simp only
    split
    · have hu := u.isLt
      have hsum : u.val / 0x1000 * 0x1000 + u.val / 0x100 % 0x10 * 0x100 + u.val / 0x10 % 0x10 * 0x10 +
          u.val % 0x10 = u.val := by omega
      have hcode : codeUnit u.val = u := Fin.ext (val_codeUnit hu)
      simp [parseUnit, unicodeEscape, hb, hexUnit_hexDigit (d := u.val / 0x1000) (by omega),
        hexUnit_hexDigit (d := u.val / 0x100 % 0x10) (by omega),
        hexUnit_hexDigit (d := u.val / 0x10 % 0x10) (by omega),
        hexUnit_hexDigit (d := u.val % 0x10) (by omega), hsum, hcode]
    · rename_i hplain
      simp only [Bool.or_eq_true, decide_eq_true_eq, not_or] at hplain
      exact parseUnit_cons hplain.1 (ne_of_shortEscape hshort).2 s

/-- No way to write a code unit begins with the closing quote. Source: none: infrastructure. Kind: L -/
theorem head?_escape (u : CodeUnit) (s : JsString) : (escape u ++ s).head? ≠ some (unit '"') := by
  intro h
  obtain ⟨t, ht⟩ : ∃ t, escape u ++ s = unit '"' :: t := by
    cases hes : escape u ++ s with
    | nil => simp [hes] at h
    | cons v t => exact ⟨t, by simpa [hes] using h⟩
  have hread := readUnit_escape u s
  rw [ht, readUnit_quote] at hread
  cases hread

/-- One step of the loop through a string. Source: none: infrastructure. Kind: L -/
theorem parseChars_step {n : ℕ} {s t r rest : JsString} {u : CodeUnit} (hq : s.head? ≠ some (unit '"'))
    (hu : parseUnit s = some (u, t)) (ht : parseChars n t = some (r, rest)) :
    parseChars (n + 1) s = some (u :: r, rest) := by
  simp [parseChars, hq, hu, ht]

/-- The characters of a quoted string are read back. Source: none: ECMAScript `QuoteJSONString`.
Kind: L -/
theorem parseChars_quoteBody (s r : JsString) :
    ∀ n, (quoteBody s).length < n → parseChars n (quoteBody s ++ unit '"' :: r) = some (s, r) := by
  have hescape : ∀ u, 0 < (escape u).length := by
    intro u
    apply List.length_pos_iff.mpr
    unfold escape
    split
    · simp
    · split <;> simp [unicodeEscape]
  have hquote : ∀ u, isSurrogate u = true → u ≠ unit '"' := by
    rintro u hu rfl
    exact absurd hu (by decide)
  fun_induction quoteBody s with
  | case1 =>
    intro n hn
    obtain ⟨n, rfl⟩ : ∃ m, n = m + 1 := ⟨n - 1, by omega⟩
    simp [parseChars]
  | case2 u =>
    intro n hn
    have hu := hescape u
    obtain ⟨n, rfl⟩ : ∃ m, n = m + 2 := ⟨n - 2, by omega⟩
    exact parseChars_step (head?_escape u _) (parseUnit_escape u _) (by simp [parseChars])
  | case3 u v s h ih =>
    intro n hn
    simp only [List.length_cons] at hn
    obtain ⟨n, rfl⟩ : ∃ m, n = m + 2 := ⟨n - 2, by omega⟩
    rw [Bool.and_eq_true] at h
    have hu : isSurrogate u = true := by simp [isSurrogate, h.1]
    have hv : isSurrogate v = true := by simp [isSurrogate, h.2]
    apply parseChars_step (by simpa using hquote u hu) (parseUnit_surrogate hu _)
    exact parseChars_step (by simpa using hquote v hv) (parseUnit_surrogate hv _) (ih n (by omega))
  | case4 u v s h ih =>
    intro n hn
    have hu := hescape u
    rw [List.length_append] at hn
    obtain ⟨n, rfl⟩ : ∃ m, n = m + 1 := ⟨n - 1, by omega⟩
    rw [List.append_assoc]
    exact parseChars_step (head?_escape u _) (parseUnit_escape u _) (ih n (by omega))

/-- **A quoted string is read back**, behind its opening quote. Source: none: ECMAScript `QuoteJSONString`.
Kind: L -/
theorem parseString_quoteBody (s r : JsString) :
    parseString (quoteBody s ++ unit '"' :: r) = some (s, r) := by
  apply parseChars_quoteBody
  simp

end strings

/-! ## Numbers -/

/-- Rounding stays below a whole number. Source: none: infrastructure. Kind: L -/
theorem roundHalfEven_le {q : ℚ} {n : ℕ} (h : q ≤ n) : roundHalfEven q ≤ n := by
  have hfloor : ⌊q⌋₊ ≤ n := Nat.floor_le_of_le h
  unfold roundHalfEven
  by_cases hlow : ⌊q⌋₊ = n
  · have hclose : q - ⌊q⌋₊ < 1 / 2 := by
      rw [hlow]
      linarith
    simp only [hclose, if_true, hfloor]
  · simp only
    split_ifs <;> omega

/-- What `nearest` returns has 53 significant bits at most. Source: none: infrastructure. Kind: L -/
theorem nearest_precise (q : ℚ) : 2 ^ (Nat.log2 (nearest q) - 52) ∣ nearest q := by
  simp only [nearest]
  generalize q * 2 ^ scale = y
  have hy : y < 2 ^ (Nat.log2 ⌊y⌋₊ + 1) := by
    have hlog : ⌊y⌋₊ + 1 ≤ 2 ^ (Nat.log2 ⌊y⌋₊ + 1) := Nat.lt_log2_self
    exact (Nat.lt_floor_add_one y).trans_le (mod_cast hlog)
  generalize he : Nat.log2 ⌊y⌋₊ - 52 = e
  have hsig : roundHalfEven (y / 2 ^ e) ≤ 2 ^ 53 := by
    apply roundHalfEven_le
    rw [div_le_iff₀ (by positivity)]
    have hpow : (2 : ℚ) ^ (Nat.log2 ⌊y⌋₊ + 1) ≤ 2 ^ (53 + e) := pow_le_pow_right₀ (by norm_num) (by omega)
    rw [pow_add 2 53 e] at hpow
    exact_mod_cast hy.le.trans hpow
  generalize roundHalfEven (y / 2 ^ e) = c at hsig
  rcases hsig.lt_or_eq with hlt | rfl
  · by_cases hzero : c * 2 ^ e = 0
    · simp [hzero]
    · have hlog : Nat.log2 (c * 2 ^ e) < 53 + e := by
        rw [Nat.log2_lt hzero, pow_add]
        exact Nat.mul_lt_mul_of_pos_right hlt (by positivity)
      exact (pow_dvd_pow 2 (by omega)).trans (Dvd.intro_left c rfl)
  · rw [← pow_add, Nat.log2_two_pow]
    exact pow_dvd_pow 2 (by omega)

/-- A signed binary64 number: an infinity beyond the largest. Source: none: ECMAScript `RoundMVResult`.
Kind: D -/
def toNumber (negative : Bool) (q : ℚ) : Number :=
  if h : nearest q < 2 ^ (1024 + scale) then .finite negative ⟨nearest q, nearest_precise q, h⟩
  else .infinite negative

/-- Digits, at least one, and the rest. Source: none: ECMAScript `DecimalDigits`. Kind: D -/
def parseDigits (s : JsString) : Option (JsString × JsString) :=
  if s.takeWhile isDigitUnit = [] then none
  else some (s.takeWhile isDigitUnit, s.dropWhile isDigitUnit)

/-- An optional sign and digits. Source: none: ECMAScript `SignedInteger`. Kind: D -/
def parseSigned (s : JsString) : Option (JsString × JsString) :=
  if s.head? = some (unit '+') ∨ s.head? = some (unit '-') then
    (parseDigits s.tail).map fun p => (s.take 1 ++ p.1, p.2)
  else (parseDigits s).map fun p => (unit '+' :: p.1, p.2)

/-- A part that is there when one of its marks is. Source: none: infrastructure. Kind: D -/
def parseMarked (marks : List CodeUnit) (part : JsString → Option (JsString × JsString)) (s : JsString) :
    Option (JsString × JsString) :=
  if s.head?.any (marks.contains ·) then part s.tail else some ([], s)

/-- A number without its sign: no zero before another digit. Source: none: ECMAScript `JSONNumber`.
Kind: D -/
def parseMagnitude (s : JsString) : Option (ℚ × JsString) := do
  let (whole, s) ← parseDigits s
  let (fraction, s) ← parseMarked [unit '.'] parseDigits s
  let (exponent, s) ← parseMarked [unit 'e', unit 'E'] parseSigned s
  if 1 < whole.length ∧ whole.head? = some (unit '0') then none
  else some (readDigits (whole ++ fraction) * 10 ^ (readExponent exponent - fraction.length), s)

/-- A number and the rest. Source: none: ECMAScript `JSONNumber`. Kind: D -/
def parseNumber (s : JsString) : Option (Number × JsString) :=
  if s.head? = some (unit '-') then (parseMagnitude s.tail).map fun p => (toNumber true p.1, p.2)
  else (parseMagnitude s).map fun p => (toNumber false p.1, p.2)

/-- A text that goes on no number: what may follow a value. Source: none: infrastructure. Kind: D -/
def Ends (r : JsString) : Prop := ∀ u ∈ r.head?, isNumberUnit u = false ∧ u ≠ unit 'E'

/-- The parts of a numeral: digits without a zero in front of others, digits behind a point, a sign and
digits behind an `e`. Source: none: ECMAScript `JSONNumber`. Kind: D -/
structure Numeral (whole : JsString) (fraction exponent : Option JsString) : Prop where
  digit : ∀ u ∈ whole, isDigitUnit u = true
  ne_nil : whole ≠ []
  leading : 1 < whole.length → whole.head? ≠ some (unit '0')
  fraction : ∀ ds ∈ fraction, ds ≠ [] ∧ ∀ u ∈ ds, isDigitUnit u = true
  exponent : ∀ e ∈ exponent, ∃ sign ds, e = sign :: ds ∧ (sign = unit '+' ∨ sign = unit '-') ∧ ds ≠ [] ∧
    ∀ u ∈ ds, isDigitUnit u = true

section numbers

variable {r : JsString}

/-- What ends a number is no digit. Source: none: infrastructure. Kind: L -/
theorem Ends.head (h : Ends r) : ∀ u ∈ r.head?, isDigitUnit u = false := by
  intro u hu
  by_contra hdigit
  have hnumber := isNumberUnit_of_isDigitUnit (by simpa using hdigit)
  rw [(h u hu).1] at hnumber
  cases hnumber

/-- What ends a number is no mark of one. Source: none: infrastructure. Kind: L -/
theorem Ends.not_marked (h : Ends r) {marks : List CodeUnit}
    (hmarks : ∀ u ∈ marks, isNumberUnit u = true ∨ u = unit 'E') :
    (r.head?.any (marks.contains ·)) = false := by
  cases r with
  | nil => rfl
  | cons u r =>
    obtain ⟨hnumber, hE⟩ := h u rfl
    have hnot : u ∉ marks := by
      intro hmem
      rcases hmarks u hmem with hu | hu
      · rw [hnumber] at hu
        cases hu
      · exact hE hu
    simpa using hnot

/-- Digits are read up to what is none. Source: none: infrastructure. Kind: L -/
theorem parseDigits_append {ds : JsString} (hds : ∀ u ∈ ds, isDigitUnit u = true) (hne : ds ≠ [])
    (hr : ∀ u ∈ r.head?, isDigitUnit u = false) : parseDigits (ds ++ r) = some (ds, r) := by
  have htake : (ds ++ r).takeWhile isDigitUnit = ds := by
    rw [List.takeWhile_append_of_pos hds]
    cases r with
    | nil => simp
    | cons u r => simp [hr u rfl]
  have hdrop : (ds ++ r).dropWhile isDigitUnit = r := by
    rw [List.dropWhile_append_of_pos hds]
    cases r with
    | nil => rfl
    | cons u r => simp [hr u rfl]
  rw [parseDigits, htake, hdrop, if_neg hne]

/-- A signed number is read up to what is no digit. Source: none: infrastructure. Kind: L -/
theorem parseSigned_append {sign : CodeUnit} {ds : JsString} (hsign : sign = unit '+' ∨ sign = unit '-')
    (hds : ∀ u ∈ ds, isDigitUnit u = true) (hne : ds ≠ []) (hr : ∀ u ∈ r.head?, isDigitUnit u = false) :
    parseSigned (sign :: ds ++ r) = some (sign :: ds, r) := by
  have hread := parseDigits_append hds hne hr
  simp [parseSigned, hsign, hread]

/-- A part with its mark is read. Source: none: infrastructure. Kind: L -/
theorem parseMarked_some {marks : List CodeUnit} {mark : CodeUnit} {s : JsString}
    {part : JsString → Option (JsString × JsString)} (hmark : mark ∈ marks) :
    parseMarked marks part (mark :: s) = part s := by
  simp [parseMarked, hmark]

/-- A part without its mark is left out. Source: none: infrastructure. Kind: L -/
theorem parseMarked_none {marks : List CodeUnit} {s : JsString}
    {part : JsString → Option (JsString × JsString)} (h : (s.head?.any (marks.contains ·)) = false) :
    parseMarked marks part s = some ([], s) := by
  simp only [parseMarked, h, Bool.false_eq_true, if_false]

/-- **A numeral is read**, and for what it stands. Source: none: ECMAScript `JSONNumber`. Kind: L -/
theorem Numeral.parseMagnitude {whole : JsString} {fraction exponent : Option JsString}
    (h : Numeral whole fraction exponent) (hr : Ends r) :
    parseMagnitude (whole ++ marked (unit '.') fraction ++ marked (unit 'e') exponent ++ r) =
      some (readNumber (whole ++ marked (unit '.') fraction ++ marked (unit 'e') exponent), r) := by
  have hfraction : ∀ u ∈ fraction.getD [], isDigitUnit u = true := by
    cases fraction with
    | none => simp
    | some ds => exact (h.fraction ds rfl).2
  -- behind the exponent
  have hexponent : parseMarked [unit 'e', unit 'E'] parseSigned (marked (unit 'e') exponent ++ r) =
      some (exponent.getD [], r) := by
    cases hsome : exponent with
    | none =>
      apply parseMarked_none
      apply hr.not_marked
      exact List.forall_mem_cons.mpr ⟨.inl (by decide), List.forall_mem_singleton.mpr (.inr rfl)⟩
    | some e =>
      obtain ⟨sign, ds, rfl, hsign, hne, hds⟩ := h.exponent e hsome
      exact (parseMarked_some (by simp)).trans (parseSigned_append hsign hds hne hr.head)
  have hhead : ∀ u ∈ (marked (unit 'e') exponent ++ r).head?, isDigitUnit u = false ∧ u ≠ unit '.' := by
    cases exponent with
    | none =>
      intro u hu
      refine ⟨hr.head u hu, ?_⟩
      rintro rfl
      exact absurd (hr _ hu).1 (by decide)
    | some e =>
      intro u hu
      obtain rfl : unit 'e' = u := by simpa [marked] using hu
      decide
  -- behind the point
  have hpoint : parseMarked [unit '.'] parseDigits
      (marked (unit '.') fraction ++ (marked (unit 'e') exponent ++ r)) =
      some (fraction.getD [], marked (unit 'e') exponent ++ r) := by
    cases hsome : fraction with
    | none =>
      apply parseMarked_none
      change (marked (unit 'e') exponent ++ r).head?.any _ = false
      generalize marked (unit 'e') exponent ++ r = rest at hhead ⊢
      cases rest with
      | nil => rfl
      | cons u rest => simpa using (hhead u rfl).2
    | some ds =>
      obtain ⟨hne, hds⟩ := h.fraction ds hsome
      exact (parseMarked_some (by simp)).trans (parseDigits_append hds hne fun u hu => (hhead u hu).1)
  have hwhole : parseDigits (whole ++ (marked (unit '.') fraction ++ (marked (unit 'e') exponent ++ r))) =
      some (whole, marked (unit '.') fraction ++ (marked (unit 'e') exponent ++ r)) := by
    apply parseDigits_append h.digit h.ne_nil
    cases fraction with
    | none => exact fun u hu => (hhead u hu).1
    | some ds =>
      intro u hu
      obtain rfl : unit '.' = u := by simpa [marked] using hu
      decide
  have hleading : ¬ (1 < whole.length ∧ whole.head? = some (unit '0')) := fun hzero =>
    h.leading hzero.1 hzero.2
  rw [readNumber_of whole fraction exponent h.digit hfraction]
  simp only [List.append_assoc, Found.parseMagnitude, hwhole, hpoint, hexponent, Option.bind_eq_bind,
    Option.bind_some, if_neg hleading]

/-- A number above zero does not begin with a zero. Source: none: infrastructure. Kind: L -/
theorem head?_decimalDigits {n : ℕ} (h : n ≠ 0) : (decimalDigits n).head? ≠ some (unit '0') := by
  have hne : Nat.digits 10 n ≠ [] := Nat.digits_ne_nil_iff_ne_zero.mpr h
  have hlast := Nat.getLast_digit_ne_zero 10 h
  have hlt : (Nat.digits 10 n).getLast hne < 10 :=
    Nat.digits_lt_base (by norm_num) (List.getLast_mem hne)
  rw [decimalDigits, List.head?_reverse, List.getLast?_map, List.getLast?_eq_some_getLast hne]
  intro hzero
  have hval := congrArg Fin.val (Option.some.inj hzero)
  have hunit : (unit '0').val = 0x30 := by decide
  rw [val_digit hlt, hunit] at hval
  omega

/-- **The text of a decimal is a numeral.** Source: none: ECMAScript `Number::toString`. Kind: L -/
theorem Decimal.numeral (d : Decimal) (h : d.digits ≠ 0) : ∃ whole fraction exponent,
    Numeral whole fraction exponent ∧
      d.text = whole ++ marked (unit '.') fraction ++ marked (unit 'e') exponent := by
  have hds : ∀ u ∈ decimalDigits d.digits, isDigitUnit u = true := fun u hu => isDigitUnit_of_mem hu
  have hz : ∀ k, ∀ u ∈ List.replicate k (unit '0'), isDigitUnit u = true := fun k u hu => by
    rw [List.eq_of_mem_replicate hu]
    decide
  have hne := decimalDigits_ne_nil h
  have hlen := List.length_pos_iff.mpr hne
  have hzero := head?_decimalDigits h
  have hpower : ∀ n : ℤ, n ≠ 0 → ∀ e ∈ some (powerText n), ∃ sign ds, e = sign :: ds ∧
      (sign = unit '+' ∨ sign = unit '-') ∧ ds ≠ [] ∧ ∀ u ∈ ds, isDigitUnit u = true := by
    rintro n hn e he
    obtain rfl := Option.mem_some.mp he
    refine ⟨_, _, rfl, ?_, decimalDigits_ne_nil (by omega), fun u hu => isDigitUnit_of_mem hu⟩
    split
    · exact .inl rfl
    · exact .inr rfl
  have htake : ∀ k, 0 < k → (decimalDigits d.digits).take k ≠ [] ∧
      ((decimalDigits d.digits).take k).head? ≠ some (unit '0') := by
    intro k hk
    rw [List.head?_take, if_neg (by omega)]
    refine ⟨?_, hzero⟩
    simp [hne]
    omega
  have hdrop : ∀ k, k < (decimalDigits d.digits).length → ∀ ds ∈ some ((decimalDigits d.digits).drop k),
      ds ≠ [] ∧ ∀ u ∈ ds, isDigitUnit u = true := by
    rintro k hk ds hmem
    obtain rfl := Option.mem_some.mp hmem
    exact ⟨by simpa using hk, fun u hu => hds u (List.mem_of_mem_drop hu)⟩
  simp only [Decimal.text]
  generalize decimalDigits d.digits = ds at *
  split_ifs with hint hpoint hsmall hone
  · -- the digits, then zeros up to the point
    refine ⟨ds ++ List.replicate (d.exponent + ds.length - ds.length).toNat (unit '0'), none, none,
      ⟨?_, by simp [hne], ?_, by simp, by simp⟩, by simp [marked]⟩
    · exact fun u hu => (List.mem_append.mp hu).elim (hds u) (hz _ u)
    · intro _
      rwa [List.head?_append_of_ne_nil _ hne]
  · -- the point among the digits
    obtain ⟨htne, hthead⟩ := htake (d.exponent + ds.length).toNat (by omega)
    exact ⟨ds.take (d.exponent + ds.length).toNat, some (ds.drop (d.exponent + ds.length).toNat), none,
      ⟨fun u hu => hds u (List.mem_of_mem_take hu), htne, fun _ => hthead, hdrop _ (by omega), by simp⟩,
      by simp [marked]⟩
  · -- zeros between the point and the digits
    refine ⟨[unit '0'], some (List.replicate (-(d.exponent + ds.length)).toNat (unit '0') ++ ds), none,
      ⟨hz 1, by simp, by simp, ?_, by simp⟩, by simp [marked]⟩
    rintro f hf
    obtain rfl := Option.mem_some.mp hf
    exact ⟨by simp [hne], fun u hu => (List.mem_append.mp hu).elim (hz _ u) (hds u)⟩
  · -- one digit and an exponent
    exact ⟨ds, none, some (powerText (d.exponent + ds.length - 1)), ⟨hds, hne,
      fun hlong => absurd hone (by omega), by simp, hpower _ (by omega)⟩, by simp [marked]⟩
  · -- a digit, a point, digits and an exponent
    obtain ⟨htne, hthead⟩ := htake 1 (by omega)
    exact ⟨ds.take 1, some (ds.drop 1), some (powerText (d.exponent + ds.length - 1)),
      ⟨fun u hu => hds u (List.mem_of_mem_take hu), htne, fun _ => hthead, hdrop 1 (by omega),
        hpower _ (by omega)⟩, by simp [marked]⟩

/-- The text of a magnitude is read back, and rounds to it. Source: none: ECMAScript `Number::toString`.
Kind: L -/
theorem parseMagnitude_text (m : Magnitude) (hr : Ends r) :
    parseMagnitude (m.text ++ r) = some (readNumber m.text, r) := by
  unfold Magnitude.text
  split
  · have hnumeral : Numeral [unit '0'] none none :=
      ⟨List.forall_mem_singleton.mpr (by decide), by simp, by simp, by simp, by simp⟩
    exact hnumeral.parseMagnitude hr
  · rename_i hne
    obtain ⟨whole, fraction, exponent, hnumeral, htext⟩ := Decimal.numeral _ (m.shortest_spec hne).1
    rw [htext]
    exact hnumeral.parseMagnitude hr

/-- The value of a magnitude's text is the magnitude. Source: none: infrastructure. Kind: L -/
theorem toNumber_readNumber (negative : Bool) (m : Magnitude) :
    toNumber negative (readNumber m.text) = .finite negative m := by
  have hunits := nearest_readNumber_text m
  have hfinite : nearest (readNumber m.text) < 2 ^ (1024 + scale) := hunits ▸ m.finite
  rw [toNumber, dif_pos hfinite]
  congr

/-- **A number is read back from its text**, as far as the text tells it.
Source: none: ECMAScript `Number::toString`. Kind: L -/
theorem parseNumber_text {x : Number} (hx : (Json.number x).plain = .number x) (hr : Ends r) :
    parseNumber (x.text ++ r) = some (x, r) := by
  cases x with
  | infinite negative => simp [Json.plain, Number.plain] at hx
  | finite negative m =>
    have hsign : (negative = true ∧ m.units ≠ 0) ↔ negative = true := by
      simp only [Json.plain, Number.plain, Json.number.injEq, Number.finite.injEq, and_true] at hx
      cases negative <;> simp_all
    simp only [Number.text, hsign]
    cases negative with
    | true => simp [parseNumber, parseMagnitude_text m hr, toNumber_readNumber]
    | false =>
      have hminus : (m.text ++ r).head? ≠ some (unit '-') := by
        obtain ⟨u, s, hm, hu⟩ := m.text_head
        rw [hm]
        rintro h
        obtain rfl : u = unit '-' := by simpa using h
        exact absurd hu (by decide)
      simp only [Bool.false_eq_true, if_false, parseNumber, if_neg hminus, parseMagnitude_text m hr,
        Option.map_some, toNumber_readNumber]

end numbers

end TrainsAndTracks.Found
