import Mathlib.Data.List.TakeWhile
import TrainsAndTracks.Found.Json
import TrainsAndTracks.Schema.Validation

/-!
# The ingress validators over JSON

`BookRequestSchema` on the body as `JSON.parse` returns it, the `INSERT` of `createBooking` with the values
parsed, and `AllocateJobSchema` on the payload published for them. A JavaScript string is a list of UTF-16
code units; PostgreSQL gets it in UTF-8, and its `TEXT` holds any character but U+0000.

* `BookRequestSchema.safeParse`, `createBooking`, `AllocateJobSchema.safeParse` — the three validators.
* `PassesLaterLayers` — the later two accept what the first let through.
* `Fits` — the bodies for which they do.

`passesLaterLayers_iff` is the comparison, `safeParse_ofString` the connection with the validators over
strings of characters.
-/

namespace TrainsAndTracks

open Found Found.Json

/-! ## Patterns over code units -/

/-- A string as a pattern without the flag `u` sees it: code unit by code unit, a surrogate being no
character of any class. Source: none: ECMAScript `RegExp`. Kind: D -/
def patternText (s : JsString) : String := String.ofList (s.map single)

/-- `s.trim()`. Source: none: ECMAScript `TrimString`. Kind: D -/
def trimUnits (s : JsString) : JsString :=
  ((s.dropWhile fun u => isTrimmed (single u)).reverse.dropWhile fun u => isTrimmed (single u)).reverse

/-! ## `BookRequestSchema` -/

namespace BookRequestSchema

/-- What `BookRequestSchema` parses a body to. Source: `lib/validation/book.ts` `BookRequest`. Kind: D.
Fidelity: exact -/
structure Output where
  trainId : JsString
  passengerName : JsString
  passengerPhone : Option JsString
  deriving DecidableEq

/-- The fields of the schema in a body: an object whose fields are strings, the phone optional; other keys
are stripped. Source: `lib/validation/book.ts` `BookRequestSchema`. Kind: D. Fidelity: exact -/
def fields : Json → Option Output
  | .object entries =>
    match lookup (ofString "trainId") entries, lookup (ofString "passengerName") entries,
        lookup (ofString "passengerPhone") entries with
    | some (.string trainId), some (.string name), none => some ⟨trainId, name, none⟩
    | some (.string trainId), some (.string name), some (.string phone) => some ⟨trainId, name, some phone⟩
    | _, _, _ => none
  | _ => none

/-- The body that has just these fields. Source: `lib/validation/book.ts` `BookRequest`. Kind: D -/
def Output.body (raw : Output) : Json :=
  .object ((ofString "trainId", .string raw.trainId) ::
    (ofString "passengerName", .string raw.passengerName) ::
    match raw.passengerPhone with
    | some phone => [(ofString "passengerPhone", .string phone)]
    | none => [])

/-- The checks, in the order written. Source: `lib/validation/book.ts` `BookRequestSchema`,
`lib/validation/common.ts` `TrainIdSchema`. Kind: D. Fidelity: exact -/
def checks (raw : Output) : Bool :=
  trainIdSchema (patternText raw.trainId) &&
    decide (1 ≤ raw.passengerName.length) && decide (raw.passengerName.length ≤ 100) &&
    raw.passengerPhone.all fun phone => phoneRe (patternText phone)

/-- `BookRequestSchema.safeParse`: `trim` comes after the checks. Source: `lib/validation/book.ts`
`BookRequestSchema`. Kind: D. Fidelity: exact -/
def safeParse (body : Json) : Option Output :=
  match fields body with
  | some raw => if checks raw then some { raw with passengerName := trimUnits raw.passengerName } else none
  | none => none

end BookRequestSchema

/-! ## The `INSERT` into `bookings` -/

/-- A value of type `TEXT`. Source: none: PostgreSQL. Kind: D -/
abbrev SqlText := List Char

/-- A JavaScript string bound to a `TEXT` parameter: sent in UTF-8, and refused with a U+0000.
Source: none: PostgreSQL `TEXT`. Kind: D. Fidelity: the documented behaviour of the database -/
def toText (s : JsString) : Option SqlText :=
  if Char.ofNat 0 ∈ decode s then none else some (decode s)

/-- A parameter that may be `NULL`. Source: none: PostgreSQL. Kind: D -/
def toNullable : Option JsString → Option (Option SqlText)
  | none => some none
  | some s => (toText s).map some

/-- A row of `bookings`, `none` being `NULL`. Source: migration `060_bookings`. Kind: D. Fidelity: exact -/
structure BookingColumns where
  id : Option SqlText
  idempotencyKey : Option SqlText
  trainId : Option SqlText
  seatId : Option SqlText
  passengerName : Option SqlText
  passengerPhone : Option SqlText
  pricePaise : Option ℤ
  status : Option BookingStatus
  failureReason : Option SqlText
  paymentId : Option SqlText
  createdAt : Option Time
  updatedAt : Option Time
  confirmedAt : Option Time

/-- The `NOT NULL` columns have a value. Source: migration `060_bookings`. Kind: D. Fidelity: exact -/
def BookingColumns.notNull (row : BookingColumns) : Bool :=
  row.id.isSome && row.idempotencyKey.isSome && row.trainId.isSome && row.passengerName.isSome &&
    row.pricePaise.isSome && row.status.isSome && row.createdAt.isSome && row.updatedAt.isSome

/-- No `CHECK` is false; of a `NULL` none is. Source: migration `060_bookings`. Kind: D. Fidelity: exact -/
def BookingColumns.checks (row : BookingColumns) : Bool :=
  (row.passengerName.all fun name => decide (1 ≤ name.length) && decide (name.length ≤ 100)) &&
    row.passengerPhone.all fun phone => decide (10 ≤ phone.length) && decide (phone.length ≤ 15)

/-- `PRICE_PAISE`. Source: `app/api/book/route.ts` `PRICE_PAISE`. Kind: D. Fidelity: exact -/
def PRICE_PAISE : ℤ := 126000

/-- The row `createBooking` inserts, with the defaults of the table; `none` where a parameter is refused.
Source: `lib/db/repositories/bookings.ts` `createBooking`. Kind: D. Fidelity: exact -/
def BookingColumns.createBooking (id : SqlText) (now : Time) (idempotencyKey : JsString)
    (body : BookRequestSchema.Output) :
    Option BookingColumns := do
  let idempotencyKey ← toText idempotencyKey
  let trainId ← toText body.trainId
  let passengerName ← toText body.passengerName
  let passengerPhone ← toNullable body.passengerPhone
  return ⟨some id, some idempotencyKey, some trainId, none, some passengerName, passengerPhone,
    some PRICE_PAISE, some .pending, none, none, some now, some now, none⟩

/-- The table takes the row: no parameter is refused, no `NOT NULL` and no `CHECK` fails, and the train
exists. Source: migration `060_bookings`. Kind: D. Fidelity: exact -/
def inserted (trains : List SqlText) (row : Option BookingColumns) : Bool :=
  row.any fun row => row.notNull && row.checks && row.trainId.any fun trainId => decide (trainId ∈ trains)

/-! ## `AllocateJobSchema` -/

namespace AllocateJobSchema

/-- What `AllocateJobSchema` parses a payload to. Source: `lib/validation/worker.ts` `AllocateJob`. Kind: D.
Fidelity: exact -/
structure Output where
  bookingId : JsString
  idempotencyKey : JsString
  trainId : JsString
  passengerName : JsString

/-- `AllocateJobSchema.safeParse`. Source: `lib/validation/worker.ts` `AllocateJobSchema`. Kind: D.
Fidelity: exact -/
def safeParse : Json → Option Output
  | .object entries =>
    match lookup (ofString "bookingId") entries, lookup (ofString "idempotencyKey") entries,
        lookup (ofString "trainId") entries, lookup (ofString "passengerName") entries with
    | some (.string bookingId), some (.string key), some (.string trainId), some (.string name) =>
      if idempotencyKeySchema (patternText bookingId) && idempotencyKeySchema (patternText key) &&
          trainIdSchema (patternText trainId) && decide (1 ≤ name.length) && decide (name.length ≤ 100) then
        some ⟨bookingId, key, trainId, name⟩
      else none
    | _, _, _, _ => none
  | _ => none

end AllocateJobSchema

/-- The body `publishAllocateJob` is called with. Source: `app/api/book/route.ts` (step 7). Kind: D.
Fidelity: exact -/
def jobPayload (bookingId idempotencyKey : JsString) (body : BookRequestSchema.Output) : Json :=
  .object [(ofString "bookingId", .string bookingId), (ofString "idempotencyKey", .string idempotencyKey),
    (ofString "trainId", .string body.trainId), (ofString "passengerName", .string body.passengerName)]

/-! ## The comparison -/

/-- What the layers behind the ingress do with a booking it accepted: the table takes the row, and the worker
the payload. Source: `app/api/book/route.ts` (steps 1-7). Kind: D -/
def PassesLaterLayers (trains : List SqlText) (id : SqlText) (now : Time) (idempotencyKey : JsString)
    (body : BookRequestSchema.Output) : Prop :=
  inserted trains (BookingColumns.createBooking id now idempotencyKey body) = true ∧
    (AllocateJobSchema.safeParse (jobPayload (encode id) idempotencyKey body)).isSome = true

/-- A name with something left after `trim` and without U+0000, and a phone that does not have a `+` in front
of fifteen digits. Source: none: the condition of `passesLaterLayers_iff`. Kind: D -/
def Fits (raw : BookRequestSchema.Output) : Prop :=
  (∃ u ∈ raw.passengerName, isTrimmed (single u) = false) ∧ codeUnit 0 ∉ raw.passengerName ∧
    ∀ phone ∈ raw.passengerPhone, phone.length ≤ 15

section trim

/-- `trim` takes white space away and nothing else. Source: none: ECMAScript `TrimString`. Kind: L -/
theorem mem_trimUnits {s : JsString} {u : CodeUnit} (hu : isTrimmed (single u) = false) :
    u ∈ trimUnits s ↔ u ∈ s := by
  have hdrop : ∀ t : JsString, u ∈ (t.dropWhile fun u => isTrimmed (single u)) ↔ u ∈ t := by
    intro t
    constructor
    · exact fun h => (List.dropWhile_sublist _).subset h
    · intro h
      rw [← List.takeWhile_append_dropWhile (p := fun u => isTrimmed (single u)) (l := t),
        List.mem_append] at h
      refine h.resolve_left fun htake => ?_
      have hall := List.all_eq_true.mp (List.all_takeWhile (p := fun u => isTrimmed (single u)) (l := t))
      exact absurd (hall u htake) (by simp [hu])
  rw [trimUnits, List.mem_reverse, hdrop, List.mem_reverse, hdrop]

/-- `trim` leaves nothing of white space. Source: none: ECMAScript `TrimString`. Kind: L -/
theorem trimUnits_ne_nil {s : JsString} : trimUnits s ≠ [] ↔ ∃ u ∈ s, isTrimmed (single u) = false := by
  constructor
  · intro h
    by_contra hall
    apply h
    have hnil : (s.dropWhile fun u => isTrimmed (single u)) = [] :=
      List.dropWhile_eq_nil_iff.mpr fun u hu => by
        by_contra htrim
        exact hall ⟨u, hu, by simpa using htrim⟩
    simp [trimUnits, hnil]
  · rintro ⟨u, hu, htrim⟩ hnil
    have hmem := (mem_trimUnits htrim).mpr hu
    simp [hnil] at hmem

/-- `trim` does not lengthen. Source: none: ECMAScript `TrimString`. Kind: L -/
theorem length_trimUnits_le (s : JsString) : (trimUnits s).length ≤ s.length := by
  have hinner := (List.dropWhile_sublist (l := s) fun u => isTrimmed (single u)).length_le
  have houter := (List.dropWhile_sublist
    (l := (s.dropWhile fun u => isTrimmed (single u)).reverse) fun u => isTrimmed (single u)).length_le
  simp only [trimUnits, List.length_reverse] at houter ⊢
  omega

end trim

section texts

/-- A pattern sees as many code units as there are. Source: none: ECMAScript `String.length`. Kind: L -/
theorem utf16Length_patternText (s : JsString) : utf16Length (patternText s) = s.length := by
  have hone : ∀ u : CodeUnit, (single u).val < 0x10000 := fun u =>
    UInt32.lt_iff_toNat_lt.mpr (toNat_single_lt u)
  rw [utf16Length, patternText, String.toList_ofList, List.map_map]
  induction s with
  | nil => rfl
  | cons u s ih =>
    rw [List.map_cons, List.sum_cons, ih, List.length_cons, Function.comp_apply, if_pos (hone u)]
    omega

/-- A string of a pattern that admits neither U+0000 nor a surrogate is a text. Source: none: PostgreSQL
`TEXT`. Kind: L -/
theorem toText_of_forall {s : JsString} {P : Char → Bool} (hnul : P (Char.ofNat 0) = false)
    (hrep : P replacement = false) (h : ∀ u ∈ s, P (single u) = true) : toText s = some (s.map single) := by
  have hplain : ∀ u ∈ s, isSurrogate u = false := by
    intro u hu
    by_contra hsur
    have hu' := h u hu
    rw [single_of_surrogate (by simpa using hsur), hrep] at hu'
    cases hu'
  have hmem : Char.ofNat 0 ∉ s.map single := by
    intro hmem
    obtain ⟨u, hu, hnul'⟩ := List.mem_map.mp hmem
    have hu' := h u hu
    rw [hnul', hnul] at hu'
    cases hu'
  rw [toText, decode_eq_map hplain, if_neg hmem]

/-- Every character of a match is of a class of the pattern. Source: none: infrastructure. Kind: L -/
theorem exists_class_of_mem : ∀ {ps : List (Char → Bool)} {cs : List Char}, matchesClasses ps cs = true →
    ∀ c ∈ cs, ∃ p ∈ ps, p c = true
  | [], [], _, c, hc => by simp at hc
  | p :: ps, d :: cs, h, c, hc => by
      simp only [matchesClasses, Bool.and_eq_true] at h
      rcases List.mem_cons.mp hc with rfl | hc
      · exact ⟨p, List.mem_cons_self, h.1⟩
      · obtain ⟨q, hq, hqc⟩ := exists_class_of_mem h.2 c hc
        exact ⟨q, List.mem_cons_of_mem p hq, hqc⟩

/-- A character of a UUID. Source: none: infrastructure. Kind: D -/
def isUuidChar (c : Char) : Bool := isHex c || c == '-'

/-- A UUID is made of hexadecimal digits and hyphens. Source: `app/api/book/route.ts` `UUID_V4_RE`.
Kind: L -/
theorem isUuidChar_of_mem {s : String} (h : uuidV4Re s = true) {c : Char} (hc : c ∈ s.toList) :
    isUuidChar c = true := by
  have hvariant : ∀ c, isVariant c = true → isUuidChar c = true := by
    intro c hv
    simp only [isVariant, List.contains_eq_mem, List.mem_cons, List.not_mem_nil, or_false,
      decide_eq_true_eq] at hv
    rcases hv with rfl | rfl | rfl | rfl | rfl | rfl <;> decide
  have hhex : ∀ n, ∀ p ∈ List.replicate n isHex, ∀ c, p c = true → isUuidChar c = true := by
    intro n p hp c hpc
    rw [List.eq_of_mem_replicate hp] at hpc
    simp [isUuidChar, hpc]
  have hchar : ∀ d, isUuidChar d = true → ∀ c, (c == d) = true → isUuidChar c = true := by
    intro d hd c hcd
    rw [beq_iff_eq.mp hcd, hd]
  have hall : ∀ p ∈ uuidClasses (· == '4'), ∀ c, p c = true → isUuidChar c = true := by
    simp only [uuidClasses, List.forall_mem_append, List.forall_mem_cons]
    have hnone : ∀ p ∈ ([] : List (Char → Bool)), ∀ c, p c = true → isUuidChar c = true :=
      List.forall_mem_nil _
    have hhyphen := hchar '-' (by decide)
    have hfour := hchar '4' (by decide)
    exact ⟨⟨⟨⟨⟨⟨⟨⟨hhex 8, hhyphen, hnone⟩, hhex 4⟩, hhyphen, hnone⟩, hfour, hhex 3⟩, hhyphen, hnone⟩,
      hvariant, hhex 3⟩, hhyphen, hnone⟩, hhex 12⟩
  obtain ⟨p, hp, hpc⟩ := exists_class_of_mem h c hc
  exact hall p hp c hpc

/-- A character of a UUID is one code unit. Source: none: infrastructure. Kind: L -/
theorem toNat_lt_of_isUuidChar {c : Char} (h : isUuidChar c = true) : c.toNat < 0x10000 := by
  have hle : ∀ d : Char, c ≤ d → c.toNat ≤ d.toNat := fun d hd => UInt32.le_iff_toNat_le.mp hd
  have h9 : ('9' : Char).toNat = 57 := rfl
  have hf : ('f' : Char).toNat = 102 := rfl
  have hF : ('F' : Char).toNat = 70 := rfl
  simp only [isUuidChar, isHex, isDigit, Bool.or_eq_true, Bool.and_eq_true, decide_eq_true_eq,
    beq_iff_eq] at h
  rcases h with ((h | h) | h) | rfl
  · have hc := hle '9' h.2
    omega
  · have hc := hle 'f' h.2
    omega
  · have hc := hle 'F' h.2
    omega
  · decide

/-- A key the ingress takes is a text. Source: `app/api/book/route.ts` `UUID_V4_RE`. Kind: L -/
theorem toText_of_uuidV4Re {k : JsString} (h : uuidV4Re (patternText k) = true) :
    toText k = some (k.map single) := by
  apply toText_of_forall (P := isUuidChar) (by decide) (by decide)
  exact fun u hu => isUuidChar_of_mem h (by simpa [patternText] using ⟨u, hu, rfl⟩)

/-- So is a train the ingress takes. Source: `lib/validation/common.ts` `TrainIdSchema`. Kind: L -/
theorem toText_of_trainIdSchema {t : JsString} (h : trainIdSchema (patternText t) = true) :
    toText t = some (t.map single) := by
  simp only [trainIdSchema, Bool.and_eq_true, patternText, String.toList_ofList, List.all_map,
    List.all_eq_true] at h
  exact toText_of_forall (P := fun c => isDigit c || (decide ('A' ≤ c) && decide (c ≤ 'Z')))
    (by decide) (by decide) h.2

/-- What the pattern of the phone admits. Source: `lib/validation/book.ts`. Kind: L -/
theorem of_phoneRe {cs : List Char} (h : phoneRe (String.ofList cs) = true) :
    (∀ c ∈ cs, (isDigit c || c == '+') = true) ∧ 10 ≤ cs.length := by
  simp only [phoneRe, String.toList_ofList] at h
  split at h <;> simp only [Bool.and_eq_true, decide_eq_true_eq, List.all_eq_true] at h
  · simp only [List.forall_mem_cons, List.length_cons]
    exact ⟨⟨by decide, fun c hc => by simp [h.2 c hc]⟩, by omega⟩
  · exact ⟨fun c hc => by simp [h.2 c hc], h.1.1⟩

/-- A phone the ingress takes is a text of at least ten characters. Source: `lib/validation/book.ts`.
Kind: L -/
theorem toText_of_phoneRe {p : JsString} (h : phoneRe (patternText p) = true) :
    toText p = some (p.map single) ∧ 10 ≤ p.length := by
  obtain ⟨hchars, hlen⟩ := of_phoneRe h
  rw [List.length_map] at hlen
  exact ⟨toText_of_forall (P := fun c => isDigit c || c == '+') (by decide) (by decide)
    fun u hu => hchars _ (List.mem_map_of_mem hu), hlen⟩

end texts

section layers

open BookRequestSchema

variable {trains : List SqlText} {id : SqlText} {now : Time} {key : JsString} {raw out : Output}

/-- What a parsed body was. Source: `lib/validation/book.ts` `BookRequestSchema`. Kind: L -/
theorem of_safeParse {body : Json} (hraw : fields body = some raw) (hout : safeParse body = some out) :
    checks raw = true ∧ out = { raw with passengerName := trimUnits raw.passengerName } := by
  simp only [safeParse, hraw, Option.ite_none_right_eq_some, Option.some.injEq] at hout
  exact ⟨hout.1, hout.2.symm⟩

/-- The row of a checked body: only the name can be refused. Source:
`lib/db/repositories/bookings.ts` `createBooking`. Kind: L -/
theorem createBooking_eq (hkey : uuidV4Re (patternText key) = true) (hraw : checks raw = true)
    (name : JsString) : BookingColumns.createBooking id now key { raw with passengerName := name } =
      (toText name).map fun text => ⟨some id, some (key.map single), some (raw.trainId.map single), none,
        some text, raw.passengerPhone.map fun phone => phone.map single, some PRICE_PAISE, some .pending,
        none, none, some now, some now, none⟩ := by
  simp only [checks, Bool.and_eq_true, decide_eq_true_eq] at hraw
  have htrain := toText_of_trainIdSchema hraw.1.1.1
  have hphone : toNullable raw.passengerPhone =
      some (raw.passengerPhone.map fun phone => phone.map single) := by
    cases hp : raw.passengerPhone with
    | none => rfl
    | some phone =>
      have hre : phoneRe (patternText phone) = true := by simpa [hp] using hraw.2
      simp [toNullable, (toText_of_phoneRe hre).1]
  unfold BookingColumns.createBooking
  simp only [toText_of_uuidV4Re hkey, htrain, hphone]
  cases toText name <;> rfl

/-- **When the table takes the row of a checked body.** Source: migration `060_bookings`. Kind: L -/
theorem inserted_iff (hkey : uuidV4Re (patternText key) = true) (hraw : checks raw = true)
    (htrain : raw.trainId.map single ∈ trains) :
    inserted trains (BookingColumns.createBooking id now key
      { raw with passengerName := trimUnits raw.passengerName }) = true ↔ Fits raw := by
  have hchecks := hraw
  simp only [checks, Bool.and_eq_true, decide_eq_true_eq] at hraw
  have hnul : codeUnit 0 ∈ trimUnits raw.passengerName ↔ codeUnit 0 ∈ raw.passengerName :=
    mem_trimUnits (by decide)
  have hphone : (raw.passengerPhone.map fun phone => phone.map single).all (fun phone =>
      decide (10 ≤ phone.length) && decide (phone.length ≤ 15)) = true ↔
      ∀ phone ∈ raw.passengerPhone, phone.length ≤ 15 := by
    cases hp : raw.passengerPhone with
    | none => simp
    | some phone =>
      have hre : phoneRe (patternText phone) = true := by simpa [hp] using hraw.2
      simpa using fun _ => (toText_of_phoneRe hre).2
  rw [createBooking_eq hkey hchecks, toText]
  unfold Fits
  by_cases hmem : codeUnit 0 ∈ raw.passengerName
  · have hdecode : Char.ofNat 0 ∈ decode (trimUnits raw.passengerName) := nul_mem_decode.mpr (hnul.mpr hmem)
    simp [inserted, hdecode, hmem]
  · have hdecode : Char.ofNat 0 ∉ decode (trimUnits raw.passengerName) := fun h =>
      hmem (hnul.mp (nul_mem_decode.mp h))
    have hpos : 1 ≤ (decode (trimUnits raw.passengerName)).length ↔
        ∃ u ∈ raw.passengerName, isTrimmed (single u) = false := by
      rw [Nat.one_le_iff_ne_zero, ne_eq, List.length_eq_zero_iff, decode_eq_nil]
      exact trimUnits_ne_nil
    have hmax : (decode (trimUnits raw.passengerName)).length ≤ 100 :=
      (length_decode_le _).trans ((length_trimUnits_le _).trans hraw.1.2)
    rw [if_neg hdecode]
    simp only [inserted, Option.map_some, Option.any_some, BookingColumns.notNull, BookingColumns.checks,
      Option.isSome_some, Option.all_some, Bool.and_true, Bool.true_and, Bool.and_eq_true, decide_eq_true_eq,
      hphone, hpos]
    exact ⟨fun h => ⟨h.1.1.1, hmem, h.1.2⟩, fun h => ⟨⟨⟨h.1, hmax⟩, h.2.2⟩, htrain⟩⟩

/-- **When the worker takes the payload of a checked body.** Source: `lib/validation/worker.ts`
`AllocateJobSchema`. Kind: L -/
theorem allocateJob_iff (hid : uuidV4Re (String.ofList id) = true) (hkey : uuidV4Re (patternText key) = true)
    (hraw : checks raw = true) :
    (AllocateJobSchema.safeParse (jobPayload (encode id) key
      { raw with passengerName := trimUnits raw.passengerName })).isSome = true ↔
      ∃ u ∈ raw.passengerName, isTrimmed (single u) = false := by
  simp only [checks, Bool.and_eq_true, decide_eq_true_eq] at hraw
  have hidText : patternText (encode id) = String.ofList id := by
    rw [patternText, map_single_encode fun c hc =>
      toNat_lt_of_isUuidChar (isUuidChar_of_mem hid (by simpa using hc))]
  have hbookingId : idempotencyKeySchema (patternText (encode id)) = true :=
    hidText ▸ idempotencyKeySchema_of_uuidV4Re hid
  have hidempotencyKey := idempotencyKeySchema_of_uuidV4Re hkey
  have hmax : (trimUnits raw.passengerName).length ≤ 100 := (length_trimUnits_le _).trans hraw.1.2
  have hpos : 1 ≤ (trimUnits raw.passengerName).length ↔
      ∃ u ∈ raw.passengerName, isTrimmed (single u) = false := by
    rw [Nat.one_le_iff_ne_zero, ne_eq, List.length_eq_zero_iff]
    exact trimUnits_ne_nil
  have hnodup : [ofString "bookingId", ofString "idempotencyKey", ofString "trainId",
      ofString "passengerName"].Nodup := by decide
  have hlookup : ∀ k v, lookup k [(ofString "bookingId", .string (encode id)),
      (ofString "idempotencyKey", .string key), (ofString "trainId", .string raw.trainId),
      (ofString "passengerName", .string (trimUnits raw.passengerName))] = some v ↔ _ := fun k v =>
    lookup_eq_some hnodup
  have hb := (hlookup (ofString "bookingId") (.string (encode id))).mpr (by simp)
  have hk := (hlookup (ofString "idempotencyKey") (.string key)).mpr (by simp)
  have ht := (hlookup (ofString "trainId") (.string raw.trainId)).mpr (by simp)
  have hn := (hlookup (ofString "passengerName") (.string (trimUnits raw.passengerName))).mpr (by simp)
  simp only [AllocateJobSchema.safeParse, jobPayload, hb, hk, ht, hn, hbookingId, hidempotencyKey,
    hraw.1.1.1, hmax, Bool.true_and, Bool.and_true, decide_true, decide_eq_true_eq, ← hpos]
  split <;> simp_all

/-- **The validators nest** exactly on the bodies that fit. Source: `lib/validation/book.ts`,
`lib/validation/worker.ts`, migration `060_bookings`. Kind: P -/
theorem passesLaterLayers_iff (body : Parsed) (hraw : fields body.val = some raw)
    (hout : safeParse body.val = some out) (hkey : uuidV4Re (patternText key) = true)
    (hid : uuidV4Re (String.ofList id) = true)
    (htrain : ∃ text, toText out.trainId = some text ∧ text ∈ trains) :
    PassesLaterLayers trains id now key out ↔ Fits raw := by
  obtain ⟨hchecks, rfl⟩ := of_safeParse hraw hout
  have htext : toText raw.trainId = some (raw.trainId.map single) := by
    simp only [checks, Bool.and_eq_true] at hchecks
    exact toText_of_trainIdSchema hchecks.1.1.1
  have hmem : raw.trainId.map single ∈ trains := by
    obtain ⟨text, hsome, hmem⟩ := htrain
    rw [htext, Option.some.injEq] at hsome
    rwa [hsome]
  unfold PassesLaterLayers
  rw [inserted_iff hkey hchecks hmem, allocateJob_iff hid hkey hchecks]
  exact ⟨And.left, fun h => ⟨h, h.1⟩⟩

/-- A body that fits passes. Source: none: infrastructure. Kind: L -/
theorem passesLaterLayers_plain : PassesLaterLayers ["12951".toList]
    "6f1d0d52-5f3c-4a8e-9b7a-2f4f0c5d7e91".toList 0 (ofString "0b9f0d52-5f3c-4a8e-9b7a-2f4f0c5d7e91")
    ⟨ofString "12951", ofString "Asha", some (ofString "9876543210")⟩ := by
  have hdistinct : (Output.body ⟨ofString "12951", ofString "Asha ", some (ofString "9876543210")⟩).distinct =
      true := by decide
  have hraw : fields (Output.body ⟨ofString "12951", ofString "Asha ", some (ofString "9876543210")⟩) =
      some ⟨ofString "12951", ofString "Asha ", some (ofString "9876543210")⟩ := by decide
  have hout : safeParse (Output.body ⟨ofString "12951", ofString "Asha ", some (ofString "9876543210")⟩) =
      some ⟨ofString "12951", ofString "Asha", some (ofString "9876543210")⟩ := by decide
  exact (passesLaterLayers_iff ⟨_, hdistinct⟩ hraw hout (by decide) (by decide)
    ⟨"12951".toList, by decide, by decide⟩).mpr ⟨⟨unit 'A', by decide, by decide⟩, by decide, by decide⟩

/-- A blank name passes `min(1)`, and `trim` leaves nothing of it. Source: `lib/validation/book.ts`
`BookRequestSchema`. Kind: L -/
theorem not_passesLaterLayers_blank :
    safeParse (Output.body ⟨ofString "12951", ofString " ", none⟩) = some ⟨ofString "12951", [], none⟩ ∧
    uuidV4Re (patternText (ofString "0b9f0d52-5f3c-4a8e-9b7a-2f4f0c5d7e91")) = true ∧
    uuidV4Re "6f1d0d52-5f3c-4a8e-9b7a-2f4f0c5d7e91" = true ∧
    ¬ PassesLaterLayers ["12951".toList] "6f1d0d52-5f3c-4a8e-9b7a-2f4f0c5d7e91".toList 0
      (ofString "0b9f0d52-5f3c-4a8e-9b7a-2f4f0c5d7e91") ⟨ofString "12951", [], none⟩ := by
  refine ⟨by decide, by decide, by decide, ?_⟩
  unfold PassesLaterLayers
  decide

end layers

/-! ## Strings of characters -/

section characters

open BookRequestSchema

/-- The values of a request over strings of characters. Source: `lib/validation/book.ts` `BookRequest`.
Kind: D -/
def BookRequestSchema.Output.ofStrings (body : BookRequest) : Output :=
  ⟨ofString body.trainId, ofString body.passengerName, body.passengerPhone.map ofString⟩

/-- A string has as many code units as `length` says. Source: none: ECMAScript `String.length`. Kind: L -/
theorem length_ofString (s : String) : (ofString s).length = utf16Length s := by
  unfold ofString utf16Length
  induction s.toList with
  | nil => rfl
  | cons c cs ih =>
    have hval : c.val < 0x10000 ↔ c.toNat < 0x10000 := UInt32.lt_iff_toNat_lt
    rw [encode_cons, List.length_append, ih, List.map_cons, List.sum_cons]
    by_cases hc : c.toNat < 0x10000 <;> simp [encodeChar, hval, hc]

/-- The code units of a text are of a class without surrogates exactly when its characters are.
Source: none: ECMAScript `RegExp`. Kind: L -/
theorem all_map_single_encode {P : Char → Bool} (hrep : P replacement = false)
    (hP : ∀ c, P c = true → c.toNat < 0x10000) (cs : List Char) :
    ((encode cs).map single).all P = cs.all P := by
  induction cs with
  | nil => rfl
  | cons c cs ih =>
    rw [encode_cons, List.map_append, List.all_append, ih, List.all_cons]
    congr 1
    by_cases hc : c.toNat < 0x10000
    · simp [encodeChar_of_lt hc, single_unit hc]
    · have hnot : P c = false := by
        by_contra h
        exact hc (hP c (by simpa using h))
      obtain ⟨u, v, hcode, hu, -, -⟩ := encodeChar_of_ge hc
      simp [hcode, hnot, single_of_surrogate (u := u) (by simp [isSurrogate, hu]), hrep]

/-- White space is of the basic plane. Source: none: ECMAScript `WhiteSpace`. Kind: L -/
theorem toNat_lt_of_isTrimmed {c : Char} (h : isTrimmed c = true) : c.toNat < 0x10000 := by
  simp only [isTrimmed, Bool.or_eq_true, Bool.and_eq_true, decide_eq_true_eq, List.contains_eq_mem,
    List.mem_cons, List.not_mem_nil, or_false] at h
  omega

/-- No surrogate is white space. Source: none: ECMAScript `WhiteSpace`. Kind: L -/
theorem isTrimmed_surrogate {u : CodeUnit} (h : isSurrogate u = true) : isTrimmed (single u) = false := by
  rw [single_of_surrogate h]
  decide

/-- White space at the front of a text is white space at the front of its code units.
Source: none: ECMAScript `TrimString`. Kind: L -/
theorem dropWhile_encode (cs : List Char) :
    ((encode cs).dropWhile fun u => isTrimmed (single u)) = encode (cs.dropWhile isTrimmed) := by
  induction cs with
  | nil => rfl
  | cons c cs ih =>
    by_cases hc : c.toNat < 0x10000
    · by_cases htrim : isTrimmed c = true <;>
        simp [encode_cons, encodeChar_of_lt hc, single_unit hc, htrim, ih]
    · have hnot : ¬ isTrimmed c = true := fun h => hc (toNat_lt_of_isTrimmed h)
      obtain ⟨u, v, hcode, hu, -, -⟩ := encodeChar_of_ge hc
      have hsingle := isTrimmed_surrogate (u := u) (by simp [isSurrogate, hu])
      simp [encode_cons, hcode, hsingle, hnot]

/-- And at the back. Source: none: ECMAScript `TrimString`. Kind: L -/
theorem dropWhile_reverse_encode (cs : List Char) :
    ((encode cs).reverse.dropWhile fun u => isTrimmed (single u)).reverse =
      encode (cs.reverse.dropWhile isTrimmed).reverse := by
  induction cs using List.reverseRecOn with
  | nil => rfl
  | append_singleton cs c ih =>
    have hsnoc : encode (cs ++ [c]) = encode cs ++ encodeChar c := by simp [encode]
    by_cases hc : c.toNat < 0x10000
    · by_cases htrim : isTrimmed c = true <;>
        simp [hsnoc, encodeChar_of_lt hc, single_unit hc, htrim, ih]
    · have hnot : ¬ isTrimmed c = true := fun h => hc (toNat_lt_of_isTrimmed h)
      obtain ⟨u, v, hcode, -, hv, -⟩ := encodeChar_of_ge hc
      have hsingle := isTrimmed_surrogate (u := v) (by simp [isSurrogate, hv])
      simp [hsnoc, hcode, hsingle, hnot]

/-- Trimming code units is trimming characters. Source: none: ECMAScript `TrimString`. Kind: L -/
theorem trimUnits_ofString (s : String) : trimUnits (ofString s) = ofString (jsTrim s) := by
  rw [trimUnits, ofString, dropWhile_encode, dropWhile_reverse_encode, ofString, jsTrim, String.toList_ofList]

/-- A digit or a capital letter is of the basic plane. Source: none: infrastructure. Kind: L -/
theorem toNat_lt_of_trainIdChar {c : Char}
    (h : (isDigit c || (decide ('A' ≤ c) && decide (c ≤ 'Z'))) = true) : c.toNat < 0x10000 := by
  have hle : ∀ d : Char, c ≤ d → c.toNat ≤ d.toNat := fun d hd => UInt32.le_iff_toNat_le.mp hd
  have h9 : ('9' : Char).toNat = 57 := rfl
  have hZ : ('Z' : Char).toNat = 90 := rfl
  simp only [isDigit, Bool.or_eq_true, Bool.and_eq_true, decide_eq_true_eq] at h
  rcases h with h | h
  · have hc := hle '9' h.2
    omega
  · have hc := hle 'Z' h.2
    omega

/-- The train's pattern. Source: `lib/validation/common.ts` `TrainIdSchema`. Kind: L -/
theorem trainIdSchema_ofString (s : String) :
    trainIdSchema (patternText (ofString s)) = trainIdSchema s := by
  have hall := all_map_single_encode (P := fun c => isDigit c || (decide ('A' ≤ c) && decide (c ≤ 'Z')))
    (by decide) (fun _ => toNat_lt_of_trainIdChar) s.toList
  rw [trainIdSchema, trainIdSchema, utf16Length_patternText, length_ofString, patternText,
    String.toList_ofList, ofString, hall]

/-- Ten to fifteen digits. Source: `lib/validation/book.ts`. Kind: D -/
def phoneDigits (cs : List Char) : Bool :=
  decide (10 ≤ cs.length) && decide (cs.length ≤ 15) && cs.all isDigit

/-- The phone's pattern behind a plus. Source: `lib/validation/book.ts`. Kind: L -/
theorem phoneRe_plus (cs : List Char) : phoneRe (String.ofList ('+' :: cs)) = phoneDigits cs := by
  simp [phoneRe, phoneDigits]

/-- The phone's pattern without one. Source: `lib/validation/book.ts`. Kind: L -/
theorem phoneRe_of_head {cs : List Char} (h : ∀ ds, cs ≠ '+' :: ds) :
    phoneRe (String.ofList cs) = phoneDigits cs := by
  simp only [phoneRe, phoneDigits, String.toList_ofList]

/-- Digits of a text are digits of its code units. Source: none: ECMAScript `RegExp`. Kind: L -/
theorem phoneDigits_encode (cs : List Char) : phoneDigits ((encode cs).map single) = phoneDigits cs := by
  have hdigit : ∀ c, isDigit c = true → c.toNat < 0x10000 := fun c hc =>
    toNat_lt_of_trainIdChar (by simp [hc])
  cases hall : cs.all isDigit with
  | true => rw [map_single_encode fun c hc => hdigit c (List.all_eq_true.mp hall c hc)]
  | false => simp only [phoneDigits, all_map_single_encode (by decide) hdigit cs, hall, Bool.and_false]

/-- The phone's pattern. Source: `lib/validation/book.ts`. Kind: L -/
theorem phoneRe_ofString (s : String) : phoneRe (patternText (ofString s)) = phoneRe s := by
  rw [patternText, ofString, ← String.ofList_toList (s := s), String.toList_ofList]
  generalize s.toList = cs
  by_cases hplus : ∃ ds, cs = '+' :: ds
  · obtain ⟨ds, rfl⟩ := hplus
    have hhead : (encode ('+' :: ds)).map single = '+' :: (encode ds).map single := by
      rw [encode_cons, encodeChar_of_lt (by decide), List.singleton_append, List.map_cons,
        single_unit (by decide)]
    rw [hhead, phoneRe_plus, phoneRe_plus, phoneDigits_encode]
  · have hcs : ∀ ds, cs ≠ '+' :: ds := fun ds h => hplus ⟨ds, h⟩
    have hencode : ∀ ds, (encode cs).map single ≠ '+' :: ds := by
      intro ds h
      cases cs with
      | nil => simp [encode] at h
      | cons c cs =>
        by_cases hc : c.toNat < 0x10000
        · rw [encode_cons, encodeChar_of_lt hc, List.singleton_append, List.map_cons, single_unit hc] at h
          exact hcs cs (by rw [(List.cons_eq_cons.mp h).1])
        · obtain ⟨u, v, hcode, hu, -, -⟩ := encodeChar_of_ge hc
          rw [encode_cons, hcode, List.cons_append, List.map_cons,
            single_of_surrogate (by simp [isSurrogate, hu])] at h
          exact absurd (List.cons_eq_cons.mp h).1 (by decide)
    rw [phoneRe_of_head hcs, phoneRe_of_head hencode, phoneDigits_encode]

/-- The three keys of a body differ. Source: `lib/validation/book.ts` `BookRequestSchema`. Kind: L -/
theorem bodyKeys_ne : (ofString "trainId" == ofString "passengerName") = false ∧
    (ofString "trainId" == ofString "passengerPhone") = false ∧
      (ofString "passengerName" == ofString "passengerPhone") = false := by decide

/-- The fields of a body made of them. Source: `lib/validation/book.ts` `BookRequestSchema`. Kind: L -/
theorem fields_body (raw : Output) : fields raw.body = some raw := by
  obtain ⟨trainId, name, phone⟩ := raw
  obtain ⟨hname, hphone, hphone'⟩ := bodyKeys_ne
  cases phone <;> simp [Output.body, fields, lookup, hname, hphone, hphone']

/-- **The schema over strings of characters is the schema over JSON.** Source: `lib/validation/book.ts`
`BookRequestSchema`. Kind: P -/
theorem safeParse_ofStrings (raw : BookRequest) :
    safeParse (Output.ofStrings raw).body = raw.safeParse.map Output.ofStrings := by
  have hchecks : checks (Output.ofStrings raw) = (trainIdSchema raw.trainId &&
      decide (1 ≤ utf16Length raw.passengerName) && decide (utf16Length raw.passengerName ≤ 100) &&
      raw.passengerPhone.all phoneRe) := by
    have hphone : (raw.passengerPhone.map ofString).all (fun phone => phoneRe (patternText phone)) =
        raw.passengerPhone.all phoneRe := by
      cases raw.passengerPhone <;> simp [phoneRe_ofString]
    simp only [checks, Output.ofStrings, trainIdSchema_ofString, length_ofString, hphone]
  simp only [safeParse, fields_body, hchecks, BookRequest.safeParse]
  split
  · simp [Output.ofStrings, trimUnits_ofString]
  · rfl

/-- The text of a string of characters. Source: none: PostgreSQL `TEXT`. Kind: L -/
theorem of_toText_ofString {s : String} {text : SqlText} (h : toText (ofString s) = some text) :
    text = s.toList := by
  rw [toText, ofString, decode_encode] at h
  split at h
  · cases h
  · exact (Option.some.inj h).symm

/-- **So are the `CHECK`s.** Source: migration `060_bookings`. Kind: P -/
theorem checks_ofStrings {id : SqlText} {now : Time} {key : String} {body : BookRequest}
    {row : BookingColumns}
    (hrow : BookingColumns.createBooking id now (ofString key) (Output.ofStrings body) = some row) :
    row.checks = bookingChecks body.passengerName body.passengerPhone := by
  simp only [BookingColumns.createBooking, Output.ofStrings, Option.bind_eq_bind,
    Option.bind_eq_some_iff] at hrow
  obtain ⟨k, -, t, -, name, hname, phone, hphone, hrow⟩ := hrow
  cases hrow
  rw [of_toText_ofString hname]
  cases hp : body.passengerPhone with
  | none =>
    rw [hp] at hphone
    cases hphone
    simp [BookingColumns.checks, bookingChecks, String.length_toList]
  | some p =>
    simp only [hp, Option.map_some, toNullable, Option.map_eq_some_iff] at hphone
    obtain ⟨text, htext, rfl⟩ := hphone
    simp [of_toText_ofString htext, BookingColumns.checks, bookingChecks, String.length_toList]

end characters

end TrainsAndTracks
