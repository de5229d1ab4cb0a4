import Mathlib.Algebra.Order.BigOperators.Group.List
import Mathlib.Algebra.GroupWithZero.Nat
import Mathlib.Algebra.Order.Group.Nat
import TrainsAndTracks.Schema.Rows

/-!
# The validators in front of the tables

The Zod schemas of `lib/validation`, the header pattern `UUID_V4_RE` and the `CHECK`s of
`bookings`, over JSON strings. A Zod `min`/`max` counts UTF-16 code units (`string.length`), a SQL
`length` counts characters.
-/

namespace TrainsAndTracks

/-! ## JavaScript strings -/

/-- `s.length` in JavaScript: the number of UTF-16 code units.
Source: none: ECMAScript `String.length`. Kind: D -/
def utf16Length (s : String) : ℕ :=
  (s.toList.map fun c => if c.val < 0x10000 then 1 else 2).sum

/-- The characters `trim` removes: ECMAScript `WhiteSpace` and `LineTerminator`.
Source: none: ECMAScript `TrimString`. Kind: D -/
def isTrimmed (c : Char) : Bool :=
  [0x9, 0xA, 0xB, 0xC, 0xD, 0x20, 0xA0, 0x1680, 0x2028, 0x2029, 0x202F, 0x205F, 0x3000,
    0xFEFF].contains c.toNat || (0x2000 ≤ c.toNat && c.toNat ≤ 0x200A)

/-- `s.trim()`. Source: none: ECMAScript `TrimString`. Kind: D -/
def jsTrim (s : String) : String :=
  String.ofList (((s.toList.dropWhile isTrimmed).reverse.dropWhile isTrimmed).reverse)

/-! ## Patterns -/

/-- A pattern of fixed length, one character class a position. Source: none: infrastructure.
Kind: D -/
def matchesClasses : List (Char → Bool) → List Char → Bool
  | [], [] => true
  | p :: ps, c :: cs => p c && matchesClasses ps cs
  | _, _ => false

/-- `[0-9]`. Source: none: infrastructure. Kind: D -/
def isDigit (c : Char) : Bool := decide ('0' ≤ c) && decide (c ≤ '9')

/-- `[0-9a-f]` under the flag `i`. Source: none: infrastructure. Kind: D -/
def isHex (c : Char) : Bool :=
  isDigit c || (decide ('a' ≤ c) && decide (c ≤ 'f')) || (decide ('A' ≤ c) && decide (c ≤ 'F'))

/-- `[89ab]` under the flag `i`. Source: none: infrastructure. Kind: D -/
def isVariant (c : Char) : Bool := ['8', '9', 'a', 'b', 'A', 'B'].contains c

/-- The classes of a UUID whose version digit is in the class `v`. Source: none: infrastructure.
Kind: D -/
def uuidClasses (v : Char → Bool) : List (Char → Bool) :=
  List.replicate 8 isHex ++ [(· == '-')] ++ List.replicate 4 isHex ++ [(· == '-')] ++
    (v :: List.replicate 3 isHex) ++ [(· == '-')] ++ (isVariant :: List.replicate 3 isHex) ++
    [(· == '-')] ++ List.replicate 12 isHex

/-- `UUID_V4_RE`. Source: `app/api/book/route.ts` `UUID_V4_RE`. Kind: D. Fidelity: exact -/
def uuidV4Re (s : String) : Bool := matchesClasses (uuidClasses (· == '4')) s.toList

/-- `z.string().uuid()` of Zod 4: versions 1 to 8, or the nil or max UUID.
Source: `lib/validation/common.ts` `IdempotencyKeySchema`. Kind: D. Fidelity: the documented
pattern of the library -/
def idempotencyKeySchema (s : String) : Bool :=
  matchesClasses (uuidClasses fun c => decide ('1' ≤ c) && decide (c ≤ '8')) s.toList ||
    s == "00000000-0000-0000-0000-000000000000" || s == "ffffffff-ffff-ffff-ffff-ffffffffffff"

/-- `TrainIdSchema`: `min(1).max(20).regex(/^[A-Z0-9]+$/)`.
Source: `lib/validation/common.ts` `TrainIdSchema`. Kind: D. Fidelity: exact -/
def trainIdSchema (s : String) : Bool :=
  decide (1 ≤ utf16Length s) && decide (utf16Length s ≤ 20) &&
    s.toList.all fun c => isDigit c || (decide ('A' ≤ c) && decide (c ≤ 'Z'))

/-- `passengerPhone`: `/^\+?[0-9]{10,15}$/`. Source: `lib/validation/book.ts`. Kind: D.
Fidelity: exact -/
def phoneRe (s : String) : Bool :=
  let digits := match s.toList with
    | '+' :: cs => cs
    | cs => cs
  decide (10 ≤ digits.length) && decide (digits.length ≤ 15) && digits.all isDigit

/-! ## The schemas -/

/-- A body accepted or rejected by `BookRequestSchema`, and what it parses to.
Source: `lib/validation/book.ts` `BookRequest`. Kind: D. Fidelity: exact -/
structure BookRequest where
  trainId : TrainId
  passengerName : String
  passengerPhone : Option String
  deriving DecidableEq, Repr

/-- `BookRequestSchema.safeParse` on a body whose fields are strings: the checks in the order
written, `trim` last. Source: `lib/validation/book.ts` `BookRequestSchema`. Kind: D.
Fidelity: exact -/
def BookRequest.safeParse (raw : BookRequest) : Option BookRequest :=
  if trainIdSchema raw.trainId &&
      decide (1 ≤ utf16Length raw.passengerName) && decide (utf16Length raw.passengerName ≤ 100) &&
      raw.passengerPhone.all phoneRe then
    some { raw with passengerName := jsTrim raw.passengerName }
  else none

/-- `AllocateJobSchema.safeParse(...).success`; `bookingId` is a UUID by type.
Source: `lib/validation/worker.ts` `AllocateJobSchema`. Kind: D. Fidelity: exact -/
def AllocateJobPayload.valid (job : AllocateJobPayload) : Bool :=
  idempotencyKeySchema job.idempotencyKey && trainIdSchema job.trainId &&
    decide (1 ≤ utf16Length job.passengerName) && decide (utf16Length job.passengerName ≤ 100)

/-- The `CHECK`s of `bookings` on the client's columns.
Source: migration `060_bookings`. Kind: D. Fidelity: exact -/
def bookingChecks (passengerName : String) (passengerPhone : Option String) : Bool :=
  decide (1 ≤ passengerName.length) && decide (passengerName.length ≤ 100) &&
    passengerPhone.all fun p => decide (10 ≤ p.length) && decide (p.length ≤ 15)

/-! ## What the ingress accepts, the worker accepts -/

section admission

/-- A pattern with wider classes matches at least as much. Source: none: infrastructure. Kind: L -/
theorem matchesClasses_mono : ∀ {ps qs : List (Char → Bool)} {cs : List Char},
    List.Forall₂ (fun p q => ∀ c, p c = true → q c = true) ps qs →
    matchesClasses ps cs = true → matchesClasses qs cs = true
  | [], [], [], .nil, _ => rfl
  | p :: ps, q :: qs, c :: cs, .cons hpq h, hm => by
      simp only [matchesClasses, Bool.and_eq_true] at hm ⊢
      exact ⟨hpq c hm.1, matchesClasses_mono h hm.2⟩

/-- A list of classes is no wider than itself. Source: none: infrastructure. Kind: L -/
theorem classes_refl (ps : List (Char → Bool)) :
    List.Forall₂ (fun p q => ∀ c, p c = true → q c = true) ps ps :=
  List.forall₂_same.mpr fun _ _ _ h => h

/-- A header the ingress takes is a key the worker takes. Source: `app/api/book/route.ts`
`UUID_V4_RE`, `lib/validation/common.ts` `IdempotencyKeySchema`. Kind: L -/
theorem idempotencyKeySchema_of_uuidV4Re {k : String} (h : uuidV4Re k = true) :
    idempotencyKeySchema k = true := by
  have hwide : List.Forall₂ (fun p q => ∀ c, p c = true → q c = true) (uuidClasses (· == '4'))
      (uuidClasses fun c => decide ('1' ≤ c) && decide (c ≤ '8')) := by
    unfold uuidClasses
    refine List.rel_append (List.rel_append (List.rel_append (List.rel_append
      (List.rel_append (classes_refl _) ?_) (classes_refl _)) (classes_refl _)) (classes_refl _))
      (classes_refl _)
    refine .cons (fun c hc => ?_) (classes_refl _)
    rw [beq_iff_eq.mp hc]
    decide
  simp only [idempotencyKeySchema, Bool.or_eq_true]
  exact .inl (.inl (matchesClasses_mono hwide h))

/-- Trimming does not lengthen a string. Source: none: ECMAScript `TrimString`. Kind: L -/
theorem utf16Length_jsTrim_le (s : String) : utf16Length (jsTrim s) ≤ utf16Length s := by
  have hsub : (jsTrim s).toList.Sublist s.toList := by
    simp only [jsTrim, String.toList_ofList]
    have hinner := List.dropWhile_sublist (l := s.toList) isTrimmed
    have houter := (List.dropWhile_sublist
      (l := (s.toList.dropWhile isTrimmed).reverse) isTrimmed).reverse
    rw [List.reverse_reverse] at houter
    exact houter.trans hinner
  exact (hsub.map _).sum_le_sum fun _ _ => Nat.zero_le _

/-- A string with a character has a code unit. Source: none: ECMAScript `String.length`. Kind: L -/
theorem one_le_utf16Length {s : String} (h : 1 ≤ s.length) : 1 ≤ utf16Length s := by
  unfold utf16Length
  rw [← String.length_toList] at h
  cases hs : s.toList with
  | nil => simp [hs] at h
  | cons c cs =>
    rw [List.map_cons, List.sum_cons]
    split <;> omega

/-- **What the ingress publishes, the worker parses**: a key and a body the ingress accepted, whose
booking passed the `CHECK`s, make a valid job. Source: `lib/validation/book.ts`,
`lib/validation/worker.ts`, migration `060_bookings`. Kind: L -/
theorem AllocateJobPayload.valid_of_safeParse {raw body : BookRequest} {job : AllocateJobPayload}
    (hkey : uuidV4Re job.idempotencyKey = true) (hbody : raw.safeParse = some body)
    (htrain : job.trainId = body.trainId) (hname : job.passengerName = body.passengerName)
    (hchecks : bookingChecks body.passengerName body.passengerPhone = true) :
    job.valid = true := by
  unfold BookRequest.safeParse at hbody
  split at hbody
  · rename_i hraw
    cases hbody
    simp only [Bool.and_eq_true, decide_eq_true_eq] at hraw
    obtain ⟨⟨⟨htrainOk, -⟩, hmax⟩, -⟩ := hraw
    simp only [bookingChecks, Bool.and_eq_true, decide_eq_true_eq] at hchecks
    simp only [AllocateJobPayload.valid, htrain, hname, Bool.and_eq_true, decide_eq_true_eq]
    exact ⟨⟨⟨idempotencyKeySchema_of_uuidV4Re hkey, htrainOk⟩, one_le_utf16Length hchecks.1.1⟩,
      le_trans (utf16Length_jsTrim_le _) hmax⟩
  · cases hbody

end admission

end TrainsAndTracks
