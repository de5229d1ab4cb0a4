import Std.Data.String.ToInt
import TrainsAndTracks.Found.Bytes
import TrainsAndTracks.Found.JsonParse
import TrainsAndTracks.Schema.Ingress

/-!
# A job on the wire

The bytes of a request to `POST /api/book`, the bytes `publishAllocateJob` sends for the booking, what the
worker reads of them, and their way through the dead letters: in Base64 to the webhook, as text into
`dlq_jobs`, and out to the worker again when the operator retries.

* `bookBody`, `publishJSON`, `workerBody` — a request read, a job sent, a job read.
* `failureArgs`, `cleanup` — what the webhook makes of a callback.
* `Returned`, `retryPublishes` — what the column gives back, and what the retry route sends.

`worker_reads_row` says that the worker reads the job of the row the ingress inserted, and
`dead_letter_round_trip` that a dead letter retried is the message that died.
-/

namespace TrainsAndTracks

open Found Found.Json

namespace Wire

/-! ## The code -/

/-- Step 2 of `POST /api/book` on the bytes of the body; an error is the message of the 400.
Source: `app/api/book/route.ts` `handle` (step 2). Kind: D. Fidelity: without the `issues` -/
def bookBody (bytes : List UInt8) : Except String BookRequestSchema.Output :=
  let text := decodeBody bytes
  if text = [] then .error "Request body must be valid JSON"
  else match parse text with
    | none => .error "Request body must be valid JSON"
    | some parsed =>
      match BookRequestSchema.safeParse parsed with
      | none => .error "Request body failed validation"
      | some body => .ok body

/-- The arguments of `publishAllocateJob` as the object they are. Source: `infra/qstash/publisher.ts`
`AllocateJobPayload`. Kind: D. Fidelity: exact -/
def jobBody (job : AllocateJobSchema.Output) : Json :=
  .object [(ofString "bookingId", .string job.bookingId),
    (ofString "idempotencyKey", .string job.idempotencyKey), (ofString "trainId", .string job.trainId),
    (ofString "passengerName", .string job.passengerName)]

/-- The bytes of the message: `qstash.publishJSON` sends `JSON.stringify(body)`.
Source: `infra/qstash/publisher.ts` `publishAllocateJob`. Kind: D. Fidelity: the documented behaviour of the
broker's client -/
def publishJSON (job : AllocateJobSchema.Output) : List UInt8 := utf8Bytes (stringify (jobBody job))

/-- Step 2 of the worker on the bytes of the body; an error is the message of the 489.
Source: `app/api/worker/allocate/route.ts` `handler` (step 2). Kind: D. Fidelity: without the `issues` -/
def workerBody (bytes : List UInt8) : Except String AllocateJobSchema.Output :=
  match parse (decodeBody bytes) with
  | none => .error "could not parse worker job body"
  | some body =>
    match AllocateJobSchema.safeParse body with
    | none => .error "worker job failed schema validation"
    | some job => .ok job

/-- The values of a header: one or a list. Source: `app/api/webhooks/qstash-failure/route.ts`
`QStashFailureBody`. Kind: D -/
inductive HeaderValue
  | one (value : JsString)
  | many (values : List JsString)

/-- A failure callback, `none` being `undefined`. Source: `app/api/webhooks/qstash-failure/route.ts`
`QStashFailureBody`. Kind: D. Fidelity: numbers are integers -/
structure QStashFailureBody where
  status : Option ℤ
  header : Option (List (JsString × HeaderValue))
  body : Option JsString
  retried : Option ℤ
  sourceMessageId : Option JsString

/-- `decodeBase64Json`. Source: `app/api/webhooks/qstash-failure/route.ts` `decodeBase64Json`. Kind: D.
Fidelity: exact -/
def decodeBase64Json (b64 : JsString) : Json :=
  match parse (utf8Decode (ofBase64 b64)) with
  | some v => v
  | none => .object [(ofString "_raw", .string (b64.take 200))]

/-- `headerOne`. Source: `app/api/webhooks/qstash-failure/route.ts` `headerOne`. Kind: D. Fidelity: exact -/
def headerOne (header : Option (List (JsString × HeaderValue))) (key : JsString) : Option JsString :=
  match (header.getD []).find? fun e => e.1 == key with
  | some (_, .many values) => values.head?
  | some (_, .one value) => some value
  | none => none

/-- The message a callback is about. Source: `app/api/webhooks/qstash-failure/route.ts` `handler`
(`sourceMessageId`). Kind: D. Fidelity: exact -/
def sourceMessageId (cb : QStashFailureBody) : Option JsString :=
  cb.sourceMessageId <|> headerOne cb.header (ofString "Upstash-Message-Id") <|>
    headerOne cb.header (ofString "upstash-message-id")

/-- The arguments of `insertDlqJob`. Source: `lib/db/repositories/dlq.ts` `insertDlqJob`. Kind: D.
Fidelity: exact -/
structure DlqArgs where
  qstashMessageId : JsString
  payload : Json
  errorReason : String
  attemptCount : ℤ

/-- The reason recorded for a dead letter. Source: `app/api/webhooks/qstash-failure/route.ts` `handler`
(`errorReason`). Kind: D. Fidelity: exact -/
def errorReason : Option ℤ → String
  | some status => s!"retries_exhausted_http_{status}"
  | none => "retries_exhausted"

/-- What the webhook inserts; an error is the body of the 400.
Source: `app/api/webhooks/qstash-failure/route.ts` `handler`. Kind: D. Fidelity: exact -/
def failureArgs (cb : QStashFailureBody) : Except String DlqArgs :=
  match sourceMessageId cb with
  | none | some [] => .error "missing message id"
  | some id =>
    .ok { qstashMessageId := id
          payload := match cb.body with
            | none | some [] => .null
            | some body => decodeBase64Json body
          errorReason := errorReason cb.status
          attemptCount := cb.retried.getD 0 }

/-- A property of a value that is no `null`. Source: none: ECMAScript `OrdinaryGet`. Kind: D -/
def property (k : JsString) : Json → Option Json
  | .object entries => lookup k entries
  | _ => none

/-- A value that counts as `true`. Source: none: ECMAScript `ToBoolean`. Kind: D -/
def isTruthy : Json → Bool
  | .null => false
  | .bool b => b
  | .number (.finite _ m) => decide (m.units ≠ 0)
  | .number (.infinite _) => true
  | .string s => decide (s ≠ [])
  | .array _ | .object _ => true

/-- What the clean-up of the webhook is called with: `releaseHoldTerminally` and `commitIdempotencyResponse`.
Source: `app/api/webhooks/qstash-failure/route.ts` `handler`. Kind: D. Fidelity: exact -/
structure Cleanup where
  bookingId : Json
  idempotencyKey : Json
  trainId : Json
  reason : String

/-- The clean-up of a callback, where its payload names a booking and a key.
Source: `app/api/webhooks/qstash-failure/route.ts` `handler` (`jobPayload`). Kind: D. Fidelity: exact -/
def cleanup (args : DlqArgs) : Option Cleanup :=
  match property (ofString "bookingId") args.payload, property (ofString "idempotencyKey") args.payload with
  | some bookingId, some key =>
    if isTruthy bookingId && isTruthy key then
      some { bookingId
             idempotencyKey := key
             trainId := (property (ofString "trainId") args.payload).getD .null
             reason := if args.errorReason = "retries_exhausted_http_489" then "payment_failed"
               else "retries_exhausted" }
    else none
  | _, _ => none

/-- The text bound to the column `payload`. Source: `lib/db/repositories/dlq.ts` `insertDlqJob`. Kind: D.
Fidelity: exact -/
def payloadText (args : DlqArgs) : JsString := stringify args.payload

/-- What the driver may return of a `JSONB` column for the text bound to it: the database sends a text of the
value, its keys in any order, and the driver parses it or does not. Source: none: PostgreSQL `JSONB`, with
the comment on `lib/db/repositories/dlq.ts` `listUnresolvedDlq`. Kind: D -/
def Returned (text : JsString) (payload : Json) : Prop :=
  ∃ v w t, parse text = some v ∧ same v w = true ∧ parse t = some w ∧ (payload = w ∨ payload = .string t)

/-- The payload parsed back. Source: `lib/db/repositories/dlq.ts` `getDlqJobById`. Kind: D. Fidelity: exact -/
def rehydrate : Json → Json
  | .string text => (parse text).getD (.string text)
  | payload => payload

/-- The bytes the retry route publishes for a row; an error is the message of the 400.
Source: `app/api/admin/dlq/[id]/retry/route.ts` `POST`. Kind: D. Fidelity: without the `issues` -/
def retryPublishes (payload : Json) : Except String (List UInt8) :=
  match AllocateJobSchema.safeParse (rehydrate payload) with
  | none => .error "stored DLQ payload failed worker schema validation"
  | some job => .ok (publishJSON job)

/-! ## A job sent is the job read -/

/-- The checks of `AllocateJobSchema` on four strings. Source: `lib/validation/worker.ts`
`AllocateJobSchema`. Kind: D -/
def accepts (job : AllocateJobSchema.Output) : Bool :=
  idempotencyKeySchema (patternText job.bookingId) && idempotencyKeySchema (patternText job.idempotencyKey) &&
    trainIdSchema (patternText job.trainId) && decide (1 ≤ job.passengerName.length) &&
    decide (job.passengerName.length ≤ 100)

section sending

variable {job : AllocateJobSchema.Output}

/-- The keys of a job differ, and none is an array index. Source: `infra/qstash/publisher.ts`
`AllocateJobPayload`. Kind: L -/
theorem ordered_jobBody (job : AllocateJobSchema.Output) : (jobBody job).ordered = true := by
  have howned : Owned [(ofString "bookingId", Json.null), (ofString "idempotencyKey", .null),
      (ofString "trainId", .null), (ofString "passengerName", .null)] := by decide
  rw [jobBody, ordered_object]
  refine ⟨howned, ?_⟩
  simp only [List.forall_mem_cons]
  exact ⟨rfl, rfl, rfl, rfl, List.forall_mem_nil _⟩

/-- A job is its own text's value. Source: none: infrastructure. Kind: L -/
theorem plain_jobBody (job : AllocateJobSchema.Output) : (jobBody job).plain = jobBody job := by
  simp [jobBody, Json.plain]

/-- The text of a job is parsed as the job. Source: `infra/qstash/publisher.ts` `publishAllocateJob`.
Kind: L -/
theorem parse_jobBody (job : AllocateJobSchema.Output) :
    parse (stringify (jobBody job)) = some (jobBody job) := by
  rw [parse_stringify (ordered_jobBody job), plain_jobBody]

/-- The schema on any object with the four entries. Source: `lib/validation/worker.ts` `AllocateJobSchema`.
Kind: L -/
theorem safeParse_of_mem {es : List (JsString × Json)} (hes : (keys es).Nodup)
    (hb : (ofString "bookingId", .string job.bookingId) ∈ es)
    (hk : (ofString "idempotencyKey", .string job.idempotencyKey) ∈ es)
    (ht : (ofString "trainId", .string job.trainId) ∈ es)
    (hn : (ofString "passengerName", .string job.passengerName) ∈ es) :
    AllocateJobSchema.safeParse (.object es) = if accepts job then some job else none := by
  simp only [AllocateJobSchema.safeParse, (lookup_eq_some hes).mpr hb, (lookup_eq_some hes).mpr hk,
    (lookup_eq_some hes).mpr ht, (lookup_eq_some hes).mpr hn]
  rfl

/-- The keys of a job differ. Source: none: infrastructure. Kind: L -/
theorem nodup_jobBody : [ofString "bookingId", ofString "idempotencyKey", ofString "trainId",
    ofString "passengerName"].Nodup := by decide

/-- The schema on a job. Source: `lib/validation/worker.ts` `AllocateJobSchema`. Kind: L -/
theorem safeParse_jobBody (job : AllocateJobSchema.Output) :
    AllocateJobSchema.safeParse (jobBody job) = if accepts job then some job else none :=
  safeParse_of_mem nodup_jobBody (by simp) (by simp) (by simp) (by simp)

/-- A message begins with a brace. Source: `infra/qstash/publisher.ts` `publishAllocateJob`. Kind: L -/
theorem stringify_jobBody (job : AllocateJobSchema.Output) :
    ∃ t, stringify (jobBody job) = unit '{' :: t := by
  rw [jobBody, stringify_object, List.cons_append]
  exact ⟨_, rfl⟩

/-- A message has a body. Source: `infra/qstash/publisher.ts` `publishAllocateJob`. Kind: L -/
theorem publishJSON_ne_nil (job : AllocateJobSchema.Output) : publishJSON job ≠ [] := by
  intro hnil
  obtain ⟨t, ht⟩ := stringify_jobBody job
  have hdecode := utf8Decode_utf8Bytes (wellFormed_stringify (jobBody job))
  rw [publishJSON] at hnil
  rw [hnil, ht] at hdecode
  cases hdecode

/-- The bytes of an object are decoded to its text. Source: none: infrastructure. Kind: L -/
theorem decodeBody_stringify {v : Json} {t : JsString} (h : stringify v = unit '{' :: t) :
    decodeBody (utf8Bytes (stringify v)) = stringify v := by
  have hwell := wellFormed_stringify v
  rw [h] at hwell ⊢
  exact decodeBody_utf8Bytes (by decide) hwell

/-- **The worker reads the job that was published**, and refuses it by its checks alone.
Source: `app/api/worker/allocate/route.ts` `handler` (step 2). Kind: L -/
theorem workerBody_publishJSON (job : AllocateJobSchema.Output) : workerBody (publishJSON job) =
    if accepts job then .ok job else .error "worker job failed schema validation" := by
  obtain ⟨t, ht⟩ := stringify_jobBody job
  simp only [workerBody, publishJSON, decodeBody_stringify ht, parse_jobBody, safeParse_jobBody]
  cases accepts job <;> rfl

/-- What a booking read of bytes was. Source: `app/api/book/route.ts` `handle` (step 2). Kind: L -/
theorem of_bookBody {bytes : List UInt8} {out : BookRequestSchema.Output} (h : bookBody bytes = .ok out) :
    ∃ body raw, BookRequestSchema.fields body = some raw ∧ BookRequestSchema.checks raw = true ∧
      { raw with passengerName := trimUnits raw.passengerName } = out := by
  simp only [bookBody] at h
  split at h
  · cases h
  · split at h
    · cases h
    · rename_i body _
      split at h
      · cases h
      · rename_i parsed hparsed
        obtain rfl := Except.ok.inj h
        cases hraw : BookRequestSchema.fields body with
        | none => simp [BookRequestSchema.safeParse, hraw] at hparsed
        | some raw =>
          obtain ⟨hchecks, hout⟩ := of_safeParse hraw hparsed
          exact ⟨body, raw, hraw, hchecks, hout.symm⟩

/-- **The worker reads the job of the row.** Whatever bytes a client sends: where the ingress reads a booking
of them and the table takes its row, the worker reads the message published for it as a job whose strings
are, as the database has them, the columns of the row.
Source: `app/api/book/route.ts` `handle`, `infra/qstash/publisher.ts` `publishAllocateJob`,
`app/api/worker/allocate/route.ts` `handler` (step 2). Kind: P -/
theorem worker_reads_row {bytes : List UInt8} {out : BookRequestSchema.Output} {key : JsString}
    {id : SqlText} {now : Time} {trains : List SqlText} {row : BookingColumns}
    (hbody : bookBody bytes = .ok out) (hkey : uuidV4Re (patternText key) = true)
    (hid : uuidV4Re (String.ofList id) = true)
    (hrow : BookingColumns.createBooking id now key out = some row)
    (hinserted : inserted trains (some row) = true) :
    ∃ job, workerBody (publishJSON ⟨encode id, key, out.trainId, out.passengerName⟩) = .ok job ∧
      toText job.bookingId = row.id ∧ toText job.idempotencyKey = row.idempotencyKey ∧
      toText job.trainId = row.trainId ∧ toText job.passengerName = row.passengerName := by
  obtain ⟨body, raw, hraw, hchecks, rfl⟩ := of_bookBody hbody
  simp only [BookRequestSchema.checks, Bool.and_eq_true, decide_eq_true_eq] at hchecks
  simp only [BookingColumns.createBooking, Option.bind_eq_bind, Option.bind_eq_some_iff, Option.pure_def,
    Option.some.injEq] at hrow
  obtain ⟨keyText, hkeyText, trainText, htrainText, name, hname, phone, -, rfl⟩ := hrow
  -- the table asks for a character of the name, so there is a code unit
  have hpos : 1 ≤ (trimUnits raw.passengerName).length := by
    simp only [inserted, Option.any_some, BookingColumns.checks, Option.all_some, Bool.and_eq_true,
      decide_eq_true_eq] at hinserted
    obtain ⟨-, hdecode⟩ : _ ∧ decode (trimUnits raw.passengerName) = name := by
      simpa [toText] using hname
    rw [← hdecode] at hinserted
    exact hinserted.1.2.1.1.trans (length_decode_le _)
  have hmax := (length_trimUnits_le raw.passengerName).trans hchecks.1.2
  have hidText : patternText (encode id) = String.ofList id := by
    rw [patternText, map_single_encode fun c hc =>
      toNat_lt_of_isUuidChar (isUuidChar_of_mem hid (by simpa using hc))]
  have hidSchema : idempotencyKeySchema (patternText (encode id)) = true :=
    hidText ▸ idempotencyKeySchema_of_uuidV4Re hid
  have haccepts : accepts ⟨encode id, key, raw.trainId, trimUnits raw.passengerName⟩ = true := by
    simp [accepts, hidSchema, idempotencyKeySchema_of_uuidV4Re hkey, hchecks.1.1.1, hpos, hmax]
  have hnul : Char.ofNat 0 ∉ id := fun hmem =>
    absurd (isUuidChar_of_mem hid (by simpa using hmem)) (by decide)
  have hidColumn : toText (encode id) = some id := by rw [toText, decode_encode, if_neg hnul]
  exact ⟨_, (workerBody_publishJSON _).trans (if_pos haccepts), hidColumn, hkeyText, htrainText, hname⟩

/-- The fields of a request are listed in order. Source: `lib/validation/book.ts` `BookRequest`. Kind: L -/
theorem ordered_body (raw : BookRequestSchema.Output) : raw.body.ordered = true := by
  have htwo : Owned [(ofString "trainId", Json.null), (ofString "passengerName", .null)] := by decide
  have hthree : Owned [(ofString "trainId", Json.null), (ofString "passengerName", .null),
      (ofString "passengerPhone", .null)] := by decide
  obtain ⟨trainId, name, phone⟩ := raw
  cases phone with
  | none =>
    refine ordered_object.mpr ⟨htwo, ?_⟩
    simp only [List.forall_mem_cons]
    exact ⟨rfl, rfl, List.forall_mem_nil _⟩
  | some phone =>
    refine ordered_object.mpr ⟨hthree, ?_⟩
    simp only [List.forall_mem_cons]
    exact ⟨rfl, rfl, rfl, List.forall_mem_nil _⟩

/-- A client that sends the fields of a request as JSON has them read. Source: `app/api/book/route.ts`
`handle` (step 2). Kind: L -/
theorem bookBody_body {raw out : BookRequestSchema.Output}
    (h : BookRequestSchema.safeParse raw.body = some out) :
    bookBody (utf8Bytes (stringify raw.body)) = .ok out := by
  obtain ⟨t, ht⟩ : ∃ t, stringify raw.body = unit '{' :: t := by
    rw [BookRequestSchema.Output.body, stringify_object, List.cons_append]
    exact ⟨_, rfl⟩
  have hplain : raw.body.plain = raw.body := by
    rw [BookRequestSchema.Output.body]
    cases raw.passengerPhone <;> rfl
  have hparse : parse (stringify raw.body) = some raw.body := by
    rw [parse_stringify (ordered_body raw), hplain]
  have hne : stringify raw.body ≠ [] := by simp [ht]
  simp only [bookBody, decodeBody_stringify ht, if_neg hne, hparse, h]

/-- Asha's request reaches the worker. Source: none: infrastructure. Kind: L -/
theorem worker_reads_row_asha : ∃ row,
    BookingColumns.createBooking "6f1d0d52-5f3c-4a8e-9b7a-2f4f0c5d7e91".toList 0
      (ofString "0b9f0d52-5f3c-4a8e-9b7a-2f4f0c5d7e91")
      ⟨ofString "12951", ofString "Asha", some (ofString "9876543210")⟩ = some row ∧
    ∃ job, workerBody (publishJSON ⟨encode "6f1d0d52-5f3c-4a8e-9b7a-2f4f0c5d7e91".toList,
        ofString "0b9f0d52-5f3c-4a8e-9b7a-2f4f0c5d7e91", ofString "12951", ofString "Asha"⟩) = .ok job ∧
      toText job.passengerName = row.passengerName := by
  have hout : BookRequestSchema.safeParse (BookRequestSchema.Output.body
      ⟨ofString "12951", ofString "Asha ", some (ofString "9876543210")⟩) =
      some ⟨ofString "12951", ofString "Asha", some (ofString "9876543210")⟩ := by decide
  obtain ⟨row, hrow⟩ := Option.isSome_iff_exists.mp (by decide :
    (BookingColumns.createBooking "6f1d0d52-5f3c-4a8e-9b7a-2f4f0c5d7e91".toList 0
      (ofString "0b9f0d52-5f3c-4a8e-9b7a-2f4f0c5d7e91")
      ⟨ofString "12951", ofString "Asha", some (ofString "9876543210")⟩).isSome = true)
  have hinserted : inserted ["12951".toList] (some row) = true := by
    rw [← hrow]
    decide
  obtain ⟨job, hjob, -, -, -, hname⟩ :=
    worker_reads_row (bookBody_body hout) (by decide) (by decide) hrow hinserted
  exact ⟨row, hrow, job, hjob, hname⟩

end sending

/-! ## A dead letter is the job that died -/

section dead

variable {job : AllocateJobSchema.Output}

/-- The webhook decodes the body of a callback to the job that was published.
Source: `app/api/webhooks/qstash-failure/route.ts` `decodeBase64Json`. Kind: L -/
theorem decodeBase64Json_publishJSON (job : AllocateJobSchema.Output) :
    decodeBase64Json (toBase64 (publishJSON job)) = jobBody job := by
  simp only [decodeBase64Json, publishJSON, ofBase64_toBase64, utf8Decode_utf8Bytes (wellFormed_stringify _),
    parse_jobBody]

/-- The schema on whatever a job became in the column. Source: `lib/validation/worker.ts`
`AllocateJobSchema`. Kind: L -/
theorem safeParse_of_same {w : Json} (h : same (jobBody job) w = true) (hw : w.distinct = true) :
    AllocateJobSchema.safeParse w = if accepts job then some job else none := by
  obtain ⟨fs, rfl, -, hall⟩ := same_object hw h
  have hentry : ∀ k s, (k, Json.string s) ∈ [(ofString "bookingId", Json.string job.bookingId),
      (ofString "idempotencyKey", .string job.idempotencyKey), (ofString "trainId", .string job.trainId),
      (ofString "passengerName", .string job.passengerName)] → (k, Json.string s) ∈ fs := by
    intro k s hmem
    obtain ⟨v, hv, hsame⟩ := hall _ hmem
    cases v <;> simp only [same, Bool.false_eq_true, beq_iff_eq] at hsame
    rwa [hsame]
  exact safeParse_of_mem (distinct_object.mp hw).1 (hentry _ _ (by simp)) (hentry _ _ (by simp))
    (hentry _ _ (by simp)) (hentry _ _ (by simp))

/-- What the row of a job gives back is sent as the job. Source: `app/api/admin/dlq/[id]/retry/route.ts`
`POST`, `lib/db/repositories/dlq.ts` `getDlqJobById`. Kind: L -/
theorem retryPublishes_of_returned {payload : Json} (h : Returned (stringify (jobBody job)) payload) :
    retryPublishes payload = if accepts job then .ok (publishJSON job)
      else .error "stored DLQ payload failed worker schema validation" := by
  obtain ⟨v, w, t, hv, hsame, ht, hpayload⟩ := h
  obtain rfl : jobBody job = v := Option.some.inj ((parse_jobBody job).symm.trans hv)
  have hw : w.distinct = true := distinct_of_ordered (ordered_of_parse ht)
  have hrehydrate : rehydrate payload = w := by
    rcases hpayload with rfl | rfl
    · obtain ⟨fs, rfl, -⟩ := same_object hw hsame
      rfl
    · rw [rehydrate, ht, Option.getD_some]
  rw [retryPublishes, hrehydrate, safeParse_of_same hsame hw]
  cases accepts job <;> rfl

/-- The properties of a job. Source: `infra/qstash/publisher.ts` `AllocateJobPayload`. Kind: L -/
theorem property_jobBody (job : AllocateJobSchema.Output) :
    property (ofString "bookingId") (jobBody job) = some (.string job.bookingId) ∧
    property (ofString "idempotencyKey") (jobBody job) = some (.string job.idempotencyKey) ∧
    property (ofString "trainId") (jobBody job) = some (.string job.trainId) := by
  have hkeys : (keys [(ofString "bookingId", Json.string job.bookingId),
      (ofString "idempotencyKey", .string job.idempotencyKey), (ofString "trainId", .string job.trainId),
      (ofString "passengerName", .string job.passengerName)]).Nodup := nodup_jobBody
  simp only [property, jobBody, lookup_eq_some hkeys]
  simp

/-- A 489 is told by its reason. Source: `app/api/webhooks/qstash-failure/route.ts` `handler`
(`errorReason`). Kind: L -/
theorem errorReason_eq_iff {status : Option ℤ} :
    errorReason status = "retries_exhausted_http_489" ↔ status = some 489 := by
  cases status with
  | none =>
    have hnone : errorReason none ≠ "retries_exhausted_http_489" := by decide
    simp [hnone]
  | some n =>
    have htext : "retries_exhausted_http_489" = "retries_exhausted_http_" ++ Int.repr 489 := by decide
    change "retries_exhausted_http_" ++ Int.repr n = _ ↔ _
    rw [htext, String.append_right_inj, Int.repr_inj, Option.some.injEq]

/-- **A dead letter is the job that died.** The callback of any message published for four strings makes the
webhook insert the text that was sent, under the message's id, and clean up for the booking, the key and the
train in it; and whatever the column gives back of that text, the retry route publishes the same bytes again
where the worker would read them, and refuses where it would not.
Source: `app/api/webhooks/qstash-failure/route.ts` `handler`, `lib/db/repositories/dlq.ts` `insertDlqJob`,
`getDlqJobById`, `app/api/admin/dlq/[id]/retry/route.ts` `POST`. Kind: P -/
theorem dead_letter_round_trip {cb : QStashFailureBody} {id : JsString} (hid : sourceMessageId cb = some id)
    (hne : id ≠ []) (hbody : cb.body = some (toBase64 (publishJSON job))) :
    ∃ args, failureArgs cb = .ok args ∧ args.qstashMessageId = id ∧
      payloadText args = stringify (jobBody job) ∧
      cleanup args = (if job.bookingId ≠ [] ∧ job.idempotencyKey ≠ [] then
        some { bookingId := .string job.bookingId
               idempotencyKey := .string job.idempotencyKey
               trainId := .string job.trainId
               reason := if cb.status = some 489 then "payment_failed" else "retries_exhausted" }
        else none) ∧
      ∀ payload, Returned (payloadText args) payload →
        (∀ job', workerBody (publishJSON job) = .ok job' →
          job' = job ∧ retryPublishes payload = .ok (publishJSON job)) ∧
        ∀ message, workerBody (publishJSON job) = .error message →
          message = "worker job failed schema validation" ∧
          retryPublishes payload = .error "stored DLQ payload failed worker schema validation" := by
  obtain ⟨u, rest, hcons⟩ := List.exists_cons_of_ne_nil (toBase64_ne_nil (publishJSON_ne_nil job))
  obtain ⟨v, id, rfl⟩ := List.exists_cons_of_ne_nil hne
  have hpayload : decodeBase64Json (u :: rest) = jobBody job := hcons ▸ decodeBase64Json_publishJSON job
  rw [hcons] at hbody
  refine ⟨⟨v :: id, jobBody job, errorReason cb.status, cb.retried.getD 0⟩, ?_, rfl, rfl, ?_,
    fun payload hreturned => ⟨fun job' hjob => ?_, fun message hmessage => ?_⟩⟩
  · simp only [failureArgs, hid, hbody, hpayload]
  · obtain ⟨hb, hk, ht⟩ := property_jobBody job
    simp only [cleanup, hb, hk, ht, isTruthy, Option.getD_some, Bool.and_eq_true, decide_eq_true_eq,
      errorReason_eq_iff]
  · have hretry := retryPublishes_of_returned hreturned
    rw [workerBody_publishJSON] at hjob
    split at hjob
    · rename_i haccepts
      rw [if_pos haccepts] at hretry
      exact ⟨(Except.ok.inj hjob).symm, hretry⟩
    · cases hjob
  · have hretry := retryPublishes_of_returned hreturned
    rw [workerBody_publishJSON] at hmessage
    split at hmessage
    · cases hmessage
    · rename_i haccepts
      rw [if_neg haccepts] at hretry
      exact ⟨(Except.error.inj hmessage).symm, hretry⟩

/-- A job. Source: none: infrastructure. Kind: D -/
def asha : AllocateJobSchema.Output :=
  ⟨ofString "6f1d0d52-5f3c-4a8e-9b7a-2f4f0c5d7e91", ofString "0b9f0d52-5f3c-4a8e-9b7a-2f4f0c5d7e91",
    ofString "12951", ofString "Asha"⟩

/-- The callback of its message. Source: none: infrastructure. Kind: D -/
def ashasFailure : QStashFailureBody :=
  ⟨some 489, none, some (toBase64 (publishJSON asha)), some 3, some (ofString "msg_1")⟩

/-- A dead letter retried from the text of its row. Source: none: infrastructure. Kind: L -/
theorem dead_letter_round_trip_asha : ∃ args, failureArgs ashasFailure = .ok args ∧
    retryPublishes (.string (payloadText args)) = .ok (publishJSON asha) := by
  have hid : sourceMessageId ashasFailure = some (ofString "msg_1") := rfl
  have hbody : ashasFailure.body = some (toBase64 (publishJSON asha)) := rfl
  have hread : workerBody (publishJSON asha) = .ok asha :=
    (workerBody_publishJSON asha).trans (if_pos (by decide))
  obtain ⟨args, hargs, -, htext, -, hretry⟩ := dead_letter_round_trip hid (by decide) hbody
  have hparse := htext ▸ parse_jobBody asha
  have hreturned : Returned (payloadText args) (.string (payloadText args)) :=
    ⟨jobBody asha, jobBody asha, _, hparse, by decide, hparse, .inr rfl⟩
  exact ⟨args, hargs, ((hretry _ hreturned).1 asha hread).2⟩

end dead

end Wire

end TrainsAndTracks
