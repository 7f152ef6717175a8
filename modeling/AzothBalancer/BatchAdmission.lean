import AzothBalancer.HandleRpc
import AzothBalancer.Instances

/-!
# Batch admission

`handle_rpc` checks the size of a batch twice: on the bytes of the body, by its opening braces, and
on the parsed array, by its elements. `batchTooLarge_iff` is what the two checks refuse. They do not
agree: objects inside the elements, and braces in strings, count in the first check only
(`nested_object_refused`). `admission_agrees_iff` is the condition under which they do, by the
grammar of the body.
-/

namespace AzothBalancer

open JsonText (Json)

variable {M : Meter}

/-- What is relied on of `serde_json::from_slice`: it accepts JSON texts only, and answers a value the
text denotes. -/
def AcceptsJson (fromSlice : List UInt8 → Except String Json) : Prop :=
  ∀ body v, fromSlice body = .ok v → ∃ d : JsonText.Document, d.bytes = body ∧ d.root.Denotes v

/-- The text of an array looks like a batch.
Source: `main.rs` `handle_rpc`, `is_likely_batch` -/
theorem isLikelyBatch_of_array {d : JsonText.Document} {items : List Json}
    (h : d.root.Denotes (.array items)) : isLikelyBatch d.bytes = true := by
  unfold isLikelyBatch
  rw [JsonText.Document.find?_of_array h, decide_eq_true rfl]
  · intro b hb
    simp only [JsonText.isBlank, isAsciiWhitespace, List.mem_cons, List.not_mem_nil, or_false,
      decide_eq_true_eq, Bool.not_eq_false'] at hb ⊢
    tauto
  · decide

/-- The bytes of an array are checked against its braces. -/
theorem checkRaw_of_array {d : JsonText.Document} {items : List Json}
    (h : d.root.Denotes (.array items)) (hsize : d.bytes.length ≤ maxJsonSize) (m : ℕ) :
    checkRaw m d.bytes = if m < approxBatchSize d.bytes then some .batchTooLarge else none := by
  unfold checkRaw
  rw [if_neg (Nat.not_lt.mpr hsize), isLikelyBatch_of_array h]
  simp

/-- A non-empty array is a batch of its elements. -/
theorem parsePayload_of_array {fromSlice : List UInt8 → Except String Json} {body : List UInt8}
    {items : List Json} (hne : items ≠ []) (hparse : fromSlice body = .ok (.array items)) :
    parsePayload fromSlice body = .ok ⟨.array items, true, items.length⟩ := by
  unfold parsePayload
  rw [hparse]
  simp [hne]

/-- **What refuses a batch for its size**: more opening braces than `max_batch_size`, or more
elements.
Source: `main.rs` `handle_rpc` -/
theorem batchTooLarge_iff {fromSlice : List UInt8 → Except String Json} {d : JsonText.Document}
    {items : List Json} (hd : d.root.Denotes (.array items)) (hsize : d.bytes.length ≤ maxJsonSize)
    (hne : items ≠ []) (hparse : fromSlice d.bytes = .ok (.array items)) (w : World M)
    (clock : Clock) :
    (handleRpc fromSlice false clock w d.bytes).1 = .answered .batchTooLarge ↔
      w.lb.maxBatchSize < approxBatchSize d.bytes ∨ w.lb.maxBatchSize < items.length := by
  unfold handleRpc
  simp only [checkRaw_of_array hd hsize]
  by_cases hpre : w.lb.maxBatchSize < approxBatchSize d.bytes
  · simp [hpre]
  · rw [if_neg hpre]
    simp only [parsePayload_of_array hne hparse, checkParsed]
    by_cases hpost : w.lb.maxBatchSize < items.length
    · simp [hpost]
    · rw [if_neg hpost]
      simp only [Bool.false_eq_true, if_false]
      rcases getNextEndpoint _ items.length clock with ⟨url, w'⟩
      cases url <;> simp [hpre, hpost]

/-- **When admission agrees with the parsed size.** For a body that parses as a non-empty array, the
batch is refused for its size exactly if it has more than `max_batch_size` elements, if and only if
its objects, at any depth, and the opening braces in its strings are together at most
`max_batch_size`, or the batch is too large anyway.
Source: `main.rs` `handle_rpc` -/
theorem admission_agrees_iff {fromSlice : List UInt8 → Except String Json}
    (hjson : AcceptsJson fromSlice) {body : List UInt8} {items : List Json}
    (hsize : body.length ≤ maxJsonSize) (hne : items ≠ [])
    (hparse : fromSlice body = .ok (.array items)) (w : World M) (clock : Clock) :
    ∃ d : JsonText.Document, d.bytes = body ∧ d.root.Denotes (.array items) ∧
      (((handleRpc fromSlice false clock w body).1 = .answered .batchTooLarge ↔
          w.lb.maxBatchSize < items.length) ↔
        d.root.objects + d.root.stringBraces ≤ w.lb.maxBatchSize ∨
          w.lb.maxBatchSize < items.length) := by
  obtain ⟨d, rfl, hd⟩ := hjson body _ hparse
  refine ⟨d, rfl, hd, ?_⟩
  have hbraces : approxBatchSize d.bytes = d.root.objects + d.root.stringBraces := d.count_openBrace
  rw [batchTooLarge_iff hd hsize hne hparse, hbraces]
  by_cases hpost : w.lb.maxBatchSize < items.length
  · simp [hpost]
  · simp [hpost]

/-- The text `[{"params":[{}]}]`. -/
def nestedBatch : JsonText.Document where
  before := .none
  root := .array (.one .none
    (.object (.one .none
      [.plain 0x70 (by decide), .plain 0x61 (by decide), .plain 0x72 (by decide),
        .plain 0x61 (by decide), .plain 0x6D (by decide), .plain 0x73 (by decide)]
      .none .none (.array (.one .none (.emptyObject .none) .none)) .none))
    .none)
  after := .none

/-- The value of that text. -/
def nestedBatchValue : Json := .array [.object [("params", .array [.object []])]]

/-- A parser that knows that text. -/
def parseNestedBatch (body : List UInt8) : Except String Json :=
  if body = nestedBatch.bytes then .ok nestedBatchValue else .error "expected value"

/-- That parser accepts JSON texts only. -/
theorem acceptsJson_parseNestedBatch : AcceptsJson parseNestedBatch := by
  intro body v hv
  unfold parseNestedBatch at hv
  split at hv
  · rename_i hbody
    cases hv
    refine ⟨nestedBatch, hbody.symm, ?_⟩
    simp [nestedBatch, nestedBatchValue, JsonText.Text.Denotes, JsonText.Items.Denotes,
      JsonText.Members.Contains]
  · cases hv

/-- The parser on that text. -/
theorem parseNestedBatch_bytes : parseNestedBatch nestedBatch.bytes = .ok nestedBatchValue :=
  if_pos rfl

/-- **A batch within the limit is refused.** One request whose parameters hold an object, and a limit
of one request.
Source: `main.rs` `handle_rpc` -/
theorem nested_object_refused : ¬ ∀ (fromSlice : List UInt8 → Except String Json),
    AcceptsJson fromSlice → ∀ (body : List UInt8) (items : List Json), body.length ≤ maxJsonSize →
    items ≠ [] → fromSlice body = .ok (.array items) → ∀ (w : World leakyBucket) (clock : Clock),
    ((handleRpc fromSlice false clock w body).1 = .answered .batchTooLarge ↔
      w.lb.maxBatchSize < items.length) := by
  intro h
  have hiff := h parseNestedBatch acceptsJson_parseNestedBatch nestedBatch.bytes _ (by decide)
    (List.cons_ne_nil _ _) parseNestedBatch_bytes
    { sampleWorld with lb := { sampleWorld.lb with maxBatchSize := 1 } } ⟨0, 0⟩
  exact absurd (hiff.mp rfl) (by decide)

/-- `admission_agrees_iff` for that batch and the default limit. -/
theorem admission_agrees_iff_sample : ∃ d : JsonText.Document, d.bytes = nestedBatch.bytes ∧
    d.root.Denotes nestedBatchValue ∧
      (((handleRpc parseNestedBatch false ⟨0, 0⟩ sampleWorld nestedBatch.bytes).1 =
          .answered .batchTooLarge ↔ 100 < 1) ↔
        d.root.objects + d.root.stringBraces ≤ 100 ∨ 100 < 1) :=
  admission_agrees_iff acceptsJson_parseNestedBatch (by decide) (List.cons_ne_nil _ _)
    parseNestedBatch_bytes sampleWorld ⟨0, 0⟩

end AzothBalancer
