import AzothBalancer.Forwarder
import AzothBalancer.Lib.JsonSearch

/-!
# Errors in responses

`response_has_error` looks for an error in a body without parsing it: it takes what follows the first
`"error":` and compares it with `null`. `responseHasError_bytes` says, for every JSON text, what it finds:
the value of the first marked member (`JsonText.Text.firstMarked`), at any depth.

`error_scan_iff` compares that with the error members the responses have. `Misread` lists the ways in which
the two part: no error member is marked, the first one is `null`, or the first marked member is not the error
of a response. `spaced_error_missed` is a response with white space before the colon.
-/

namespace AzothBalancer

open JsonText (Document Text Name nullLexeme)

/-! ## What the scan finds -/

/-- The name `error`. -/
def errorName : Name := ⟨[0x65, 0x72, 0x72, 0x6F, 0x72], by decide⟩

/-- The scan, by the search it makes.
Source: `forwarder.rs` `response_has_error` -/
theorem responseHasError_eq (bytes : List UInt8) :
    responseHasError bytes = match JsonText.afterFirst errorName.pattern bytes with
      | none => false
      | some value => !nullLexeme.isPrefixOf (value.dropWhile isWhitespaceByte) := by
  induction bytes with
  | nil => rfl
  | cons b bytes ih =>
      rw [responseHasError, JsonText.afterFirst]
      change (if errorName.pattern.isPrefixOf (b :: bytes) = true then _ else _) = _
      split
      · rfl
      · exact ih

/-- The white space of JSON is skipped. -/
theorem isWhitespaceByte_of_isBlank {b : UInt8} (h : JsonText.isBlank b = true) :
    isWhitespaceByte b = true := by
  simp only [JsonText.isBlank, decide_eq_true_eq, List.mem_cons, List.not_mem_nil, or_false] at h
  rcases h with rfl | rfl | rfl | rfl <;> decide

/-- What opens a value is not. -/
theorem isWhitespaceByte_of_isVisible {b : UInt8} (h : JsonText.isVisible b = true) :
    isWhitespaceByte b = false := by
  obtain ⟨hlow, hhigh⟩ : 0x21 ≤ b ∧ b ≤ 0x7E := by simpa [JsonText.isVisible] using h
  rw [UInt8.le_iff_toNat_le] at hlow hhigh
  have hlow : 0x21 ≤ b.toNat := hlow
  have hhigh : b.toNat ≤ 0x7E := hhigh
  have hchar : (Char.ofNat b.toNat).toNat = b.toNat := by
    rw [Char.ofNat, dif_pos (.inl (by omega))]
    rfl
  unfold isWhitespaceByte isWhitespace
  rw [hchar]
  simp
  omega

/-- **What the scan finds**: the first marked member, at any depth; it has an error if that is not `null`.
Source: `forwarder.rs` `response_has_error` -/
theorem responseHasError_bytes (d : Document) :
    responseHasError d.bytes = match d.root.firstMarked errorName with
      | none => false
      | some value => !value.isNull := by
  have hscan := d.scans errorName
  rw [responseHasError_eq]
  cases hfirst : d.root.firstMarked errorName with
  | none =>
      rw [hfirst] at hscan
      unfold JsonText.Scans at hscan
      rw [List.append_nil] at hscan
      rw [hscan]
      rfl
  | some value =>
      rw [hfirst] at hscan
      obtain ⟨ws, tail, heq⟩ := hscan
      obtain ⟨b, bs, hbytes, hvisible, -⟩ := value.exists_bytes
      rw [List.append_nil] at heq
      rw [heq]
      have hskip : (ws.1 ++ (value.bytes ++ tail)).dropWhile isWhitespaceByte = value.bytes ++ tail := by
        rw [List.dropWhile_append_of_pos fun b hb => isWhitespaceByte_of_isBlank (ws.2 b hb), hbytes,
          List.cons_append, List.dropWhile_cons_of_neg]
        rw [isWhitespaceByte_of_isVisible hvisible]
        exact Bool.false_ne_true
      simp only [hskip, value.isPrefixOf_null]

/-- When it reports an error. -/
theorem responseHasError_iff (d : Document) : responseHasError d.bytes = true ↔
    ∃ value, d.root.firstMarked errorName = some value ∧ value.isNull = false := by
  rw [responseHasError_bytes]
  cases d.root.firstMarked errorName <;> simp

/-! ## What the responses say -/

/-- The response objects of a body: the elements of an array, or the one value. -/
def responses (d : Document) : List Text :=
  match d.root with
  | .array items => items.texts
  | t => [t]

/-- The body is a response object or a non-empty array of them. -/
def IsResponse (d : Document) : Prop := ∀ r ∈ responses d, r.isObject = true

instance (d : Document) : Decidable (IsResponse d) :=
  inferInstanceAs (Decidable (∀ r ∈ responses d, r.isObject = true))

/-- A response object has a top-level error member that is not `null`. -/
def HasError (d : Document) : Prop :=
  ∃ r ∈ responses d, ∃ value ∈ r.under errorName.1, value.isNull = false

instance (d : Document) : Decidable (HasError d) :=
  inferInstanceAs (Decidable (∃ r ∈ responses d, ∃ value ∈ r.under errorName.1, value.isNull = false))

/-- How the scan misreads a body. -/
inductive Misread (d : Document) : Prop where
  /-- There is an error, and no member is marked: each error member has white space before its colon, or
  escapes in its key. -/
  | unmarked : HasError d → d.root.firstMarked errorName = none → Misread d
  /-- There is an error, and the first marked member is `null`. -/
  | nullFirst (value : Text) : HasError d → d.root.firstMarked errorName = some value →
      value.isNull = true → Misread d
  /-- There is no error, and the first marked member is not `null`: it lies deeper, or its key only ends like
  that. -/
  | elsewhere (value : Text) : ¬ HasError d → d.root.firstMarked errorName = some value →
      value.isNull = false → Misread d

/-- **When the scan agrees with parsing.** For every JSON text, and so for every response and every batch of
them: the scan reports an error exactly if a response has one, if and only if it does not misread the text.
Source: `forwarder.rs` `response_has_error` -/
theorem error_scan_iff (d : Document) :
    (responseHasError d.bytes = true ↔ HasError d) ↔ ¬ Misread d := by
  rw [responseHasError_iff]
  constructor
  · intro hiff hread
    rcases hread with ⟨herror, hnone⟩ | ⟨value, herror, hsome, hnull⟩ | ⟨value, hno, hsome, hnull⟩
    · obtain ⟨value, hsome, -⟩ := hiff.mpr herror
      rw [hnone] at hsome
      cases hsome
    · obtain ⟨value', hsome', hvalue⟩ := hiff.mpr herror
      rw [hsome] at hsome'
      cases hsome'
      rw [hnull] at hvalue
      cases hvalue
    · exact hno (hiff.mp ⟨value, hsome, hnull⟩)
  · intro hread
    constructor
    · rintro ⟨value, hsome, hnull⟩
      by_contra hno
      exact hread (.elsewhere value hno hsome hnull)
    · intro herror
      cases hfirst : d.root.firstMarked errorName with
      | none => exact (hread (.unmarked herror hfirst)).elim
      | some value =>
          refine ⟨value, rfl, ?_⟩
          rw [← Bool.not_eq_true]
          exact fun hnull => hread (.nullFirst value herror hfirst hnull)

/-- A body is counted as failed exactly if it has an error, unless it is misread.
Source: `forwarder.rs` `forward_request` -/
theorem bodyFamily_iff (d : Document) :
    (bodyFamily d.bytes = if HasError d then .rpcRequestsFailed else .rpcRequestsSucceeded) ↔
      ¬ Misread d := by
  rw [← error_scan_iff]
  unfold bodyFamily
  by_cases herror : HasError d
  · rw [if_pos herror]
    split <;> simp_all
  · rw [if_neg herror]
    split <;> simp_all

/-! ## Bodies that are misread -/

/-- The bytes that stand for themselves, as pieces of a string. -/
def plainPieces (bs : List UInt8) : List JsonText.Piece :=
  bs.filterMap fun b =>
    if h : 0x20 ≤ b ∧ b ≠ JsonText.quote ∧ b ≠ JsonText.backslash then some (.plain b h) else none

/-- The key `error`, without escapes. -/
def errorPieces : List JsonText.Piece := plainPieces [0x65, 0x72, 0x72, 0x6F, 0x72]

/-- The number `1`. -/
def numberOne : Text := .number [0x31]
  ⟨[], [0x31], [], [], rfl, .inl rfl, ⟨by simp, by simp [JsonText.isDigit]⟩, by simp, .inl rfl, .inl rfl⟩

/-- The text `{"jsonrpc":"2.0","id":1,"error" :{"code":-1,"message":"x"}}`. -/
def spacedError : Document where
  before := .none
  root := .object (.more .none (plainPieces [0x6A, 0x73, 0x6F, 0x6E, 0x72, 0x70, 0x63]) .none .none
    (.string (plainPieces [0x32, 0x2E, 0x30])) .none
    (.more .none (plainPieces [0x69, 0x64]) .none .none numberOne .none
    (.one .none errorPieces ⟨[0x20], by simp [JsonText.isBlank]⟩ .none
      (.object (.more .none (plainPieces [0x63, 0x6F, 0x64, 0x65]) .none .none numberOne .none
        (.one .none (plainPieces [0x6D, 0x65, 0x73, 0x73, 0x61, 0x67, 0x65]) .none .none
          (.string (plainPieces [0x78])) .none))) .none)))
  after := .none

/-- **An error is missed**: there is white space between its key and the colon.
Source: `forwarder.rs` `response_has_error` -/
theorem spaced_error_missed :
    ¬ ∀ d : Document, IsResponse d → (responseHasError d.bytes = true ↔ HasError d) := by
  intro h
  have hiff := h spacedError (by decide)
  have hmissed : responseHasError spacedError.bytes = false := rfl
  rw [hiff.mpr (by decide)] at hmissed
  cases hmissed

/-- The text `{"result":{"error":1}}`: the error lies inside a result. -/
def nestedError : Document where
  before := .none
  root := .object (.one .none (plainPieces [0x72, 0x65, 0x73, 0x75, 0x6C, 0x74]) .none .none
    (.object (.one .none errorPieces .none .none numberOne .none)) .none)
  after := .none

example : responseHasError nestedError.bytes = true ∧ ¬ HasError nestedError := ⟨rfl, by decide⟩

/-- The text `[{"error":null},{"error":1}]`: the first error is `null`. -/
def nullErrorFirst : Document where
  before := .none
  root := .array (.more .none (.object (.one .none errorPieces .none .none .null .none)) .none
    (.one .none (.object (.one .none errorPieces .none .none numberOne .none)) .none))
  after := .none

example : responseHasError nullErrorFirst.bytes = false ∧ HasError nullErrorFirst := ⟨rfl, by decide⟩

end AzothBalancer
