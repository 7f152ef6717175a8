import AzothBalancer.ErrorScan
import AzothBalancer.HandleRpc
import AzothBalancer.Instances
import AzothBalancer.Lib.JsonWrite

/-!
# Error replies

When forwarding fails, `handle_rpc` answers status 200 with a JSON-RPC error object of its own making. The
object is built as a `serde_json::Value`, whose maps are ordered by key, and written in compact form
(`JsonText.Json.write`); the message comes from the upstream's client and the `id` from the request, so either
can be any text.

`error_reply` says that what comes out is well formed whatever they are, reads back as the code, message and
`id` that went in, and is recognised by `response_has_error`, so that a balancer in front of this one counts
the request as failed, passes the reply on and does not mark this one down.
-/

namespace AzothBalancer

open JsonText (Document Json Text pieces quoted utf8)

variable {M : Meter}

/-! ## The reply -/

/-- The error object, in the order of its keys.
Source: `main.rs` `handle_rpc`, `error_payload` -/
def errorPayload (code : ℤ) (message : String) (id : Option Json) : Json :=
  .object [
    ("error", .object [("code", .number (toString code)), ("message", .string message)]),
    ("id", id.getD .null),
    ("jsonrpc", .string "2.0")]

/-- The body of an answer.
Source: `main.rs` `handle_rpc` -/
def RpcAnswer.body : RpcAnswer → List UInt8
  | .payloadTooLarge | .batchTooLarge | .internalServerError | .serviceUnavailable => []
  | .badRequest message => utf8 message
  | .forwarded body => body
  | .rpcError code message id => (errorPayload code message id).write

/-- A member of a proper object is proper. -/
theorem proper_of_mem : ∀ {ms : List (String × Json)} {m : String × Json}, JsonText.ProperMembers ms →
    m ∈ ms → m.2.Proper
  | (_, v) :: ms, m, h, hm => by
      rcases List.mem_cons.mp hm with rfl | hm
      · exact h.1
      · exact proper_of_mem h.2 hm

/-- So is what `Value::get` finds. -/
theorem proper_getMember {v : Json} {key : String} (h : v.Proper) : ∀ w ∈ getMember v key, w.Proper := by
  intro w hw
  unfold getMember at hw
  split at hw
  · obtain ⟨m, hm, rfl⟩ := Option.map_eq_some_iff.mp hw
    exact proper_of_mem h (List.mem_of_find?_eq_some hm)
  · cases hw

/-- The two codes are numbers. -/
theorem isNumber_code {code : ℤ} (h : code = -32000 ∨ code = -32603) :
    JsonText.IsNumber (utf8 (toString code)) := by
  rcases h with rfl | rfl
  · exact ⟨[0x2D], [0x33, 0x32, 0x30, 0x30, 0x30], [], [], by decide, .inr rfl,
      ⟨by simp, by simp [JsonText.isDigit]⟩, by simp, .inl rfl, .inl rfl⟩
  · exact ⟨[0x2D], [0x33, 0x32, 0x36, 0x30, 0x33], [], [], by decide, .inr rfl,
      ⟨by simp, by simp [JsonText.isDigit]⟩, by simp, .inl rfl, .inl rfl⟩

/-- The error object is proper. -/
theorem proper_errorPayload {code : ℤ} (hcode : code = -32000 ∨ code = -32603) (message : String)
    {id : Option Json} (hid : ∀ v ∈ id, v.Proper) : (errorPayload code message id).Proper := by
  refine ⟨⟨isNumber_code hcode, trivial, trivial⟩, ?_, trivial, trivial⟩
  rcases id with _ | v
  · trivial
  · exact hid v rfl

/-- The written object begins with its error.
Source: `main.rs` `handle_rpc`, `error_payload` -/
theorem exists_write_errorPayload (code : ℤ) (message : String) (id : Option Json) :
    ∃ rest, (errorPayload code message id).write = 0x7B :: (errorKey ++ 0x7B :: rest) := by
  have hkey : errorKey = quoted (pieces "error") ++ [JsonText.colon] := by decide
  refine ⟨JsonText.writeMembers [("code", .number (toString code)), ("message", .string message)] ++
    JsonText.closeBrace :: JsonText.comma ::
      (JsonText.writeMembers [("id", id.getD .null), ("jsonrpc", .string "2.0")] ++
        [JsonText.closeBrace]), ?_⟩
  rw [hkey]
  unfold errorPayload
  simp [Json.write, JsonText.writeMembers, JsonText.openBrace]

/-- **The scan sees the error of a reply**, whatever its message and `id` contain.
Source: `forwarder.rs` `response_has_error` -/
theorem responseHasError_errorPayload (code : ℤ) (message : String) (id : Option Json) :
    responseHasError (errorPayload code message id).write = true := by
  obtain ⟨rest, hrest⟩ := exists_write_errorPayload code message id
  rw [hrest]
  rfl

/-- A document that reads as the error object is a response with an error. -/
theorem hasError_of_reads {d : Document} {code : ℤ} {message : String} {id : Option Json}
    (h : d.root.Reads (errorPayload code message id)) : IsResponse d ∧ HasError d := by
  obtain ⟨members, hroot, hreads⟩ := h.exists_members (List.cons_ne_nil _ _)
  have hresponses : responses d = [d.root] := by
    unfold responses
    rw [hroot]
  have hname : utf8 "error" = errorName.1 := by decide
  have hunder := hreads.under "error"
  rw [hname] at hunder
  obtain ⟨value, rest, hvalue, -, hmembers⟩ := List.forall₂_cons_right_iff.mp hunder
  have hfound : value ∈ d.root.under errorName.1 := by
    rw [hroot]
    show value ∈ members.under errorName.1
    rw [hmembers]
    exact List.mem_cons_self
  constructor
  · intro r hr
    rw [hresponses] at hr
    obtain rfl := List.mem_singleton.mp hr
    rw [hroot]
    rfl
  · refine ⟨d.root, by rw [hresponses]; exact List.mem_singleton_self _, value, hfound, ?_⟩
    obtain ⟨inner, rfl, -⟩ := hvalue.exists_members (List.cons_ne_nil _ _)
    rfl

/-! ## Where the error comes from -/

/-- How a call fails, if it does: a 429 names the endpoint; what `send` and the body report is passed on as a
text, and any other status is put into words.
Source: `forwarder.rs` `forward_request`, the error returns -/
def UpstreamCall.failure (displayStatus : ℕ → String) (endpointUrl : String) (u : UpstreamCall) :
    Option LoadBalancerError :=
  match u.result with
  | .timeout | .networkError => some (.upstreamError u.errorText)
  | .response status =>
      if status = 429 then some (.rateLimited endpointUrl)
      else if !isSuccess status then some (statusError displayStatus status)
      else
        match u.body with
        | .error text => some (.upstreamError text)
        | .ok _ => none

/-- The text of an error.
Source: `main.rs` `handle_rpc`, `message` -/
def LoadBalancerError.text : LoadBalancerError → String
  | .rateLimited msg | .upstreamError msg => msg
  | _ => "Internal server error"

/-- **A call that fails reports its failure.**
Source: `forwarder.rs` `forward_request` -/
theorem forwardRequest_err {displayStatus : ℕ → String} {w : World M} {endpointUrl method : String}
    {u : UpstreamCall} {now : Instant} {e : LoadBalancerError}
    (h : (forwardRequest displayStatus w endpointUrl method u now).1 = .err e) :
    u.failure displayStatus endpointUrl = some e := by
  have hdown : ∀ {w : World M} {e' : LoadBalancerError},
      (failUnhealthy w endpointUrl e' now).1 = .err e → some e' = some e := by
    intro w e' h
    unfold failUnhealthy at h
    split at h
    · cases h
    · exact congrArg some (Outcome.err.inj h)
  obtain ⟨result, elapsedMs, errorText, body⟩ := u
  unfold forwardRequest finishRequest at h
  unfold UpstreamCall.failure
  rcases result with status | _ | _
  · dsimp only at h ⊢
    by_cases hlimited : status = 429
    · rw [if_pos hlimited] at h ⊢
      unfold failRateLimited at h
      dsimp only at h
      split at h
      · cases h
      · exact congrArg some (Outcome.err.inj h)
    · rw [if_neg hlimited] at h ⊢
      by_cases hsuccess : (!isSuccess status) = true
      · rw [if_pos hsuccess] at h ⊢
        exact hdown h
      · rw [if_neg hsuccess] at h ⊢
        rcases body with text | bytes
        · exact hdown h
        · cases h
  · exact hdown h
  · exact hdown h

/-- A failure is that of a 429 or carries a text, as the result says. -/
theorem UpstreamCall.failure_cases {displayStatus : ℕ → String} {endpointUrl : String} {u : UpstreamCall}
    {e : LoadBalancerError} (h : u.failure displayStatus endpointUrl = some e) :
    e = if u.result = .response 429 then .rateLimited endpointUrl else .upstreamError e.text := by
  obtain ⟨result, elapsedMs, errorText, body⟩ := u
  unfold UpstreamCall.failure at h
  rcases result with status | _ | _
  · dsimp only at h ⊢
    by_cases hlimited : status = 429
    · rw [if_pos hlimited] at h
      rw [if_pos (by rw [hlimited])]
      exact (Option.some.inj h).symm
    · rw [if_neg hlimited] at h
      rw [if_neg fun heq => hlimited (UpstreamResult.response.inj heq)]
      split at h
      · cases h
        rfl
      · rcases body with text | bytes
        · cases h
          rfl
        · cases h
  · cases h
    rfl
  · cases h
    rfl

/-! ## The reply as an upstream's response -/

section behind

variable {displayStatus : ℕ → String} {w : World M} {endpointUrl method : String} {now : Instant}

/-- A response with an error in it is passed on and counted as failed, and marks nothing.
Source: `forwarder.rs` `forward_request` -/
theorem forwardRequest_of_error {bytes : List UInt8} (h : responseHasError bytes = true) (elapsedMs : ℕ) :
    let answer := forwardRequest displayStatus w endpointUrl method
      { result := .response 200, elapsedMs := elapsedMs, body := .ok bytes } now
    answer.1 = .ok bytes ∧ answer.2.lb = w.lb ∧
      answer.2.prom.value .rpcRequestsFailed [endpointUrl] =
        w.prom.value .rpcRequestsFailed [endpointUrl] + 1 ∧
      answer.2.prom.value .rpcRequestsSucceeded [endpointUrl] =
        w.prom.value .rpcRequestsSucceeded [endpointUrl] := by
  have hupdate : ∀ v : World M,
      (updateMetrics v endpointUrl (.response 200) elapsedMs).lb = v.lb ∧
        (updateMetrics v endpointUrl (.response 200) elapsedMs).prom = v.prom := by
    intro v
    unfold updateMetrics
    split <;> exact ⟨rfl, rfl⟩
  have hfamily : bodyFamily bytes = .rpcRequestsFailed := by
    unfold bodyFamily
    rw [if_pos h]
  have hsuccess : isSuccess 200 = true := rfl
  intro answer
  simp [answer, forwardRequest, finishRequest, hsuccess, hupdate, hfamily]

end behind

/-- **An error reply is a well-formed JSON-RPC error.** For every request, every way in which forwarding it
fails, and whatever texts the failure and the request contribute, the error is the failure's, the reply is
written with status 200 and

* is a JSON text, and every JSON value it can be read as is the error object: code -32000 and the endpoint's
  URL as message on a 429, and otherwise code -32603 and the text of the failure; the `id` is that of the
  request, `null` for a batch;
* is a response with an error, which `response_has_error` sees. So a balancer in front of this one passes the
  reply on as it is, counts the request as failed and not as succeeded, and marks nothing.

The text of the failure is what the client reports when sending or reading the body fails, and the status in
words when it is neither a success nor a 429 (`UpstreamCall.failure`).
Source: `main.rs` `handle_rpc`; `forwarder.rs` `forward_request`, `response_has_error` -/
theorem error_reply {displayStatus : ℕ → String} {w : World M} {endpointUrl method : String}
    {u : UpstreamCall} {now : Instant} {e : LoadBalancerError} {p : Payload} (hp : p.value.Proper)
    (h : (forwardRequest displayStatus w endpointUrl method u now).1 = .err e) :
    let reply := answerOf p (.error e)
    u.failure displayStatus endpointUrl = some e ∧
      e = (if u.result = .response 429 then .rateLimited endpointUrl else .upstreamError e.text) ∧
      reply.status = 200 ∧
      (∃ d : Document, d.bytes = reply.body ∧ IsResponse d ∧ HasError d ∧
        (∀ v, d.root.Reads v ↔ v = errorPayload (if u.result = .response 429 then -32000 else -32603)
          (if u.result = .response 429 then endpointUrl else e.text)
          (if p.isBatch then none else getMember p.value "id"))) ∧
      ∀ (front : World M) (frontUrl frontMethod : String) (elapsedMs : ℕ) (later : Instant),
        let answer := forwardRequest displayStatus front frontUrl frontMethod
          { result := .response 200, elapsedMs := elapsedMs, body := .ok reply.body } later
        answer.1 = .ok reply.body ∧ answer.2.lb = front.lb ∧
          answer.2.prom.value .rpcRequestsFailed [frontUrl] =
            front.prom.value .rpcRequestsFailed [frontUrl] + 1 ∧
          answer.2.prom.value .rpcRequestsSucceeded [frontUrl] =
            front.prom.value .rpcRequestsSucceeded [frontUrl] := by
  intro reply
  have hfailure := forwardRequest_err h
  have hcases := UpstreamCall.failure_cases hfailure
  have hreply : reply = .rpcError (if u.result = .response 429 then -32000 else -32603)
      (if u.result = .response 429 then endpointUrl else e.text)
      (if p.isBatch then none else getMember p.value "id") := by
    show answerOf p (.error e) = _
    by_cases hlimited : u.result = .response 429
    · rw [if_pos hlimited] at hcases ⊢
      rw [if_pos hlimited, hcases]
      rfl
    · rw [if_neg hlimited] at hcases ⊢
      rw [if_neg hlimited, hcases]
      rfl
  refine ⟨hfailure, hcases, ?_⟩
  rw [hreply]
  have hcode : (if u.result = .response 429 then -32000 else -32603 : ℤ) = -32000 ∨
      (if u.result = .response 429 then -32000 else -32603 : ℤ) = -32603 := by
    split
    · exact .inl rfl
    · exact .inr rfl
  have hid : ∀ v ∈ (if p.isBatch then none else getMember p.value "id"), v.Proper := by
    intro v hv
    split at hv
    · cases hv
    · exact proper_getMember hp v hv
  refine ⟨rfl, ?_, fun front frontUrl frontMethod elapsedMs later => ?_⟩
  · obtain ⟨t, hbytes, hreads⟩ := Json.exists_text (proper_errorPayload hcode _ hid)
    have hd : JsonText.Document.bytes ⟨.none, t, .none⟩ = t.bytes := by
      simp [JsonText.Document.bytes, JsonText.Blanks.none]
    obtain ⟨hresponse, herror⟩ := hasError_of_reads (d := ⟨.none, t, .none⟩) hreads
    refine ⟨⟨.none, t, .none⟩, hd.trans hbytes, hresponse, herror, fun v => ?_⟩
    constructor
    · exact fun hv => hv.unique hreads
    · rintro rfl
      exact hreads
  · exact forwardRequest_of_error (responseHasError_errorPayload _ _ _) elapsedMs

/-- The request `{"id":"\"error\":null"}`, parsed: its `id` is made to look like the end of an error. -/
def disguisedRequest : Payload := ⟨.object [("id", .string "\"error\":null")], false, 1⟩

/-- `error_reply` for a 429 of the sample endpoint. -/
theorem error_reply_sample : ∃ d : Document,
    d.bytes = (answerOf disguisedRequest (.error (.rateLimited "http://a"))).body ∧ HasError d := by
  have hlimited : (forwardRequest toString sampleWorld "http://a" "unknown"
      { result := .response 429, elapsedMs := 7 } 5).1 = .err (.rateLimited "http://a") := by decide +kernel
  have hproper : disguisedRequest.value.Proper := ⟨trivial, trivial⟩
  obtain ⟨-, -, -, ⟨d, hbytes, -, herror, -⟩, -⟩ := error_reply hproper hlimited
  exact ⟨d, hbytes, herror⟩

end AzothBalancer
