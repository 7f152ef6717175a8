import AzothBalancer.Balancer
import AzothBalancer.Lib.JsonText

/-!
# Forwarding

`forwarder.rs`. Between the upstream's answer and the marks that follow it, the outcome is read off the
answer (`outcomeOf`) and entered into the endpoint's metrics object (`updateMetrics`), with the endpoint
list locked for reading. `responseHasError` is the scan of the body for an error, and `forwardRequest`
the whole call with nothing in between.
-/

namespace AzothBalancer

variable {M : Meter}

/-- How the call of the upstream ends: a response with a status, or an error of the client. -/
inductive UpstreamResult where
  | response (status : ℕ)
  | timeout
  | networkError
  deriving DecidableEq, Repr

/-- The outcome of a request.
Source: `forwarder.rs` `forward_request`, "Metrics Update Logic" -/
def outcomeOf (timeoutSecs elapsedMs : ℕ) : UpstreamResult → RequestOutcome
  | .response status =>
      if 200 ≤ status ∧ status < 300 then .success elapsedMs
      else if status = 429 then .failure .rateLimit elapsedMs
      else if 500 ≤ status ∧ status < 600 then .failure .http5xx elapsedMs
      else if 400 ≤ status ∧ status < 500 then .failure .http4xx elapsedMs
      else .failure .connectionError elapsedMs
  -- for a timeout, the latency is the configured timeout
  | .timeout => .failure .timeout (wrappingMul64 1000 timeoutSecs)
  | .networkError => .failure .connectionError elapsedMs

/-- Enters the outcome into the endpoint's metrics.
Source: `forwarder.rs` `forward_request`, "Metrics Update Logic" -/
def updateMetrics (w : World M) (endpointUrl : String) (result : UpstreamResult) (elapsedMs : ℕ) :
    World M :=
  match w.lb.endpoint? endpointUrl with
  | none => w
  | some ep =>
      let outcome := outcomeOf w.lb.timeoutSecs elapsedMs result
      { w with
        metrics := w.metrics.modify ep.metrics fun m =>
          m.update outcome w.lb.latencySmoothingFactor }

/-! ## The body -/

/-- The bytes of `"error":`. -/
def errorKey : List UInt8 := [0x22, 0x65, 0x72, 0x72, 0x6F, 0x72, 0x22, 0x3A]

/-- `char::is_whitespace` of the character with the byte's number. -/
def isWhitespaceByte (b : UInt8) : Bool := isWhitespace (Char.ofNat b.toNat)

/-- The bytes from the first `"error":` on say something other than `null` after it.
Source: `forwarder.rs` `response_has_error` -/
def responseHasError : List UInt8 → Bool
  | [] => false
  | b :: bytes =>
      if errorKey.isPrefixOf (b :: bytes) then
        let value := ((b :: bytes).drop errorKey.length).dropWhile isWhitespaceByte
        !JsonText.nullLexeme.isPrefixOf value
      else responseHasError bytes

/-! ## The call -/

/-- What the upstream does with a request. -/
structure UpstreamCall where
  result : UpstreamResult
  elapsedMs : ℕ
  /-- The text of the error, if `send` fails. -/
  errorText : String := ""
  /-- What reading the body gives, if it is read; an error carries its text. -/
  body : Except String (List UInt8) := .ok []

/-- `StatusCode::is_success`. -/
def isSuccess (status : ℕ) : Bool := 200 ≤ status && status < 300

/-- The exits that mark the endpoint unhealthy: the mark, the count, the error.
Source: `forwarder.rs` `forward_request` -/
def failUnhealthy (w : World M) (endpointUrl : String) (e : LoadBalancerError) (now : Instant) :
    Outcome LoadBalancerError (List UInt8) × World M :=
  match markUnhealthy w endpointUrl now with
  | (w, true) => (.panic, w)
  | (w, false) => (.err e, { w with prom := w.prom.inc .rpcRequestsFailed [endpointUrl] })

/-- The exit on a 429: counted twice, then marked.
Source: `forwarder.rs` `forward_request` -/
def failRateLimited (w : World M) (endpointUrl : String) (now : Instant) :
    Outcome LoadBalancerError (List UInt8) × World M :=
  let prom := w.prom.inc .upstreamRateLimitedTotal [endpointUrl]
  let prom := prom.inc .rpcRequestsFailed [endpointUrl]
  match markRateLimited { w with prom := prom } endpointUrl now with
  | (w, true) => (.panic, w)
  | (w, false) => (.err (.rateLimited endpointUrl), w)

/-- The error of a response that is neither a success nor a 429; `displayStatus` prints a status. -/
def statusError (displayStatus : ℕ → String) (status : ℕ) : LoadBalancerError :=
  .upstreamError ("Upstream returned non-success status: " ++ displayStatus status)

/-- The counter a body that has been read goes into. -/
def bodyFamily (bytes : List UInt8) : Family :=
  if responseHasError bytes then .rpcRequestsFailed else .rpcRequestsSucceeded

/-- The call after the metrics section; `now` is the time of the mark, if one is made.
Source: `forwarder.rs` `forward_request`, from `let response = match response_result` on -/
def finishRequest (displayStatus : ℕ → String) (w : World M) (endpointUrl : String) (u : UpstreamCall)
    (now : Instant) : Outcome LoadBalancerError (List UInt8) × World M :=
  match u.result with
  | .timeout =>
      failUnhealthy { w with prom := w.prom.inc .requestTimeouts [endpointUrl] } endpointUrl
        (.upstreamError u.errorText) now
  | .networkError => failUnhealthy w endpointUrl (.upstreamError u.errorText) now
  | .response status =>
      if status = 429 then failRateLimited w endpointUrl now
      else if !isSuccess status then
        failUnhealthy w endpointUrl (statusError displayStatus status) now
      else
        match u.body with
        | .error e => failUnhealthy w endpointUrl (.upstreamError e) now
        | .ok bytes => (.ok bytes, { w with prom := w.prom.inc (bodyFamily bytes) [endpointUrl] })

/-- A request run alone: forwarded to `endpointUrl`, where `u` happens to it.
Source: `forwarder.rs` `forward_request` -/
def forwardRequest (displayStatus : ℕ → String) (w : World M) (endpointUrl method : String)
    (u : UpstreamCall) (now : Instant) : Outcome LoadBalancerError (List UInt8) × World M :=
  -- `with_label_values(..)` creates the series of the timer
  let prom := w.prom.incBy .requestLatencyPerEndpoint [endpointUrl] 0
  let prom := prom.inc .rpcRequestsTotal []
  let prom := prom.inc .rpcRequestsMethod [method]
  let prom := prom.observe .requestLatencyPerEndpoint [endpointUrl]
  let w := updateMetrics { w with prom := prom } endpointUrl u.result u.elapsedMs
  finishRequest displayStatus w endpointUrl u now

end AzothBalancer
