import AzothBalancer.Balancer
import AzothBalancer.Lib.JsonText

/-!
# The request handler

`main.rs` `handle_rpc` up to the point where the request is handed to `forward_request`, and the
answer it makes of what comes back. `serde_json::from_slice` is a parameter; the other steps are
functions of their own, because the concurrent model runs them one by one:

* `checkRaw` — the checks on the bytes of the body;
* `parsePayload` — the parse and the refusal of the empty batch;
* `checkParsed` — the check of the number of elements;
* `handleRpc` — the whole, with nothing in between.
-/

namespace AzothBalancer

open JsonText (Json openBracket openBrace)

variable {M : Meter}

/-! ## Bodies -/

/-- `Value::get` with a key. -/
def getMember : Json → String → Option Json
  | .object members, key => (members.find? fun member => member.1 = key).map Prod.snd
  | _, _ => none

/-- `Value::as_str`. -/
def asStr : Json → Option String
  | .string s => some s
  | _ => none

/-- The largest body that is looked at: 10 MB.
Source: `main.rs` `handle_rpc`, `MAX_JSON_SIZE` -/
def maxJsonSize : ℕ := 10 * 1024 * 1024

/-- `u8::is_ascii_whitespace`. -/
def isAsciiWhitespace (b : UInt8) : Bool := b ∈ [0x20, 0x09, 0x0A, 0x0C, 0x0D]

/-- The first byte that is not white space opens an array.
Source: `main.rs` `handle_rpc`, `is_likely_batch` -/
def isLikelyBatch (body : List UInt8) : Bool :=
  (body.find? fun b => !isAsciiWhitespace b) = some openBracket

/-- The number of bytes that open an object.
Source: `main.rs` `handle_rpc`, `approx_batch_size` -/
def approxBatchSize (body : List UInt8) : ℕ := body.count openBrace

/-! ## Answers -/

/-- What the client is answered. -/
inductive RpcAnswer where
  /-- The body is larger than `maxJsonSize`. -/
  | payloadTooLarge
  /-- The batch is larger than `max_batch_size`. -/
  | batchTooLarge
  | internalServerError
  | badRequest (message : String)
  | serviceUnavailable
  /-- The upstream's answer. -/
  | forwarded (body : List UInt8)
  /-- A JSON-RPC error object. -/
  | rpcError (code : ℤ) (message : String) (id : Option Json)

/-- The HTTP status of an answer. -/
def RpcAnswer.status : RpcAnswer → ℕ
  | .payloadTooLarge | .batchTooLarge => 413
  | .internalServerError => 500
  | .badRequest _ => 400
  | .serviceUnavailable => 503
  | .forwarded _ | .rpcError .. => 200

/-- A parsed request: whether it is a batch, and the number of requests in it. -/
structure Payload where
  value : Json
  isBatch : Bool
  batchSize : ℕ

/-- The label under which the request is counted.
Source: `main.rs` `handle_rpc`, `method_label` -/
def Payload.methodLabel (p : Payload) : String :=
  if p.isBatch then "batch" else ((getMember p.value "method").bind asStr).getD "unknown"

/-- The answer made of what `forward_raw_request` returns.
Source: `main.rs` `handle_rpc` -/
def answerOf (p : Payload) : Except LoadBalancerError (List UInt8) → RpcAnswer
  | .ok body => .forwarded body
  | .error e =>
      let (code, message) : ℤ × String :=
        match e with
        | .rateLimited msg => (-32000, msg)
        | .upstreamError msg => (-32603, msg)
        | _ => (-32603, "Internal server error")
      .rpcError code message (if p.isBatch then none else getMember p.value "id")

/-! ## The steps -/

/-- The checks on the bytes; an answer refuses the request.
Source: `main.rs` `handle_rpc`, "Pre-emptive Validation" -/
def checkRaw (maxBatchSize : ℕ) (body : List UInt8) : Option RpcAnswer :=
  if maxJsonSize < body.length then some .payloadTooLarge
  else if isLikelyBatch body && maxBatchSize < approxBatchSize body then some .batchTooLarge
  else none

/-- Parses the body and counts its requests; the empty batch is refused.
Source: `main.rs` `handle_rpc` -/
def parsePayload (fromSlice : List UInt8 → Except String Json) (body : List UInt8) :
    Except RpcAnswer Payload :=
  match fromSlice body with
  | .error e =>
      .error (.badRequest (LoadBalancerError.badRequest ("Failed to parse JSON body: " ++ e)).toMessage)
  | .ok value =>
      let (isBatch, batchSize) :=
        match value with
        | .array arr => (true, arr.length)
        | _ => (false, 1)
      if batchSize = 0 then
        .error (.badRequest (LoadBalancerError.badRequest "Empty batch is not allowed").toMessage)
      else .ok ⟨value, isBatch, batchSize⟩

/-- The check of the number of elements.
Source: `main.rs` `handle_rpc`, "post-parse check" -/
def checkParsed (maxBatchSize : ℕ) (p : Payload) : Option RpcAnswer :=
  if maxBatchSize < p.batchSize then some .batchTooLarge else none

/-- Counts a batch that was refused for its size. -/
def countAnswer (a : RpcAnswer) (m : Registry) : Registry :=
  match a with
  | .batchTooLarge => m.inc .batchSizeExceeded []
  | _ => m

/-- How a request leaves the part before forwarding. -/
inductive RpcOutcome where
  | answered (a : RpcAnswer)
  /-- Handed to `forward_raw_request`. -/
  | handed (p : Payload) (url method : String)

/-- A request run alone, up to its forwarding. `closed`: the semaphore has been closed.
Source: `main.rs` `handle_rpc` -/
def handleRpc (fromSlice : List UInt8 → Except String Json) (closed : Bool) (clock : Clock)
    (w : World M) (body : List UInt8) : RpcOutcome × World M :=
  let w := { w with prom := w.prom.incBy .concurrencyActivePermits [] 1 }
  -- the guard that counts the request is dropped when the handler returns
  let answered := fun (a : RpcAnswer) (w : World M) =>
    (RpcOutcome.answered a,
      { w with prom := (countAnswer a w.prom).incBy .concurrencyActivePermits [] (-1) })
  match checkRaw w.lb.maxBatchSize body with
  | some a => answered a w
  | none =>
      if closed then answered .internalServerError w
      else
        match parsePayload fromSlice body with
        | .error a => answered a w
        | .ok p =>
            match checkParsed w.lb.maxBatchSize p with
            | some a => answered a w
            | none =>
                match getNextEndpoint w p.batchSize clock with
                | (none, w) => answered .serviceUnavailable w
                | (some url, w) => (.handed p url p.methodLabel, w)

end AzothBalancer
