import Cardwalk.Completion.Address
import Cardwalk.Completion.EventStream
import Cardwalk.Completion.Retry
import Cardwalk.Config.Completion
/-!
# The model service

A request to the service is one message with a few limits; the answer is a
stream of events, or a status that says why there is none.
-/

set_option autoImplicit false

namespace Cardwalk

structure Endpoint where
  url : String
  apiKey : Option String
  temperature : Float32
  maxTokens : Nat
  timeout : Duration

namespace Endpoint

def ofConfig (env : String → Option String) (c : CompletionConfig) :
    Except CompletionError Endpoint :=
  match c.url with
  | none => .error (.config "completion.url is not set")
  | some url =>
    .ok ⟨url, c.resolveKey env, c.temperature, c.maxTokens, .ofSeconds c.timeout⟩

def requestUrl (e : Endpoint) : String := Address.completionsUrl e.url

def requestBody (e : Endpoint) (prompt model : String) : String :=
  "\x7b\"model\":" ++ String.ofList (Json.quoted model)
    ++ ",\"messages\":[\x7b\"role\":\"user\",\"content\":" ++ String.ofList (Json.quoted prompt)
    ++ "\x7d],\"stream\":true,\"temperature\":" ++ String.ofList (Json.singleChars e.temperature)
    ++ ",\"max_tokens\":" ++ String.ofList (Decimal.natDigits e.maxTokens) ++ "\x7d"

def requestLine (e : Endpoint) : String :=
  "POST " ++ String.ofList (Address.target e.requestUrl.toList) ++ " HTTP/1.1"

def authorization (e : Endpoint) : Option String := e.apiKey.map ("Bearer " ++ ·)

/-- A key with control characters cannot be sent, and an address that
spoils the host leads nowhere. -/
def canSend (e : Endpoint) : Bool :=
  let sendable (c : Char) : Bool := (0x20 ≤ c.toNat && c.toNat ≠ 0x7F) || c = '\t'
  Address.followsHost e.requestUrl.toList
    && e.apiKey.all fun key => key.toList.all sendable

def retryAfter (body : List Char) : Option Duration :=
  match Json.parse body with
  | .ok v => ((v.get? "retry_after").bind Json.float?).bind Duration.ofFloat?
  | .error _ => none

def reasons : List (Nat × String) :=
  [(100, "Continue"), (101, "Switching Protocols"), (102, "Processing"),
   (103, "Early Hints"), (200, "OK"), (201, "Created"),
   (202, "Accepted"), (203, "Non Authoritative Information"), (204, "No Content"),
   (205, "Reset Content"), (206, "Partial Content"), (207, "Multi-Status"),
   (208, "Already Reported"), (226, "IM Used"), (300, "Multiple Choices"),
   (301, "Moved Permanently"), (302, "Found"), (303, "See Other"), (304, "Not Modified"),
   (305, "Use Proxy"), (307, "Temporary Redirect"), (308, "Permanent Redirect"),
   (400, "Bad Request"), (401, "Unauthorized"), (402, "Payment Required"),
   (403, "Forbidden"), (404, "Not Found"), (405, "Method Not Allowed"),
   (406, "Not Acceptable"), (407, "Proxy Authentication Required"),
   (408, "Request Timeout"), (409, "Conflict"), (410, "Gone"), (411, "Length Required"),
   (412, "Precondition Failed"), (413, "Payload Too Large"), (414, "URI Too Long"),
   (415, "Unsupported Media Type"), (416, "Range Not Satisfiable"),
   (417, "Expectation Failed"), (418, "I'm a teapot"), (421, "Misdirected Request"),
   (422, "Unprocessable Entity"), (423, "Locked"), (424, "Failed Dependency"),
   (425, "Too Early"), (426, "Upgrade Required"), (428, "Precondition Required"),
   (429, "Too Many Requests"), (431, "Request Header Fields Too Large"),
   (451, "Unavailable For Legal Reasons"), (500, "Internal Server Error"),
   (501, "Not Implemented"), (502, "Bad Gateway"), (503, "Service Unavailable"),
   (504, "Gateway Timeout"), (505, "HTTP Version Not Supported"),
   (506, "Variant Also Negotiates"), (507, "Insufficient Storage"),
   (508, "Loop Detected"), (510, "Not Extended"), (511, "Network Authentication Required")]

def statusText (status : Nat) : String :=
  String.ofList (Decimal.natDigits status) ++ " "
    ++ match reasons.find? fun r => r.1 = status with
      | some (_, reason) => reason
      | none => "<unknown status code>"

def statusError (e : Endpoint) (status : Nat) (body : List Char) : CompletionError :=
  let text := "HTTP " ++ statusText status ++ ": " ++ String.ofList body
  if status = 401 || status = 403 then .auth text
  else if status = 429 then .rateLimit (retryAfter body)
  else if status = 408 || status = 504 then .timeout e.timeout
  else if 400 ≤ status && status ≤ 499 then .config text
  else if 500 ≤ status && status ≤ 599 then .network text
  else .network ("unexpected " ++ text)

/-- A byte order mark at the head of a body is no part of its text. -/
def bodyText (body : List UInt8) : List Char :=
  match body with
  | 0xEF :: 0xBB :: 0xBF :: rest => Text.decodeLossy rest
  | body => Text.decodeLossy body

def isSuccess (status : Nat) : Bool := 200 ≤ status && status ≤ 299

/-- Two statuses say that no body is meant, whatever follows. -/
def hasBody (status : Nat) : Bool := status ≠ 204 && status ≠ 304

def readAnswer (e : Endpoint) (model : String) (status : Nat) (pieces : List (List UInt8)) :
    Except CompletionError Completion :=
  let pieces := if hasBody status then pieces else []
  if isSuccess status then
    (EventStream.pushUntilDone {} pieces).finish.map fun text => ⟨text, model⟩
  else .error (e.statusError status (bodyText pieces.flatten))

inductive NetworkFault where
  | refused
  | broken
  | silent (elapsed : Duration)
  | unsendable

def faultError : NetworkFault → CompletionError
  | .refused => .network "connection failed"
  | .broken => .network "request failed"
  | .silent elapsed => .timeout elapsed
  | .unsendable => .network "request failed: builder error"

/-- An answer that breaks off may still have come to its end.  Of a failure
the status is left. -/
def readBroken (e : Endpoint) (model : String) (status : Nat) (pieces : List (List UInt8)) :
    Except CompletionError Completion :=
  let whole := (EventStream.pushUntilDone {} pieces).done || !hasBody status
  if !isSuccess status then .error (e.statusError status [])
  else if whole then e.readAnswer model status pieces
  else .error (faultError .broken)

end Endpoint

inductive CompletionSource where
  | http (e : Endpoint) (p : RetryPolicy)
  | unconfigured (reason : String)

namespace CompletionSource

def name : CompletionSource → String
  | .http _ _ => "http"
  | .unconfigured _ => "unconfigured"

def policy (c : CompletionConfig) : RetryPolicy :=
  { maxRetries := c.maxRetries, initial := .ofMillis c.retryDelayMs }

def ofConfig (env : String → Option String) (c : CompletionConfig) : CompletionSource :=
  match Endpoint.ofConfig env c with
  | .ok e => .http e (policy c)
  | .error err => .unconfigured err.message

end CompletionSource

end Cardwalk
