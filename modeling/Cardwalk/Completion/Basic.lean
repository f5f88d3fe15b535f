import Cardwalk.Duration
/-!
# Completions

A model is asked with a prompt and answers with a text, or the request
fails.  Some failures may pass if the request is repeated.
-/

set_option autoImplicit false

namespace Cardwalk

structure Completion where
  text : String
  model : String
deriving DecidableEq, Repr, Inhabited

inductive CompletionError where
  | timeout (elapsed : Duration)
  | rateLimit (retryAfter : Option Duration)
  | auth (message : String)
  | network (message : String)
  | parse (message : String)
  | emptyBody
  | config (message : String)
deriving DecidableEq, Repr

namespace CompletionError

def message : CompletionError → String
  | .timeout elapsed => "timeout after " ++ elapsed.shown
  | .rateLimit retryAfter => "rate limited, retry after " ++ Duration.shownOption retryAfter
  | .auth message => "authentication failed: " ++ message
  | .network message => "network error: " ++ message
  | .parse message => "parse error: " ++ message
  | .emptyBody => "empty response body"
  | .config message => "invalid configuration: " ++ message

def name : CompletionError → String
  | .timeout _ => "Timeout"
  | .rateLimit _ => "RateLimit"
  | .auth _ => "Auth"
  | .network _ => "Network"
  | .parse _ => "Parse"
  | .emptyBody => "EmptyBody"
  | .config _ => "Config"

def isRetryable : CompletionError → Bool
  | .timeout _ | .rateLimit _ | .network _ => true
  | _ => false

def retryAfter : CompletionError → Option Duration
  | .rateLimit d => d
  | _ => none

end CompletionError

end Cardwalk
