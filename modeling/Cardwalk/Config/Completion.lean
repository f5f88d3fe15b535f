import Cardwalk.Card
/-!
# Configuration of the model service

The address and the key of the service, and the limits of a request.
-/

set_option autoImplicit false

namespace Cardwalk

structure CompletionConfig where
  url : Option String := none
  apiKey : Option String := none
  /-- The variable of the environment that holds the key. -/
  apiKeyEnv : Option String := none
  model : String := defaultModel
  /-- In seconds. -/
  timeout : Nat := 300
  temperature : Float32 := 0.1
  maxTokens : Nat := 2048
  maxRetries : Nat := 3
  retryDelayMs : Nat := 1000
deriving Repr, Inhabited

namespace CompletionConfig

def recordKind : Json.Decoder.RecordKind CompletionConfig :=
  { title := "struct CompletionConfig"
    blank := {}
    sealed := true
    slots :=
      [Json.Decoder.slot "url" .nothing (Json.Decoder.nullable Json.Decoder.text)
        fun v c => { c with url := v },
       Json.Decoder.slot "api_key" .nothing (Json.Decoder.nullable Json.Decoder.text)
        fun v c => { c with apiKey := v },
       Json.Decoder.slot "api_key_env" .nothing (Json.Decoder.nullable Json.Decoder.text)
        fun v c => { c with apiKeyEnv := v },
       Json.Decoder.slot "model" .default Json.Decoder.text fun v c => { c with model := v },
       Json.Decoder.slot "timeout" .default Json.Decoder.word
        fun v c => { c with timeout := v },
       Json.Decoder.slot "temperature" .default Json.Decoder.single
        fun v c => { c with temperature := v },
       Json.Decoder.slot "max_tokens" .default Json.Decoder.halfWord
        fun v c => { c with maxTokens := v },
       Json.Decoder.slot "max_retries" .default Json.Decoder.halfWord
        fun v c => { c with maxRetries := v },
       Json.Decoder.slot "retry_delay_ms" .default Json.Decoder.word
        fun v c => { c with retryDelayMs := v }] }

def decoder : Json.Decoder CompletionConfig := recordKind.decoder

def compact (c : CompletionConfig) : String :=
  let before : Members :=
    [("url", Json.ofOption .string c.url), ("api_key", Json.ofOption .string c.apiKey),
     ("api_key_env", Json.ofOption .string c.apiKeyEnv), ("model", .string c.model),
     ("timeout", .ofNat c.timeout)]
  let behind : Members :=
    [("max_tokens", .ofNat c.maxTokens), ("max_retries", .ofNat c.maxRetries),
     ("retry_delay_ms", .ofNat c.retryDelayMs)]
  "\x7b" ++ String.ofList (Json.compactMembers before) ++ ",\"temperature\":"
    ++ String.ofList (Json.singleChars c.temperature) ++ ","
    ++ String.ofList (Json.compactMembers behind) ++ "\x7d"

/-- The key itself, else what the variable holds unless it is empty. -/
def resolveKey (env : String → Option String) (c : CompletionConfig) : Option String :=
  c.apiKey.or ((c.apiKeyEnv.bind env).filter fun k => k ≠ "")

/-- A value of a later layer counts if it is not the default. -/
def later {α : Type} [BEq α] (standard base value : α) : α :=
  if value == standard then base else value

def merge (base layer : CompletionConfig) : CompletionConfig :=
  let standard : CompletionConfig := {}
  { url := layer.url.or base.url
    apiKey := layer.apiKey.or base.apiKey
    apiKeyEnv := layer.apiKeyEnv.or base.apiKeyEnv
    model := later standard.model base.model layer.model
    timeout := later standard.timeout base.timeout layer.timeout
    temperature := later standard.temperature base.temperature layer.temperature
    maxTokens := later standard.maxTokens base.maxTokens layer.maxTokens
    maxRetries := later standard.maxRetries base.maxRetries layer.maxRetries
    retryDelayMs := later standard.retryDelayMs base.retryDelayMs layer.retryDelayMs }

end CompletionConfig

end Cardwalk
