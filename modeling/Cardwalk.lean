import Cardwalk.Command.Signal
import Cardwalk.Main
import Cardwalk.Proofs.Run.Path
import Cardwalk.Proofs.Run.Validated
import Cardwalk.Proofs.Agent.Rounds
import Cardwalk.Proofs.Retrieval.History
import Cardwalk.Proofs.Completion.Stream
import Cardwalk.Proofs.Placeholder.Insertion
import Cardwalk.Proofs.Config.Layers
import Cardwalk.Proofs.ToolCall.Directive
import Cardwalk.Proofs.Run.Standing
import Cardwalk.Proofs.Run.Truth
import Cardwalk.Proofs.Run.Loops
import Cardwalk.Proofs.Run.Cancelling
import Cardwalk.Proofs.Json.Followed
import Cardwalk.Proofs.ToolCall.Followed
import Cardwalk.Proofs.Agent.Advertised
import Cardwalk.Proofs.Run.Shapes
import Cardwalk.Proofs.Output.Lines
import Cardwalk.Proofs.Graph.Loading
import Cardwalk.Proofs.Output.Envelopes
import Cardwalk.Proofs.Run.Edits
import Cardwalk.Proofs.Completion.Retries
import Cardwalk.Proofs.Retrieval.Chunks
import Cardwalk.Proofs.Decimal.Quotient
import Cardwalk.Proofs.Retrieval.Grams
import Cardwalk.Proofs.Retrieval.Ranking
import Cardwalk.Proofs.Retrieval.Containment
import Cardwalk.Proofs.Calculator.Evaluation
import Cardwalk.Proofs.Calculator.Division
import Cardwalk.Proofs.Calculator.Lexemes
import Cardwalk.Proofs.ToolCall.Pattern
import Cardwalk.Proofs.Placeholder.Removal
import Cardwalk.Proofs.Placeholder.Precedence
import Cardwalk.Proofs.Json.Brackets
import Cardwalk.Proofs.Placeholder.Guard
import Cardwalk.Proofs.Output.Indented
import Cardwalk.Proofs.Output.Escaped
import Cardwalk.Proofs.Suggestion.Nearest
import Cardwalk.Proofs.Completion.Late
