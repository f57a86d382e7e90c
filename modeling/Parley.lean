import Parley.Agent
import Parley.Calendar
import Parley.Main
import Parley.Prompt.Buffer
import Parley.Prompt.Instructions
import Parley.Prompt.Rounds
import Parley.Provider.Client
import Parley.Turn
import Parley.Proofs.Budget
import Parley.Proofs.Budget.Estimate
import Parley.Proofs.Message
import Parley.Proofs.Message.Wire
import Parley.Proofs.Model.Asking
import Parley.Proofs.Model.Bedrock
import Parley.Proofs.Model.Lookup
import Parley.Proofs.Model.Resolver
import Parley.Proofs.Model.Tables
import Parley.Proofs.Number.Bounds
import Parley.Proofs.Number.Monotone
import Parley.Proofs.Pass
import Parley.Proofs.Pipeline.Account
import Parley.Proofs.Pipeline.Activation
import Parley.Proofs.Pipeline.Again
import Parley.Proofs.Pipeline.Bound
import Parley.Proofs.Pipeline.Escalation
import Parley.Proofs.Pipeline.Growth
import Parley.Proofs.Pipeline.History
import Parley.Proofs.Pipeline.Savings
import Parley.Proofs.Prompt.Compacted
import Parley.Proofs.Prompt.InPlace
import Parley.Proofs.Prompt.Instructions
import Parley.Proofs.Prompt.Recovery
import Parley.Proofs.Prompt.Replay
import Parley.Proofs.Prompt.Results
import Parley.Proofs.Prompt.Rounds
import Parley.Proofs.Provider.Config
import Parley.Proofs.Refusal
import Parley.Proofs.Tool.Registry
import Parley.Proofs.Tool.Schema
import Parley.Proofs.Turn.Bounded
import Parley.Proofs.Turn.Exclusion
import Parley.Proofs.Turn.Fresh
import Parley.Proofs.Turn.Outcome
import Parley.Proofs.Turn.Pairing
import Parley.Proofs.Turn.Returns
import Parley.Proofs.Turn.Shaping
import Parley.Proofs.Turn.Usage
import Parley.Proofs.Window
import Parley.Proofs.Window.Boundary
import Parley.Proofs.Work
