import SwapRelay.Proofs.Action.CallCount
import SwapRelay.Proofs.Action.ClosedForm
import SwapRelay.Proofs.Action.Dataflow
import SwapRelay.Proofs.Action.Idempotent
import SwapRelay.Proofs.Action.Incremental
import SwapRelay.Proofs.Action.Pairing
import SwapRelay.Proofs.Address.Check
import SwapRelay.Proofs.Address.Identity
import SwapRelay.Proofs.Pool.LastWins
import SwapRelay.Proofs.Relayer.RoundTrip
import SwapRelay.Proofs.Relayer.TokenPlace
import SwapRelay.Proofs.Request.Reuse
import SwapRelay.Proofs.Route.Approvals
import SwapRelay.Proofs.Route.Funding
import SwapRelay.Proofs.Route.LetterCase
import SwapRelay.Proofs.Route.Need
import SwapRelay.Proofs.Route.Payload
import SwapRelay.Proofs.Route.Placeholders
import SwapRelay.Proofs.Route.PoolOrder
import SwapRelay.Proofs.Route.Renumber
import SwapRelay.Proofs.Route.Spending
import SwapRelay.Proofs.Service.Answers
import SwapRelay.Route.Trace
