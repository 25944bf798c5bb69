import PeerLink.Cluster.Calls
import PeerLink.ConnectionId
import PeerLink.Log.Filter
import PeerLink.Main
import PeerLink.Manager.Description
import PeerLink.Message.Serializer
import PeerLink.Network.Held
import PeerLink.Proofs.Address.Digits
import PeerLink.Proofs.Address.Reading
import PeerLink.Proofs.Call.Effort
import PeerLink.Proofs.Call.Failing
import PeerLink.Proofs.Call.Following
import PeerLink.Proofs.Call.Outcome
import PeerLink.Proofs.Call.Progress
import PeerLink.Proofs.Call.Readiness
import PeerLink.Proofs.Call.Retrying
import PeerLink.Proofs.Config.Variables
import PeerLink.Proofs.Endpoint.Grammar
import PeerLink.Proofs.Endpoint.Printing
import PeerLink.Proofs.Endpoint.Sockets
import PeerLink.Proofs.Frame.Carrying
import PeerLink.Proofs.Frame.Chunks
import PeerLink.Proofs.Frame.Parsing
import PeerLink.Proofs.Frame.Recovery
import PeerLink.Proofs.Json.Numbers
import PeerLink.Proofs.Json.Shapes
import PeerLink.Proofs.Json.Strings
import PeerLink.Proofs.Link.Clearing
import PeerLink.Proofs.Link.Collection
import PeerLink.Proofs.Link.Currency
import PeerLink.Proofs.Link.Isolation
import PeerLink.Proofs.Link.Line
import PeerLink.Proofs.Link.Retirement
import PeerLink.Proofs.Manager.Accepting
import PeerLink.Proofs.Manager.Binding
import PeerLink.Proofs.Manager.Bystanders
import PeerLink.Proofs.Manager.Connections
import PeerLink.Proofs.Manager.Directions
import PeerLink.Proofs.Manager.Ending
import PeerLink.Proofs.Manager.Locks
import PeerLink.Proofs.Manager.Moves
import PeerLink.Proofs.Manager.Receiving
import PeerLink.Proofs.Manager.Silence
import PeerLink.Proofs.Manager.Tables
import PeerLink.Proofs.Manager.Transitions
import PeerLink.Proofs.Manager.Writers
import PeerLink.Proofs.Message.Building
import PeerLink.Proofs.Message.Envelopes
import PeerLink.Proofs.Message.Kinds
import PeerLink.Proofs.Message.Reading
import PeerLink.Proofs.Message.Routes
import PeerLink.Proofs.Message.Writing
import PeerLink.Proofs.Pair.Basic
import PeerLink.Proofs.Pair.Delivery
import PeerLink.Proofs.Pair.Ends
import PeerLink.Proofs.Pair.Joining
import PeerLink.Proofs.Receiver.Clocked
import PeerLink.Proofs.Receiver.Containment
import PeerLink.Proofs.Receiver.Deadline
import PeerLink.Proofs.Receiver.Decoding
import PeerLink.Proofs.Receiver.Delivery
import PeerLink.Proofs.Receiver.Failures
import PeerLink.Proofs.Receiver.Inflow
import PeerLink.Proofs.Receiver.Intact
import PeerLink.Proofs.Receiver.Interpretation
import PeerLink.Proofs.Receiver.Omission
import PeerLink.Proofs.Receiver.Passing
import PeerLink.Proofs.Receiver.Serving
import PeerLink.Proofs.Receiver.Truncation
import PeerLink.Proofs.Stream.Balance
import PeerLink.Proofs.Stream.Framing
import PeerLink.Proofs.Stream.Ledger
import PeerLink.Proofs.Stream.Order
import PeerLink.Proofs.Stream.Owners
import PeerLink.Proofs.Stream.Placing
import PeerLink.Proofs.Stream.Postings
import PeerLink.Proofs.Stream.Shutting
import PeerLink.Proofs.Stream.Steadiness
import PeerLink.Proofs.Stream.Turns
import PeerLink.Proofs.Subscription.Completion
import PeerLink.Proofs.Subscription.Dealings
import PeerLink.Proofs.Subscription.Fates
import PeerLink.Proofs.Subscription.Handles
import PeerLink.Proofs.Subscription.Handover
import PeerLink.Proofs.Subscription.Lagging
import PeerLink.Proofs.Subscription.Racing
import PeerLink.Proofs.Subscription.Refinement
import PeerLink.Proofs.Subscription.Registering
import PeerLink.Proofs.Subscription.Routes
import PeerLink.Proofs.Subscription.Stirring
import PeerLink.Proofs.Subscription.Withdrawal
import PeerLink.Proofs.Subscription.Withholding
import PeerLink.Proofs.Text.Numerals
import PeerLink.Proofs.Text.Utf8
