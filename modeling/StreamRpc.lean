import StreamRpc.Scenario.Switchboard
import StreamRpc.Scenario.CallBoard
import StreamRpc.Scenario.Run
import StreamRpc.Scenario.Tracker
import StreamRpc.Proofs.Server.Introduction
import StreamRpc.Proofs.World.Calls
import StreamRpc.Proofs.Value.Nesting
import StreamRpc.Proofs.Message.RoundTrip
import StreamRpc.Proofs.World.Fidelity
import StreamRpc.Proofs.Wire.RoundTrip
import StreamRpc.Proofs.Server.Departure
import StreamRpc.Proofs.Call.Once
import StreamRpc.Proofs.Client.Accounts
import StreamRpc.Proofs.Client.Over
import StreamRpc.Proofs.Server.Retirement
import StreamRpc.Proofs.Queue.Lives
import StreamRpc.Proofs.Queue.Departures
import StreamRpc.Proofs.Server.Rollback
import StreamRpc.Proofs.Server.Answering
import StreamRpc.Proofs.Stream.Closing
import StreamRpc.Proofs.Message.Flattening
import StreamRpc.Proofs.Client.Cascade
import StreamRpc.Proofs.Message.Truncation
import StreamRpc.Proofs.Message.Families
import StreamRpc.Proofs.Value.Skipping
import StreamRpc.Proofs.Value.Traversal
import StreamRpc.Proofs.Stream.Channel
import StreamRpc.Proofs.Client.Superseded
import StreamRpc.Proofs.World.SetUp
import StreamRpc.Proofs.Server.Stranded
import StreamRpc.Proofs.Wire.Iteration
