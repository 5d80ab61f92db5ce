import ContextBroker.Binding.Description
import ContextBroker.Config.Load
import ContextBroker.Json.Values
import ContextBroker.Proofs.AlarmClock.Firing
import ContextBroker.Proofs.Docket.Interference
import ContextBroker.Proofs.Docket.Isolation
import ContextBroker.Proofs.Docket.Metrics
import ContextBroker.Proofs.Fanout.Telling
import ContextBroker.Proofs.History.Contexts
import ContextBroker.Proofs.History.Outcomes
import ContextBroker.Proofs.History.Pulling
import ContextBroker.Proofs.History.Reporting
import ContextBroker.Proofs.History.Shutdown
import ContextBroker.Proofs.Json.Records
import ContextBroker.Proofs.Json.RoundTrip
import ContextBroker.Proofs.Scenario.Announcing
import ContextBroker.Proofs.Scenario.Resolving
import ContextBroker.Proofs.Scenario.Timeouts
import ContextBroker.Proofs.Store.Freshness
import ContextBroker.Proofs.Timestamp
import ContextBroker.Proofs.Token.Reuse
import ContextBroker.Proofs.Worker.Kinds
import ContextBroker.Proofs.Worker.Touching
import ContextBroker.Proofs.Worker.Visiting
import ContextBroker.Timer.AlarmClock
