import EndpointControl.Blueprint
import EndpointControl.Context
import EndpointControl.Executor.Pool
import EndpointControl.Executor.Trial
import EndpointControl.Provider.Counting
import EndpointControl.Scenario.Crowd
import EndpointControl.Scenario.Faithful
import EndpointControl.Scenario.Tour
import EndpointControl.Proofs.Growth
import EndpointControl.Proofs.Steps
import EndpointControl.Proofs.Calls
import EndpointControl.Proofs.Soundness
import EndpointControl.Proofs.Tally
import EndpointControl.Proofs.Afterwards
import EndpointControl.Proofs.Waking
import EndpointControl.Proofs.Balance
import EndpointControl.Proofs.Pools
import EndpointControl.Proofs.Confluence
import EndpointControl.Proofs.Draining
import EndpointControl.Proofs.Lifecycle
import EndpointControl.Proofs.Levels
import EndpointControl.Proofs.Successive
import EndpointControl.Proofs.Exclusion
import EndpointControl.Proofs.Waiting
import EndpointControl.Proofs.Contexts
import EndpointControl.Proofs.Independence
import EndpointControl.Proofs.Intrusion
import EndpointControl.Proofs.Cutoff
import EndpointControl.Proofs.Stranding
import EndpointControl.Proofs.Connecting
import EndpointControl.Proofs.Allotment
import EndpointControl.Proofs.Terminating
import EndpointControl.Proofs.Language
import EndpointControl.Proofs.Precedence
import EndpointControl.Proofs.Building
import EndpointControl.Proofs.Kinship
