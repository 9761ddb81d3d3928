import RoleResolution.Config.Json
import RoleResolution.Config.Toml
import RoleResolution.Definition.Diagnostic
import RoleResolution.Payload.Record
import RoleResolution.Proofs.Conversion.Distinct
import RoleResolution.Proofs.Json.Literal
import RoleResolution.Proofs.Json.ObjectText
import RoleResolution.Proofs.Json.Parsing
import RoleResolution.Proofs.Json.Printing
import RoleResolution.Proofs.Outcome.Cycle
import RoleResolution.Proofs.Outcome.CyclicPolicy
import RoleResolution.Proofs.Outcome.Direct
import RoleResolution.Proofs.Outcome.Grant
import RoleResolution.Proofs.Outcome.Invocation
import RoleResolution.Proofs.Outcome.Locality
import RoleResolution.Proofs.Outcome.Logging
import RoleResolution.Proofs.Outcome.Policy
import RoleResolution.Proofs.Outcome.Route
import RoleResolution.Proofs.Outcome.Sharing
import RoleResolution.Proofs.Outcome.Widening
import RoleResolution.Proofs.Payload.Canonical
import RoleResolution.Proofs.Payload.RoundTrip
import RoleResolution.Proofs.Registry.Acceptance
import RoleResolution.Proofs.Registry.Integrity
import RoleResolution.Proofs.Registry.Rejection
import RoleResolution.Proofs.Registry.Schema
import RoleResolution.Proofs.Registry.Submission
import RoleResolution.Proofs.RuleText
import RoleResolution.Proofs.Strict.Call
import RoleResolution.Proofs.Strict.Operation
import RoleResolution.Registry.Builder
import RoleResolution.Resolver.Held
import RoleResolution.Version
