import Latchkey.Config
import Latchkey.Http.Router
import Latchkey.Json.GeoTable
import Latchkey.Store.Row
import Latchkey.Proofs.Execution
import Latchkey.Proofs.Store.Frames
import Latchkey.Proofs.Operations
import Latchkey.Proofs.Policy
import Latchkey.Proofs.Patch
import Latchkey.Proofs.Scope
import Latchkey.Proofs.KeyUpdate
import Latchkey.Proofs.KeyLog
import Latchkey.Proofs.Labels
import Latchkey.Proofs.Store.Replacement
import Latchkey.Proofs.Store.Keys
import Latchkey.Proofs.History
import Latchkey.Proofs.KeyReplay
import Latchkey.Proofs.KeyAuthentication
import Latchkey.Proofs.Net.AddressText
import Latchkey.Proofs.Forwarding
import Latchkey.Proofs.Http.Relay
import Latchkey.Proofs.Store.Accounts
import Latchkey.Proofs.AccountRequests
import Latchkey.Proofs.Interleaving
import Latchkey.Proofs.AccountCalls
import Latchkey.Proofs.AccountRaces
import Latchkey.Proofs.SignIn
import Latchkey.Proofs.Interruption
import Latchkey.Proofs.Transcript
import Latchkey.Proofs.KeyPolicies
import Latchkey.Proofs.Http.Handling
import Latchkey.Proofs.Http.Admission
import Latchkey.Proofs.CredentialEvents
import Latchkey.Proofs.Credentials
import Latchkey.Proofs.Guarantees
import Latchkey.Proofs.Conduct
import Latchkey.Proofs.Store.Writes
import Latchkey.Proofs.Order
import Latchkey.Proofs.Reach
import Latchkey.Proofs.Store.Holdings
import Latchkey.Proofs.Isolation
import Latchkey.Proofs.Quota
import Latchkey.Proofs.Atomicity
import Latchkey.Proofs.KeyRaces
import Latchkey.Proofs.Deletion
import Latchkey.Proofs.Footprint
import Latchkey.Proofs.Refusals
import Latchkey.Proofs.DeviceEvents
import Latchkey.Proofs.Devices
import Latchkey.Proofs.Origins
import Latchkey.Proofs.Store.Numbering
import Latchkey.Proofs.WellFormed
import Latchkey.Proofs.Json.RoundTrip
import Latchkey.Proofs.AccessTokens
import Latchkey.Proofs.Announcements
import Latchkey.Proofs.SecurityTrail
import Latchkey.Proofs.SecurityReplay
import Latchkey.Proofs.PasswordKeeping
import Latchkey.Proofs.SignUpRaces
import Latchkey.Proofs.Reconciliation
import Latchkey.Proofs.KeyDiff
import Latchkey.Proofs.Json.Records
import Latchkey.Proofs.Store.Columns
import Latchkey.Proofs.TwoRuns
import Latchkey.Proofs.Http.Disclosure
import Latchkey.Proofs.ProxyChain
import Latchkey.Proofs.Net.NetworkText
import Latchkey.Proofs.PolicyCheck
import Latchkey.Proofs.Store.KeyEdits
import Latchkey.Proofs.KeyLookup
import Latchkey.Proofs.Text.Base64
import Latchkey.Proofs.Fingerprints
import Latchkey.Proofs.Digests
import Latchkey.Proofs.Updates
import Latchkey.Proofs.Lifetimes
import Latchkey.Proofs.Places
import Latchkey.Proofs.Pages
import Latchkey.Proofs.LabelReading
import Latchkey.Proofs.Text.Occurrences
import Latchkey.Proofs.Text.Slices
import Latchkey.Proofs.Versions
import Latchkey.Proofs.UserAgents
import Latchkey.Proofs.UserAgentEdits
