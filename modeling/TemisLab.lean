import TemisLab.Bff.Browsers
import TemisLab.Bff.Completion
import TemisLab.Bff.Flow
import TemisLab.Bff.Handshake
import TemisLab.Bff.Messages
import TemisLab.Bff.ReturnPath
import TemisLab.Bff.Sessions
import TemisLab.Bff.Stored
import TemisLab.Bff.Transactions
import TemisLab.Bff.Validators
import TemisLab.External.Adapters
import TemisLab.External.Callbacks
import TemisLab.External.Disconnecting
import TemisLab.External.Exchanges
import TemisLab.External.FlowLaw
import TemisLab.External.Flows
import TemisLab.External.IdTokens
import TemisLab.External.KeyCache
import TemisLab.External.Logins
import TemisLab.External.Ownership
import TemisLab.External.SignIn
import TemisLab.Keyring.Encoding
import TemisLab.Keyring.Files
import TemisLab.Keyring.Lifecycle
import TemisLab.Keyring.Processes
import TemisLab.Keyring.Records
import TemisLab.Keyring.Startup
import TemisLab.Keyring.States
import TemisLab.Lib.Base64
import TemisLab.Lib.Commit
import TemisLab.Lib.Errors
import TemisLab.Lib.Foreign
import TemisLab.Lib.History
import TemisLab.Lib.Isolation
import TemisLab.Lib.Json
import TemisLab.Lib.JsonLines
import TemisLab.Lib.JsonText
import TemisLab.Lib.Lease
import TemisLab.Lib.OneTime
import TemisLab.Lib.PathQuery
import TemisLab.Lib.Percent
import TemisLab.Lib.PyText
import TemisLab.Lib.Raising
import TemisLab.Lib.Redecode
import TemisLab.Lib.Slots
import TemisLab.Lib.Spacing
import TemisLab.Lib.Table
import TemisLab.Lib.TextStore
import TemisLab.Lib.Ticket
import TemisLab.Lib.Trace
import TemisLab.Lib.Url
import TemisLab.Lib.Urlencode
import TemisLab.Lib.Utf8
import TemisLab.OAuth.CodeFlow
import TemisLab.OAuth.Lineage
import TemisLab.OAuth.TokenEndpoint
import TemisLab.Observability.Accounting
import TemisLab.Observability.Middleware
import TemisLab.Observability.Precision
import TemisLab.Observability.Redaction
import TemisLab.Observability.Texts
import TemisLab.Resource.Attestation
import TemisLab.Resource.Fetches
import TemisLab.Resource.Latency
import TemisLab.Resource.Outages
import TemisLab.Resource.Readback
import TemisLab.Resource.Refusals
import TemisLab.Resource.Reports
import TemisLab.Resource.Rollover
import TemisLab.Resource.Verifier
import TemisLab.Sso.Accounts
import TemisLab.Sso.Admin
import TemisLab.Sso.Alone
import TemisLab.Sso.Attempts
import TemisLab.Sso.Auditing
import TemisLab.Sso.Authority
import TemisLab.Sso.Counting
import TemisLab.Sso.Db
import TemisLab.Sso.Endpoints
import TemisLab.Sso.Enumeration
import TemisLab.Sso.ExternalUsers
import TemisLab.Sso.Grants
import TemisLab.Sso.Guesses
import TemisLab.Sso.Handout
import TemisLab.Sso.Integrity
import TemisLab.Sso.Lockout
import TemisLab.Sso.Merging
import TemisLab.Sso.Operations
import TemisLab.Sso.Provisioning
import TemisLab.Sso.Redeeming
import TemisLab.Sso.Refreshing
import TemisLab.Sso.Requests
import TemisLab.Sso.Revocation
import TemisLab.Sso.Statements
import TemisLab.Sso.Suspension
