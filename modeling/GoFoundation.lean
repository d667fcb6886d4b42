import GoFoundation.Library.Transition
import GoFoundation.Library.Table
import GoFoundation.Library.Lease
import GoFoundation.Library.Keyset
import GoFoundation.Library.Wire
import GoFoundation.Library.LastWrite
import GoFoundation.Library.Threads
import GoFoundation.Postgres.Types
import GoFoundation.Go.Base64
import GoFoundation.Grpc.Status
import GoFoundation.Go.Strings
import GoFoundation.Go.Scan
import GoFoundation.Postgres.Text
import GoFoundation.Grpc.ErrorInfo
import GoFoundation.Apierror.Ensure
import GoFoundation.Idempotency.Store
import GoFoundation.Idempotency.Interceptor
import GoFoundation.Idempotency.Protocol
import GoFoundation.Idempotency.Invariant
import GoFoundation.Idempotency.Exclusivity
import GoFoundation.Idempotency.Replay
import GoFoundation.Idempotency.Cleanup
import GoFoundation.Idempotency.KeyBinding
import GoFoundation.Idempotency.Sweeping
import GoFoundation.Idempotency.Guards
import GoFoundation.Idempotency.Retry
import GoFoundation.Idempotency.Availability
import GoFoundation.Idempotency.Settlement
import GoFoundation.Users.Model
import GoFoundation.Sessions.Repository
import GoFoundation.Sessions.Protocol
import GoFoundation.Sessions.Chain
import GoFoundation.Sessions.Lifetime
import GoFoundation.Sessions.Isolation
import GoFoundation.Pagination.Service
import GoFoundation.Users.Listing
import GoFoundation.Audit.Model
import GoFoundation.Pagination.Complete
import GoFoundation.Server.Context
import GoFoundation.Users.Authentication
import GoFoundation.Users.Providers
import GoFoundation.Users.Entity
import GoFoundation.Users.Repositories
import GoFoundation.Users.Search
import GoFoundation.Users.Service
import GoFoundation.Users.ReadBack
import GoFoundation.Users.Passwords
import GoFoundation.Users.Secrecy
import GoFoundation.Pagination.Tokens
import GoFoundation.Sessions.Service
import GoFoundation.Sessions.Failures
import GoFoundation.Sessions.Disclosure
import GoFoundation.Rbac.Model
import GoFoundation.Audit.Interceptor
import GoFoundation.Server.Chain
import GoFoundation.Server.Mediation
import GoFoundation.Rbac.Assignments
import GoFoundation.Server.Tracing
import GoFoundation.Audit.Outcome
import GoFoundation.Audit.Findable
import GoFoundation.Audit.Secrecy
import GoFoundation.Audit.Protocol
import GoFoundation.Audit.Columns
import GoFoundation.Audit.Trail
import GoFoundation.Administration.Calls
import GoFoundation.Administration.Bootstrap
import GoFoundation.Administration.System
import GoFoundation.Administration.Conduct
import GoFoundation.Administration.Authority
import GoFoundation.Migrations.Model
import GoFoundation.Migrations.Runs
import GoFoundation.Migrations.FirstStart
import GoFoundation.Sessions.JWT
import GoFoundation.Sessions.Access
import GoFoundation.Sessions.Bearer
import GoFoundation.Library.Checklist
import GoFoundation.Go.Parse
import GoFoundation.Configuration.Load
import GoFoundation.Configuration.Accepted
import GoFoundation.Configuration.Repairs
import GoFoundation.Audit.Review
import GoFoundation.Idempotency.Handlers
import GoFoundation.Users.Retried
