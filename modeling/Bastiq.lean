import Bastiq.Relational.Table
import Bastiq.Concurrency.Machine
import Bastiq.Core.Views
import Bastiq.Core.Permissions
import Bastiq.Core.Rbac
import Bastiq.Billing.Limits
import Bastiq.Accounts.Email
import Bastiq.Accounts.Register
import Bastiq.Billing.Endings
import Bastiq.Organizations.Invitations
import Bastiq.Organizations.Members
import Bastiq.Projects.Isolation
import Bastiq.Api
import Bastiq.Billing.Delivery
import Bastiq.Billing.Idempotency
import Bastiq.Billing.LostUpdate
import Bastiq.Organizations.Escalation
import Bastiq.Organizations.InviteRace
import Bastiq.Organizations.MemberRace
import Bastiq.Billing.Ownership
import Bastiq.Organizations.MemberAuthority
import Bastiq.Projects.CapRace
import Bastiq.Organizations.FallbackRace
import Bastiq.Organizations.AcceptRace
import Bastiq.Organizations.Bookkeeping
import Bastiq.Organizations.Removal
import Bastiq.Organizations.Owners
import Bastiq.Organizations.AdminOwners
import Bastiq.Accounts.Login
import Bastiq.Accounts.Tokens
import Bastiq.Accounts.Sessions
import Bastiq.Accounts.Auth
import Bastiq.Accounts.Lifetime
import Bastiq.Accounts.Revocation
import Bastiq.Accounts.ResetRace
import Bastiq.Accounts.ResetFailure
import Bastiq.Accounts.RejectedLogin
import Bastiq.Accounts.Enumeration
import Bastiq.Accounts.AddressBinding
import Bastiq.Projects.Authorization
import Bastiq.Billing.Purchase
import Bastiq.Billing.Totality
import Bastiq.Billing.CustomerRace
import Bastiq.Organizations.Reinvite
import Bastiq.Organizations.Slugs
import Bastiq.Organizations.SlugRace
import Bastiq.Organizations.MemberInput
import Bastiq.Mailing
import Bastiq.Columns
import Bastiq.Accounts.RegisterRace
import Bastiq.Listings
import Bastiq.Organizations.Reseed
import Bastiq.Schema
import Bastiq.Integrity
import Bastiq.Billing.Projection
import Bastiq.Organizations.Provenance
import Bastiq.Atomicity
import Bastiq.Accounts.Families
import Bastiq.Outbox
import Bastiq.Tenancy
import Bastiq.Reads
import Bastiq.Locking
import Bastiq.Billing.Endpoints
import Bastiq.Billing.Migrations
