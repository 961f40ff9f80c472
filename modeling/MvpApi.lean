import MvpApi.Library.Table
import MvpApi.Library.Exec
import MvpApi.Library.Optimistic
import MvpApi.Runs.System
import MvpApi.Safety.SingleOwner
import MvpApi.Safety.Onboarding
import MvpApi.Safety.Invitations
import MvpApi.Safety.Races
import MvpApi.Safety.Deletion
import MvpApi.Safety.Privacy
import MvpApi.Safety.Standing
import MvpApi.Safety.Escalation
import MvpApi.Safety.Quotas
import MvpApi.Safety.Versions
import MvpApi.Safety.Paging
import MvpApi.Safety.Authorization
import MvpApi.Safety.Tenants
import MvpApi.Safety.Files
import MvpApi.Safety.Purges
import MvpApi.Safety.Permissions
import MvpApi.Safety.Registration
import MvpApi.Safety.Search
import MvpApi.Safety.Cursors
import MvpApi.Safety.Transactions
import MvpApi.Safety.Sizes
import MvpApi.Safety.Orphans
import MvpApi.Runs.Threads
import MvpApi.Safety.Strays
import MvpApi.Safety.Addresses
import MvpApi.Safety.RateLimits
import MvpApi.Safety.Sequences
import MvpApi.Safety.Confirmations
import MvpApi.Presentation.Routes
import MvpApi.Safety.Contract
import MvpApi.Safety.Rows
import MvpApi.Safety.Admission
import MvpApi.Safety.Uploads
import MvpApi.Safety.Listings
import MvpApi.Safety.Erasure
import MvpApi.Safety.Shelf
import MvpApi.Safety.Retries
import MvpApi.Safety.Announcements
import MvpApi.Safety.Mails
