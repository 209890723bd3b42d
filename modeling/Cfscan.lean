import Cfscan.League.Hysteresis
import Cfscan.League.Soundness
import Cfscan.Enrollment.Lifecycle
import Cfscan.Scan.Progress
import Cfscan.Scan.Resubmit
import Cfscan.Scan.Blacklist
import Cfscan.Scan.Stop
import Cfscan.Enrollment.Endpoint
import Cfscan.Lib.Lossy
import Cfscan.Enrollment.Process
import Cfscan.Agent.Requests
import Cfscan.Lib.Spares
import Cfscan.Agent.Confined
import Cfscan.Schedule.Store
import Cfscan.Scan.Settled
import Cfscan.Schedule.Runner
import Cfscan.Schedule.Overlap
import Cfscan.Lib.Timetable
import Cfscan.Schedule.Edits
import Cfscan.Schedule.Automation
import Cfscan.Recheck.Rounds
import Cfscan.Recheck.Onward
import Cfscan.Recheck.Calls
import Cfscan.Recheck.Apart
import Cfscan.Lib.Guarded
import Cfscan.Users.Store
import Cfscan.Users.Admins
import Cfscan.Users.Login
import Cfscan.Users.Revoked
import Cfscan.Lib.Page
import Cfscan.Results.Store
import Cfscan.Results.Dataset
import Cfscan.Results.Listing
import Cfscan.Results.Pages
import Cfscan.Results.Request
import Cfscan.Results.Selector
import Cfscan.Lib.Top
import Cfscan.League.Dashboard
import Cfscan.League.Standings
import Cfscan.Cloudflare.Colos
import Cfscan.Results.Facets
import Cfscan.League.RowOrder
import Cfscan.Lib.Nesting
import Cfscan.Targets.Usable
import Cfscan.Targets.Enumerate
import Cfscan.Targets.OnePerPrefix
import Cfscan.Lib.Allot
import Cfscan.Recheck.Allotment
import Cfscan.Jobs.Store
import Cfscan.Jobs.Work
import Cfscan.Jobs.Planning
import Cfscan.Jobs.Planned
import Cfscan.Jobs.Marks
import Cfscan.Jobs.Rested
import Cfscan.Cloudflare.Store
import Cfscan.Lib.Log
import Cfscan.Cloudflare.Sync
import Cfscan.Cloudflare.Pool
import Cfscan.Cloudflare.Listing
import Cfscan.Lib.Binary64
import Cfscan.Lib.FixedWindow
import Cfscan.Lib.Keyed
import Cfscan.Limits.Duration
import Cfscan.Limits.Rate
import Cfscan.Limits.Login
import Cfscan.Limits.RetryAfter
import Cfscan.Scans.Defaults
import Cfscan.Lib.Columns
import Cfscan.Scans.Schedules
import Cfscan.Scans.Saved
import Cfscan.Scans.Runs
import Cfscan.Scans.Refines
import Cfscan.League.Monotone
import Cfscan.Results.Latest
import Cfscan.Targets.Networks
import Cfscan.Users.Handlers
import Cfscan.Users.OwnAccess
import Cfscan.Users.Accounts
import Cfscan.Users.Passwords
import Cfscan.Scan.Batches
import Cfscan.Lib.Utf8
import Cfscan.Enrollment.RawToken
import Cfscan.Enrollment.LogPath
import Cfscan.Agent.Batch
import Cfscan.Lib.Interpolation
import Cfscan.Results.Trend
import Cfscan.Targets.Drawn
import Cfscan.Lib.Tally
import Cfscan.Results.GeoFacets
import Cfscan.Results.PageNumbers
import Cfscan.Lib.Placeholders
import Cfscan.Lib.Sprintf
import Cfscan.Results.QueryText
import Cfscan.Errors.Results
import Cfscan.Scan.Failures
import Cfscan.Scan.Claimed
import Cfscan.Agent.Drained
import Cfscan.Lib.Disk
import Cfscan.Lib.Register
import Cfscan.Lib.Install
import Cfscan.Lib.Machine
import Cfscan.Agent.Identity
import Cfscan.Users.Sessions
import Cfscan.Users.Requests
import Cfscan.Users.Live
import Cfscan.Users.Escalation
import Cfscan.Center.Targets
import Cfscan.Center.Tasks
import Cfscan.Lib.Triple
import Cfscan.Center.Create
import Cfscan.Center.Creation
import Cfscan.Center.Runs
import Cfscan.Lib.FormQuery
import Cfscan.Web.Query
import Cfscan.Web.ResultQueries
import Cfscan.Recheck.Saved
import Cfscan.Enrollment.Answered
import Cfscan.Results.Listing
import Cfscan.Scans.Refines
