import CodeNav.Main
import CodeNav.Rehearsal.Files
import CodeNav.Rehearsal.Locks
import CodeNav.Rehearsal.Readers
import CodeNav.Rehearsal.Sessions
import CodeNav.Proofs.Text.Split
import CodeNav.Proofs.Repository.Checkout
import CodeNav.Proofs.Frame.Reading
import CodeNav.Proofs.Frame.Delivery
import CodeNav.Proofs.Frame.Sending
import CodeNav.Proofs.Frame.Rounds
import CodeNav.Proofs.Progress.Board
import CodeNav.Proofs.Lock.Callers
import CodeNav.Proofs.Lock.Queue
import CodeNav.Proofs.Lock.Outcomes
import CodeNav.Proofs.Lock.Reliable
import CodeNav.Proofs.Lock.Order
import CodeNav.Proofs.Lock.Seats
import CodeNav.Proofs.Server.Client
import CodeNav.Proofs.Server.Requests
import CodeNav.Proofs.Server.Answers
import CodeNav.Proofs.Server.Faithful
import CodeNav.Proofs.Server.Calls
import CodeNav.Proofs.Server.Sessions
import CodeNav.Proofs.Server.Lifecycle
import CodeNav.Proofs.Server.Orderly
import CodeNav.Proofs.Sync.Calls
import CodeNav.Proofs.Sync.Turns
import CodeNav.Proofs.Sync.Seats
import CodeNav.Proofs.Sync.Outcomes
import CodeNav.Proofs.Sync.Forced
import CodeNav.Proofs.Sync.Alone
import CodeNav.Proofs.Sync.Progress
import CodeNav.Proofs.Sync.Single
import CodeNav.Proofs.Sync.Places
import CodeNav.Proofs.Sync.Isolated
import CodeNav.Proofs.Server.Post
import CodeNav.Proofs.Server.Turns
import CodeNav.Proofs.Server.Spellings
import CodeNav.Proofs.Server.Documents
import CodeNav.Proofs.Server.Schedules
import CodeNav.Proofs.Server.Texts
import CodeNav.Proofs.Server.Letters
import CodeNav.Proofs.Server.Polite
import CodeNav.Proofs.Server.Hosts
import CodeNav.Proofs.Server.Evictions
import CodeNav.Proofs.Browser.Service
import CodeNav.Proofs.Browser.Handlers
import CodeNav.Proofs.Browser.Manners
import CodeNav.Proofs.Server.Lasting
import CodeNav.Proofs.Server.Registry
import CodeNav.Proofs.Server.Shelves
import CodeNav.Proofs.Server.Closings
import CodeNav.Proofs.Server.Listening
import CodeNav.Proofs.Server.Handouts
import CodeNav.Proofs.Url.Characters
import CodeNav.Proofs.Url.Domain
import CodeNav.Proofs.Url.Hosts
import CodeNav.Proofs.Url.Paths
import CodeNav.Proofs.Browser.Bridge
import CodeNav.Proofs.Browser.Checkouts
import CodeNav.Proofs.Browser.Conversation
import CodeNav.Proofs.Browser.Doings
import CodeNav.Proofs.Browser.Evolution
import CodeNav.Proofs.Browser.Invalidations
import CodeNav.Proofs.Browser.Leaving
import CodeNav.Proofs.Browser.Overlaps
import CodeNav.Proofs.Repository.Address
import CodeNav.Proofs.Server.Headers
import CodeNav.Proofs.Browser.Frugal
import CodeNav.Proofs.Browser.Secrets
import CodeNav.Proofs.Server.Addresses
import CodeNav.Proofs.Browser.Requests
import CodeNav.Proofs.Server.Outlines
import CodeNav.Proofs.Settings.Saving
import CodeNav.Proofs.Server.Bookkeeping
import CodeNav.Proofs.Command.Output
import CodeNav.Proofs.Server.Replies
import CodeNav.Proofs.Server.Answering
import CodeNav.Proofs.Server.Relatives
import CodeNav.Proofs.Server.Excerpts
