import KindCache.ApiServer.Discovery
import KindCache.ApiServer.ListWatch
import KindCache.ApiServer.Review
import KindCache.Cache.Connection
import KindCache.Document.Printer
import KindCache.Document.Reader
import KindCache.Form.Access
import KindCache.Form.Query
import KindCache.Form.Settings
import KindCache.Selector.Parser
import KindCache.Session.Basic
import KindCache.Proofs.Numbers
import KindCache.Proofs.Text.Trimming
import KindCache.Proofs.Kind.TextForm
import KindCache.Proofs.Retry.Budget
import KindCache.Proofs.Selector.Grammar
import KindCache.Proofs.Selector.Reading
import KindCache.Proofs.Selector.RoundTrip
import KindCache.Proofs.Document.Equality
import KindCache.Proofs.Document.Fields
import KindCache.Proofs.Document.Path
import KindCache.Proofs.Document.RoundTrip
import KindCache.Proofs.Form.RoundTrip
import KindCache.Proofs.Store.Events
import KindCache.Proofs.Store.Mirror
import KindCache.Proofs.Store.Course
import KindCache.Proofs.Store.LastWriter
import KindCache.Proofs.Store.Difference
import KindCache.Proofs.Watcher.Run
import KindCache.Proofs.Watcher.Subscribers
import KindCache.Proofs.Watcher.History
import KindCache.Proofs.Watcher.Account
import KindCache.Proofs.Watcher.Coalescing
import KindCache.Proofs.Watcher.Farewell
import KindCache.Proofs.Watcher.Absence
import KindCache.Proofs.Watcher.Lists
import KindCache.Proofs.Selector.Conjunction
import KindCache.Proofs.Watcher.Agreement
import KindCache.Proofs.Watcher.Barrier
import KindCache.Proofs.Watcher.Bystanders
import KindCache.Proofs.Cluster.Inquiry
import KindCache.Proofs.Cluster.Resolution
import KindCache.Proofs.Cache.Bootstrap
import KindCache.Proofs.Cache.FirstTouch
import KindCache.Proofs.Cache.OneStream
import KindCache.Proofs.Cache.Replies
import KindCache.Proofs.Cache.Permission
import KindCache.Proofs.Cache.Queues
import KindCache.Proofs.Cache.Shutdown
import KindCache.Proofs.Cache.Reports
import KindCache.Proofs.Cache.Absence
import KindCache.Proofs.Cache.Retries
import KindCache.Proofs.Cache.Barrier
import KindCache.Proofs.Cache.Lanes
import KindCache.Proofs.Cache.Desertion
import KindCache.Proofs.Cache.Listing
import KindCache.Proofs.Cache.Thinning
import KindCache.Proofs.Cache.Cut
import KindCache.Proofs.Cache.Unseen
import KindCache.Proofs.Cache.Excerpt
import KindCache.Proofs.Cache.SideBySide
import KindCache.Proofs.Cache.Isolation
import KindCache.Proofs.Session.Reachable
import KindCache.Proofs.ApiServer.Conversion
import KindCache.Proofs.ApiServer.Reading
import KindCache.Proofs.ApiServer.Relist
