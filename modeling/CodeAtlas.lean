import CodeAtlas.Exchange.Service
import CodeAtlas.Exchange.Settings
import CodeAtlas.Main
import CodeAtlas.Proofs.Embedding.Stateless
import CodeAtlas.Proofs.Index.Refresh
import CodeAtlas.Proofs.Index.Sharing
import CodeAtlas.Tracker.Clock
import CodeAtlas.Tracker.System
import CodeAtlas.Proofs.Tracker.Actions
import CodeAtlas.Proofs.Tracker.Conservation
import CodeAtlas.Proofs.Tracker.Loss
import CodeAtlas.Proofs.Tracker.Waking
import CodeAtlas.Proofs.Navigator.Groups
import CodeAtlas.Proofs.Navigator.Tree
import CodeAtlas.Proofs.Navigator.Coverage
import CodeAtlas.Proofs.Tracker.Draining
import CodeAtlas.Proofs.Search.CallSites
import CodeAtlas.Proofs.Search.Ranking
import CodeAtlas.Proofs.Index.Rebuild
import CodeAtlas.Proofs.Restore.RoundTrip
import CodeAtlas.Proofs.Restore.Deletion
import CodeAtlas.Proofs.Restore.Partial
import CodeAtlas.Proofs.Restore.Retention
import CodeAtlas.Proofs.Settings.CacheDirectory
import CodeAtlas.Proofs.Index.Coherence
import CodeAtlas.Proofs.Index.Ids
import CodeAtlas.Proofs.Embedding.Calls
import CodeAtlas.Proofs.Embedding.Provenance
import CodeAtlas.Proofs.Cache.Finite
import CodeAtlas.Proofs.Disk.Apart
import CodeAtlas.Proofs.Embedding.Recovery
import CodeAtlas.Proofs.Restore.Failure
import CodeAtlas.Proofs.Service.Age
import CodeAtlas.Proofs.Service.Unseen
import CodeAtlas.Proofs.Navigator.Lookups
import CodeAtlas.Proofs.Index.Belongings
import CodeAtlas.Proofs.Index.Pruning
import CodeAtlas.Proofs.Symbol.Parents
import CodeAtlas.Proofs.Symbol.Header
import CodeAtlas.Proofs.Search.Occurrence
import CodeAtlas.Proofs.Search.Keywords
import CodeAtlas.Proofs.Tracker.Agreement
import CodeAtlas.Proofs.Restore.Escape
import CodeAtlas.Proofs.Text.Splitting
import CodeAtlas.Proofs.Navigator.Pattern
import CodeAtlas.Proofs.Navigator.Eigen
import CodeAtlas.Proofs.Navigator.Traversal
import CodeAtlas.Proofs.Navigator.Means
