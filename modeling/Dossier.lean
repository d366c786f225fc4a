import Dossier.Entity.Customer
import Dossier.Entity.Item
import Dossier.Entity.Raw
import Dossier.Json.Reader
import Dossier.Json.Writer
import Dossier.Mongo.Filter
import Dossier.Proofs.Entity.Paging
import Dossier.Proofs.Filter.Compile
import Dossier.Proofs.Mongo.Filter
import Dossier.Proofs.Repository.ActivePage
import Dossier.Proofs.Repository.AuditTrail
import Dossier.Proofs.Repository.Creation
import Dossier.Proofs.Repository.FailedImport
import Dossier.Proofs.Repository.FailedWrite
import Dossier.Proofs.Repository.Filed
import Dossier.Proofs.Repository.History
import Dossier.Proofs.Repository.Identity
import Dossier.Proofs.Repository.Patched
import Dossier.Proofs.Repository.Reimport
import Dossier.Proofs.Repository.Repetition
import Dossier.Proofs.Repository.Resaving
import Dossier.Proofs.Repository.Rivals
import Dossier.Proofs.Repository.Slugs
import Dossier.Proofs.Repository.Spending
import Dossier.Proofs.Repository.UniqueEmail
import Dossier.Proofs.Repository.Validity
import Dossier.Proofs.Store.Blocks
import Dossier.Proofs.Store.FailedCall
import Dossier.Proofs.Store.Orphans
import Dossier.Proofs.Store.Plain
import Dossier.Repository.Delete
import Dossier.Repository.Import
import Dossier.Repository.Patch
import Dossier.Proofs.Filter.Day
import Dossier.Proofs.Filter.Date
import Dossier.Proofs.Filter.Membership
import Dossier.Proofs.Diff.Itself
import Dossier.Proofs.Entity.Rereading
import Dossier.Proofs.Repository.Unchanged
import Dossier.Proofs.Filter.Range
import Dossier.Proofs.Filter.Deep
import Dossier.Proofs.Repository.Batch
import Dossier.Proofs.Mongo.Safe
import Dossier.Proofs.Query.Repeats
import Dossier.Proofs.Mongo.Sort
import Dossier.Proofs.Mongo.Lossless
import Dossier.Proofs.Mongo.Naming
import Dossier.Proofs.Query.FanOut
import Dossier.Proofs.Query.Pooling
import Dossier.Proofs.Query.Presence
import Dossier.Proofs.Query.Ties
import Dossier.Proofs.Store.Fetching
import Dossier.Proofs.Query.Integers
import Dossier.Proofs.Query.Itself
import Dossier.Proofs.Diff.Days
import Dossier.Proofs.Filter.Spelling
import Dossier.Proofs.Query.Consistency
