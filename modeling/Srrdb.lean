import Srrdb.Server.Listener
import Srrdb.Engine.Outcomes
import Srrdb.Engine.CatalogTheorems
import Srrdb.Engine.Defaults
import Srrdb.Engine.IndexTheorems
import Srrdb.Lib.Run
import Srrdb.Engine.ErrorPaths
import Srrdb.Engine.StorageTheorems
import Srrdb.Engine.FailedEntries
import Srrdb.Engine.RowChanges
import Srrdb.Engine.LogReplay
import Srrdb.Engine.Consistency
import Srrdb.Server.Reachable
import Srrdb.Server.EntryDatabase
import Srrdb.Engine.ExactIndex
import Srrdb.Engine.IndexMaintenance
import Srrdb.Server.RegisteredIndexes
import Srrdb.Server.IndexLookup
import Srrdb.Server.Isolation
import Srrdb.Server.LogOrder
import Srrdb.Engine.Places
import Srrdb.Server.ConcurrentIndexes
import Srrdb.Engine.LogFormat
import Srrdb.Engine.CounterOverflow
import Srrdb.Engine.Checkpoint
import Srrdb.Server.Restart
import Srrdb.Server.Durability
import Srrdb.Server.Contents
import Srrdb.Server.UniqueIndexes
import Srrdb.Server.RowWidth
import Srrdb.Server.AutoIncrement
import Srrdb.Server.Counters
import Srrdb.Lib.Redo
import Srrdb.Server.TableLog
import Srrdb.Server.DataFiles
import Srrdb.Server.LoggedChanges
import Srrdb.Server.CrashStates
import Srrdb.Server.Recovery
import Srrdb.Engine.WhereClauses
import Srrdb.Protocol.Frame
import Srrdb.Protocol.Payload
import Srrdb.Lib.Reader
import Srrdb.Client.Query
import Srrdb.Protocol.Handshake
import Srrdb.Client.Login
import Srrdb.Server.Connection
import Srrdb.Client.ResultSets
import Srrdb.Lib.Sha1
import Srrdb.Server.Authentication
import Srrdb.Engine.CatalogSteps
import Srrdb.Server.IndexKeys
import Srrdb.Server.IndexNames
import Srrdb.Server.Drops
import Srrdb.Engine.FileNames
import Srrdb.Server.SessionDatabase
import Srrdb.Client.Alignment
import Srrdb.Server.NewTables
import Srrdb.Engine.SavedFiles
import Srrdb.Server.DropTable
import Srrdb.Server.DiskMirror
import Srrdb.Lib.Wildcard
import Srrdb.Lib.Utf8
import Srrdb.Engine.Like
import Srrdb.Engine.LikeMeaning
import Srrdb.Server.SelectedRows
import Srrdb.Engine.Literals
import Srrdb.Server.Assignments
import Srrdb.Server.ExistingTables
import Srrdb.Server.NullComparisons
import Srrdb.Lib.IeeeTheorems
import Srrdb.Engine.Comparisons
import Srrdb.Lib.StableSort
import Srrdb.Engine.OrderBy
import Srrdb.Engine.InsertedRows
import Srrdb.Server.StoredLiterals
import Srrdb.Protocol.Truncation
import Srrdb.Client.LoginPackets
import Srrdb.Server.LoginAgreement
import Srrdb.Client.Truncation
import Srrdb.Engine.RowIds
import Srrdb.Lib.Calendar
import Srrdb.Engine.Timestamps
import Srrdb.Client.LengthEncoding
import Srrdb.Engine.Projection
import Srrdb.Engine.MapContracts
import Srrdb.Lib.LexOrder
import Srrdb.Engine.RangeLookup
import Srrdb.Engine.CatalogMaps
import Srrdb.Lib.Pieces
import Srrdb.Client.Shell
import Srrdb.Client.Script
import Srrdb.Server.UsedDatabases
import Srrdb.Client.Prompt
import Srrdb.Lib.Locks
import Srrdb.Lib.TwoPhase
import Srrdb.Lib.Calls
import Srrdb.Engine.Locking
import Srrdb.Engine.LockingTheorems
import Srrdb.Server.Interleavings
import Srrdb.Lib.Views
import Srrdb.Engine.TableViews
import Srrdb.Server.TableHandlers
import Srrdb.Server.TableIndependence
import Srrdb.Server.Conversation
import Srrdb.Server.RowCounts
import Srrdb.Server.TableCounts
import Srrdb.Lib.Refinement
import Srrdb.Engine.RowOrder
import Srrdb.Server.Relations
import Srrdb.Server.RelationSteps
import Srrdb.Server.RelationRefinement
import Srrdb.Lib.Blocks
import Srrdb.Server.WholeInserts
