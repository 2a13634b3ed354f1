import Tsql.Rowset
import Tsql.Session.BulkInsert
import Tsql.Session.Settings
import Tsql.Settings.Reader
import Tsql.Value.Tagged
import Tsql.Proofs.Session.Action
import Tsql.Proofs.Session.ServerTransaction
import Tsql.Proofs.Session.Transactions
import Tsql.Proofs.BulkInsert.Keys
import Tsql.Proofs.BulkInsert.Run
import Tsql.Proofs.BulkInsert.Atomic
import Tsql.Proofs.BulkInsert.Commands
import Tsql.Proofs.Json.MergeLaws
import Tsql.Proofs.Json.Objects
import Tsql.Proofs.Rowset
import Tsql.Proofs.BulkInsert.Assigned
import Tsql.Proofs.Codec.Integers
import Tsql.Proofs.Json.Numbers
import Tsql.Proofs.Json.Reading
import Tsql.Proofs.BulkInsert.PairRowset
import Tsql.Proofs.BulkInsert.KeyUpdates
import Tsql.Proofs.BulkInsert.MappingTable
import Tsql.Proofs.Render.RowTarget
import Tsql.Proofs.Render.Tokens
import Tsql.Proofs.Session.Cache
import Tsql.Proofs.Naming.LeastNumber
import Tsql.Proofs.Naming.Registered
import Tsql.Proofs.Render.Parameters
import Tsql.Proofs.Render.Introductions
import Tsql.Proofs.Codec.LiteralRoundTrip
import Tsql.Proofs.Codec.WriteBack
import Tsql.Proofs.Render.Grammar
import Tsql.Proofs.Render.Derivation
import Tsql.Proofs.Session.Stages
import Tsql.Proofs.BulkInsert.Duties
import Tsql.Proofs.BulkInsert.Protocol
import Tsql.Proofs.Render.CreatedTable
import Tsql.Proofs.Session.Registry
import Tsql.Proofs.Session.Failures
import Tsql.Proofs.Session.Handles
import Tsql.Proofs.Render.RaisedVersion
import Tsql.Proofs.Render.HiddenIdentities
import Tsql.Proofs.DataSet.Operations
import Tsql.Proofs.DataSet.SealedKeys
import Tsql.Proofs.DataSet.Identities
import Tsql.Proofs.BulkInsert.Children
import Tsql.Proofs.BulkInsert.Pairing
import Tsql.Proofs.DataSet.FailedCalls
import Tsql.Proofs.Render.FilledColumns
import Tsql.Proofs.Render.OffsetClauses
import Tsql.Proofs.Codec.NativeForms
import Tsql.Proofs.Render.WellFormed
import Tsql.Proofs.Render.JoinReading
import Tsql.Proofs.Codec.LiteralForms
import Tsql.Proofs.Session.LoadedRows
import Tsql.Proofs.Codec.Moments
import Tsql.Proofs.Rowset.ReadBack
import Tsql.Proofs.Render.TemporaryTables
import Tsql.Proofs.Render.DescribedParts
import Tsql.Proofs.Render.Indentation
import Tsql.Proofs.Render.InlinedValues
import Tsql.Proofs.Settings.Layers
