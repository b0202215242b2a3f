import Bdblib.Basic
import Bdblib.Txn
import Bdblib.Handles
import Bdblib.Database
import Bdblib.Stack
import Bdblib.Nested
import Bdblib.Concurrency
import Bdblib.Records
import Bdblib.Access
import Bdblib.Objects
import Bdblib.Recordset
import Bdblib.Lifecycle
import Bdblib.Table
import Bdblib.Sequence
import Bdblib.Enumeration
import Bdblib.Failure
import Bdblib.Indexing
import Bdblib.Foreign
import Bdblib.Sessions
import Bdblib.Enforcement
import Bdblib.IndexedCalls
import Bdblib.Reads
import Bdblib.Join
import Bdblib.Propagation
import Bdblib.Accounting
