import Bdblib.Objects

/-!
# Recordsets

A `recordset` walks a table, an index, or the entries of one key of an index, with an engine
cursor opened under `m_txns.top()`. `m_isset` says whether its cursor has been positioned since
construction or the last `rewind`: `fetch` asks for the first entry when it is not (`DB_FIRST`,
or `DB_SET` on the search key) and for the next one when it is (`DB_NEXT`, `DB_NEXT_DUP`). On an
index the cursor's `pget` returns the primary key and the primary data of each entry. A join
recordset positions each single-key recordset of its list and opens a join cursor over them.
-/

namespace Bdb

/-- The cursor movements the library asks for. -/
inductive Move where
  /-- `DB_FIRST`. -/
  | first
  /-- `DB_NEXT`: the first entry for an unpositioned cursor. -/
  | next
  /-- `DB_SET`: the first entry of an equal key. -/
  | set (key : Bytes)
  /-- `DB_NEXT_DUP`: the next entry, when its key is equal to the current one. -/
  | nextDup

/-- The entry a movement takes a cursor at `position` to, or the code of a movement that fails. -/
def Move.target (order : Bytes → Bytes → Ordering) (records : Records) (position : Option Nat) :
    Move → Except DbError Nat
  | .first => if records = [] then .error .notFound else .ok 0
  | .next =>
    match position with
    | none => if records = [] then .error .notFound else .ok 0
    | some current => if current + 1 < records.length then .ok (current + 1) else .error .notFound
  | .set key =>
    match records.findIdx? fun record => order key record.1 = .eq with
    | some found => .ok found
    | none => .error .notFound
  | .nextDup =>
    match position with
    | none => .error .einval
    | some current =>
      match records[current]?, records[current + 1]? with
      | some here, some there => if order here.1 there.1 = .eq then .ok (current + 1) else .error .notFound
      | _, _ => .error .notFound

/-- `m_type`. -/
inductive RecordsetKind where
  /-- `BDB_RS_TABLE`. -/
  | table
  /-- `BDB_RS_DUPLICATES`: every entry of an index. -/
  | duplicates
  /-- `BDB_RS_UNIQUE`: the entries of one key of an index. -/
  | unique
  /-- `BDB_RS_JOIN`. -/
  | join
  deriving DecidableEq

/-- A `bdb::recordset`. -/
structure Recordset where
  /-- `m_cursor`. -/
  cursor : Option Nat
  /-- `m_key`, the serialized search key of a single-key recordset. -/
  key : Option Bytes
  /-- `m_type`. -/
  kind : RecordsetKind
  /-- `m_isset`. -/
  isset : Bool

namespace System

variable (sys : System Store)

/-- `DBC->get` with a movement: the entry, and the cursor moved onto it. -/
def cursorGet (cursor : Nat) (move : Move) : Except DbError (Bytes × Bytes) × System Store :=
  match sys.engine.handles.heap cursor with
  | some (.cursor state) =>
    match sys.engine.handles.dbHandle state.db with
    | none => (.error .einval, sys)
    | some handle =>
      let records := (sys.engine.txn.view state.txn).records handle
      match move.target handle.keyOrder records state.position with
      | .error code => (.error code, sys)
      | .ok position =>
        match records[position]? with
        | none => (.error .notFound, sys)
        | some entry =>
          (.ok entry, sys.withHandles
            (sys.engine.handles.set cursor (.cursor { state with position := some position })))
  | _ => (.error .einval, sys)

/-- The primary data of an index entry's primary key, as a cursor opened in `txn` reads it. -/
def primaryData (index : Nat) (txn : Option Nat) (key : Bytes) : Except DbError Bytes :=
  match sys.engine.handles.dbHandle index with
  | some secondary =>
    match secondary.primary with
    | some (db, _) => Access.get sys.engine.handles db key (sys.engine.txn.view txn)
    | none => .error .einval
  | none => .error .einval

/-- `DBC->pget` on a cursor of an index: the index key, the primary key and the primary data. -/
def cursorPget (cursor : Nat) (move : Move) :
    Except DbError (Bytes × Bytes × Bytes) × System Store :=
  match sys.engine.handles.heap cursor with
  | some (.cursor state) =>
    match sys.cursorGet cursor move with
    | (.ok (indexKey, key), moved) =>
      match sys.primaryData state.db state.txn key with
      | .ok data => (.ok (indexKey, key, data), moved)
      | .error code => (.error code, sys)
    | (.error code, _) => (.error code, sys)
  | _ => (.error .einval, sys)

/-- The index, key and `DBC->count` a positioned cursor gives a join; else `EINVAL`. -/
def joinConstituent (cursor : Nat) : Except DbError ((Nat × Bytes) × Nat) :=
  match sys.engine.handles.heap cursor with
  | some (.cursor { db, txn, position := some position }) =>
    match sys.engine.handles.dbHandle db with
    | some handle =>
      let records := (sys.engine.txn.view txn).records handle
      match records[position]? with
      | some entry => .ok ((db, entry.1), (Records.dups handle.keyOrder entry.1 records).length)
      | none => .error .einval
    | none => .error .einval
  | _ => .error .einval

/-- The transaction a cursor reads in. -/
def cursorTxn (cursor : Nat) : Option (Option Nat) :=
  match sys.engine.handles.heap cursor with
  | some (.cursor state) => some state.txn
  | _ => none

/-- `DB->join` on the primary `db`: `EINVAL` unless every cursor shares the first one's transaction,
then the constituents sorted by their counts, a failed count a tie. -/
def openJoin (db : Nat) (cursors : List Nat) : Except DbError JoinCursor :=
  match cursors.head? with
  | none => .error .einval
  | some first =>
    match sys.engine.handles.heap first with
    | some (.cursor { txn, .. }) =>
      if cursors.any fun cursor => sys.cursorTxn cursor != some txn then .error .einval else
      match cursors.mapM sys.joinConstituent with
      | .error _ => .ok ⟨db, txn, [], 0⟩
      | .ok constituents =>
        let sorted := (constituents.mergeSort fun one other => one.2 ≤ other.2).map Prod.fst
        match sorted.head? with
        | some (index, key) =>
          match sys.engine.handles.dbHandle index with
          | some handle =>
            match ((sys.engine.txn.view txn).records handle).findIdx?
                fun entry => handle.keyOrder key entry.1 = .eq with
            | some start => .ok ⟨db, txn, sorted, start⟩
            | none => .error .einval
          | none => .error .einval
        | none => .error .einval
    | _ => .error .einval

/-- Whether a join constituent `(index, key)` holds an entry of its key for `key'`. -/
def joinHolds (txn : Option Nat) (key' : Bytes) (constituent : Nat × Bytes) : Bool :=
  match sys.engine.handles.dbHandle constituent.1 with
  | some handle =>
    (Records.dups handle.keyOrder constituent.2 ((sys.engine.txn.view txn).records handle)).any
      fun entry => handle.dupOrder key' entry.2 = .eq
  | none => false

end System

/-- The next candidate of a join walk from `position`: an entry of `key` `member` accepts. -/
def joinNext (order : Bytes → Bytes → Ordering) (member : Bytes → Bool) (key : Bytes) :
    Nat → Records → Option (Nat × Bytes)
  | _, [] => none
  | position, entry :: rest =>
    if order key entry.1 ≠ .eq then none
    else if member entry.2 then some (position, entry.2)
    else joinNext order member key (position + 1) rest

namespace System

variable (sys : System Store)

/-- `DBC->get` on a join cursor: the next primary record whose key every constituent holds. -/
def joinGet (cursor : Nat) : Except DbError (Bytes × Bytes) × System Store :=
  match sys.engine.handles.heap cursor with
  | some (.join state) =>
    match state.cursors with
    | [] => (.error .einval, sys)
    | (index, key) :: others =>
      match sys.engine.handles.dbHandle index with
      | none => (.error .einval, sys)
      | some handle =>
        let records := (sys.engine.txn.view state.txn).records handle
        match joinNext handle.keyOrder (fun key' => others.all (sys.joinHolds state.txn key'))
            key state.next (records.drop state.next) with
        | none => (.error .notFound, sys)
        | some (position, key') =>
          match Access.get sys.engine.handles state.db key' (sys.engine.txn.view state.txn) with
          | .ok data =>
            (.ok (key', data), sys.withHandles
              (sys.engine.handles.set cursor (.join { state with next := position + 1 })))
          | .error code => (.error code, sys)
  | _ => (.error .einval, sys)

end System

namespace Recordset

/-- `recordset(table)`, `recordset(index)` and `recordset(index, key)`: one `DB->cursor`. -/
def new (fault : Option DbError) (db : Nat) (kind : RecordsetKind) (key : Option Bytes)
    (sys : System Store) : Except Exception Recordset × System Store :=
  match fault with
  | some _ => (.error .unknown, sys)
  | none =>
    let (cursor, handles) :=
      sys.engine.handles.alloc (.cursor ⟨db, sys.database.txns.head?, none⟩)
    (.ok ⟨some cursor, key, kind, false⟩, sys.withHandles handles)

/-- The join constructor's loop: a recordset without a key throws; the others are positioned with
`pget` (`DB_SET`), a failure clearing the join's `m_isset`. -/
def positionAll (faults : Faults) :
    Nat → List Recordset → System Store → Bool → Except Exception (Bool × List Nat) ×
      List Recordset × System Store
  | _, [], sys, isset => (.ok (isset, []), [], sys)
  | index, recordset :: rest, sys, isset =>
    match recordset.key, recordset.cursor with
    | some key, some cursor =>
      let (found, sys) := match faults index with
        | some _ => (false, sys)
        | none =>
          match sys.cursorPget cursor (.set key) with
          | (.ok _, sys) => (true, sys)
          | (.error _, sys) => (false, sys)
      let recordset := if found then { recordset with isset := true } else recordset
      match positionAll faults (index + 1) rest sys (isset && found) with
      | (.ok (isset, cursors), rest, sys) => (.ok (isset, cursor :: cursors), recordset :: rest, sys)
      | (.error error, rest, sys) => (.error error, recordset :: rest, sys)
    | _, _ => (.error .unknown, recordset :: rest, sys)

/-- `recordset(table, list)`: the positioning loop, then `DB->join` (engine call `n`). -/
def join (faults : Faults) (table : Table) (list : List Recordset) (sys : System Store) :
    Except Exception Recordset × List Recordset × System Store :=
  match positionAll faults 0 list sys true with
  | (.error error, list, sys) => (.error error, list, sys)
  | (.ok (isset, cursors), list, sys) =>
    match faults list.length, sys.openJoin (table.db.getD 0) cursors with
    | some _, _ => (.error .unknown, list, sys)
    | none, .error _ => (.error .unknown, list, sys)
    | none, .ok state =>
      let (cursor, handles) := sys.engine.handles.alloc (.join state)
      (.ok ⟨some cursor, none, .join, isset⟩, list, sys.withHandles handles)

/-- The movement `fetch` asks of the cursor. -/
def move (recordset : Recordset) : Move :=
  match recordset.kind, recordset.isset with
  | .unique, false => .set (recordset.key.getD [])
  | .unique, true => .nextDup
  | _, false => .first
  | _, true => .next

/-- The cursor call of `recordset::fetch` for its type: the primary key and data. -/
def read (recordset : Recordset) (sys : System Store) :
    Except DbError (Bytes × Bytes) × System Store :=
  match recordset.kind, recordset.cursor with
  | .table, some cursor => sys.cursorGet cursor recordset.move
  | .duplicates, some cursor | .unique, some cursor =>
    match sys.cursorPget cursor recordset.move with
    | (.ok (_, key, data), moved) => (.ok (key, data), moved)
    | (.error code, moved) => (.error code, moved)
  | .join, some cursor => if recordset.isset then sys.joinGet cursor else (.error .notFound, sys)
  | _, none => (.error .einval, sys)

/-- `recordset::fetch`: the next primary key and data, or `none` for any nonzero result. -/
def fetch {Message : Type} (codec : Codec Message) (fault : Option DbError) (recordset : Recordset)
    (sys : System Store) : Option (Message × Message) × Recordset × System Store :=
  match fault, recordset.read sys with
  | none, (.ok (key, data), moved) =>
    (some (codec.parse key, codec.parse data), { recordset with isset := true }, moved)
  | _, _ => (none, recordset, sys)

/-- `recordset::rewind`. -/
def rewind (recordset : Recordset) : Except Exception Recordset :=
  if recordset.kind = .join then .error .unknown else .ok { recordset with isset := false }

/-- `recordset::~recordset`. -/
def destroy (recordset : Recordset) (handles : Handles) : Handles :=
  if recordset.cursor.isSome then handles.close recordset.cursor else handles

end Recordset

end Bdb
