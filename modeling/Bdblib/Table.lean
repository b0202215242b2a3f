import Bdblib.Nested
import Bdblib.Objects

/-!
# Table operations

`exists`, `remove`, `insert`, `update` and `select` of `bdb::table`, each a sequence of engine
calls on `m_db` under `m_txns.top()`. `insert` puts with `DB_NOOVERWRITE`. `update` probes with
`DB->exists` and then overwrites, and `select` unserializes what `DB->get` returns. Each maps
the engine's codes to the library's error kinds with its own `switch`.

On a table without indexes and foreign keys the records behave as a finite map from comparator
classes of serialized keys to data. Every call does to that map what the reference `KeyMap`
does, whatever transactions are open around it.
-/

namespace Bdb

/-- A call on a table, with its key and data messages. -/
inductive TableCall (Key Data : Type) where
  /-- `table::exists`. -/
  | «exists» (key : Key)
  /-- `table::remove`. -/
  | remove (key : Key)
  /-- `table::insert`. -/
  | insert (key : Key) (data : Data)
  /-- `table::update`. -/
  | update (key : Key) (data : Data)
  /-- `table::select`. -/
  | select (key : Key)

/-- What a table call returns when it does not throw. -/
inductive Reply (Data : Type) where
  /-- `remove`, `insert` and `update` returned. -/
  | done
  /-- The data `select` read. -/
  | found (data : Data)
  /-- What `exists` returned. -/
  | answer (present : Bool)
  deriving DecidableEq

/-- The `switch` of `table::remove`. -/
def removeError : DbError → Exception
  | .notFound => .notFound
  | .foreignConflict => .foreignKey
  | _ => .unknown

/-- The `switch` of `table::insert`. -/
def insertError : DbError → Exception
  | .einval => .exists
  | .keyExist => .exists
  | .foreignConflict => .foreignKey
  | _ => .unknown

/-- The `switch` of `table::update` after its put. -/
def updateError : DbError → Exception
  | .foreignConflict => .foreignKey
  | _ => .unknown

/-- The `switch` of `table::select`. -/
def selectError : DbError → Exception
  | .notFound => .notFound
  | _ => .unknown

/-- How deep cascading deletes may go: shorter than the number of handles. -/
def Access.depth (handles : Handles) : Nat := handles.fresh + 1

namespace TableCall

variable {Key Data : Type} (keys : Codec Key) (values : Codec Data) (faults : Faults)
  (handles : Handles) (db : Nat)

/-- A table call under `m_txns.top()`; `faults` answers the steps of its engine calls. -/
def perform : TableCall Key Data → Store → Except Exception (Reply Data) × Store
  | .exists key, store =>
    match faults 0 with
    | some _ => (.ok (.answer false), store)
    | none => (.ok (.answer (Access.exists handles db (keys.serialize key) store).isNone), store)
  | .remove key, store =>
    match Access.delSteps handles faults (Access.depth handles) db (keys.serialize key) store with
    | (none, store) => (.ok .done, store)
    | (some code, store) => (.error (removeError code), store)
  | .insert key data, store =>
    match Access.putSteps handles faults db (keys.serialize key) (values.serialize data) true
        store with
    | (none, store) => (.ok .done, store)
    | (some code, store) => (.error (insertError code), store)
  | .update key data, store =>
    let probe := match faults 0 with
      | some code => some code
      | none => Access.exists handles db (keys.serialize key) store
    match probe with
    | some _ => (.error .notFound, store)
    | none =>
      match Access.putSteps handles (fun step => faults (step + 1)) db (keys.serialize key)
          (values.serialize data) false store with
      | (none, store) => (.ok .done, store)
      | (some code, store) => (.error (updateError code), store)
  | .select key, store =>
    match faults 0 with
    | some code => (.error (selectError code), store)
    | none =>
      match Access.get handles db (keys.serialize key) store with
      | .ok data => (.ok (.found (values.parse data)), store)
      | .error code => (.error (selectError code), store)

/-- What a table call that returns did: nothing, one successful `DB->put`, or one `DB->del`. -/
theorem perform_cases {call : TableCall Key Data} {store : Store} {reply : Reply Data}
    (ok : (call.perform keys values faults handles db store).1 = .ok reply) :
    (call.perform keys values faults handles db store).2 = store ∨
      (∃ key data noOverwrite, Access.put handles db key data noOverwrite store =
        (none, (call.perform keys values faults handles db store).2)) ∨
      ∃ fuel key, Access.del handles fuel db key store =
        (none, (call.perform keys values faults handles db store).2) := by
  cases call with
  | «exists» key => simp only [perform]; split <;> exact .inl rfl
  | select key => simp only [perform]; split <;> (try split) <;> exact .inl rfl
  | insert key data =>
    simp only [perform] at ok ⊢
    split at ok <;> rename_i stored called
    · simpa only [called] using .inr (.inl ⟨_, _, _, Access.putSteps_succeeded handles called⟩)
    · cases ok
  | update key data =>
    simp only [perform] at ok ⊢
    cases fault : faults 0 with
    | some code => simp [fault] at ok
    | none =>
      simp only [fault] at ok ⊢
      cases probe : Access.exists handles db (keys.serialize key) store with
      | some code => exact .inl rfl
      | none =>
        simp only [probe] at ok ⊢
        split at ok <;> rename_i stored called
        · simpa only [called] using .inr (.inl ⟨_, _, _, Access.putSteps_succeeded handles called⟩)
        · cases ok
  | remove key =>
    simp only [perform] at ok ⊢
    split at ok <;> rename_i stored called
    · simpa only [called] using .inr (.inr ⟨_, _, Access.delSteps_succeeded handles called⟩)
    · cases ok

end TableCall

/-- A table call on the database, run under `m_txns.top()` with the handles as they are. -/
def System.tableCall {Key Data : Type} (keys : Codec Key) (values : Codec Data) (faults : Faults)
    (db : Nat) (call : TableCall Key Data) (sys : System Store) :
    Except Exception (Reply Data) × System Store :=
  sys.performTop (call.perform keys values faults sys.engine.handles db)

theorem StackInv.tableCall {root : Nat} {sys : System Store} (inv : StackInv root sys)
    {Key Data : Type} (keys : Codec Key) (values : Codec Data) (faults : Faults) (db : Nat)
    (call : TableCall Key Data) : StackInv root (sys.tableCall keys values faults db call).2 :=
  have ⟨txns, parents, fresh, finalized⟩ := performTop_transparent _ sys
  inv.congr txns parents fresh finalized

/-! ## The reference finite map -/

/-- A finite map from comparator classes of serialized keys to data: the data of each key. -/
abbrev KeyMap (Data : Type) := Bytes → Option Data

namespace KeyMap

variable {Key Data : Type} (order : Bytes → Bytes → Ordering) (serialize : Key → Bytes)
  (map : KeyMap Data)

/-- The map with the class of `key` set to `data`. -/
def assign (key : Bytes) (data : Data) : KeyMap Data :=
  fun other => if order other key = .eq then some data else map other

/-- The map without the class of `key`. -/
def drop (key : Bytes) : KeyMap Data :=
  fun other => if order other key = .eq then none else map other

/-- A table call on the reference map: `insert` needs an absent key, `update`, `remove` one. -/
def step : TableCall Key Data → Except Exception (Reply Data) × KeyMap Data
  | .exists key => (.ok (.answer (map (serialize key)).isSome), map)
  | .remove key =>
    if (map (serialize key)).isSome then (.ok .done, map.drop order (serialize key))
    else (.error .notFound, map)
  | .insert key data =>
    if (map (serialize key)).isSome then (.error .exists, map)
    else (.ok .done, map.assign order (serialize key) data)
  | .update key data =>
    if (map (serialize key)).isSome then (.ok .done, map.assign order (serialize key) data)
    else (.error .notFound, map)
  | .select key =>
    match map (serialize key) with
    | some data => (.ok (.found data), map)
    | none => (.error .notFound, map)

end KeyMap

/-- A run of table calls on the reference map. -/
def KeyMap.run {Key Data : Type} (order : Bytes → Bytes → Ordering) (serialize : Key → Bytes) :
    KeyMap Data → List (TableCall Key Data) → List (Except Exception (Reply Data)) × KeyMap Data
  | map, [] => ([], map)
  | map, call :: rest =>
    ((map.step order serialize call).1 :: ((map.step order serialize call).2.run order serialize rest).1,
      ((map.step order serialize call).2.run order serialize rest).2)

/-- The map a table's records stand for: the unserialized data of each key class. -/
def Store.keyMap {Data : Type} (values : Codec Data) (table : DbHandle) (store : Store) :
    KeyMap Data :=
  fun key => (Records.lookup table.keyOrder key (store.records table)).map values.parse

/-! ## A table without indexes and foreign keys is a finite map -/

section Plain

variable {Key Data : Type} {keys : Codec Key} {values : Codec Data} {handles : Handles} {db : Nat}
  {table : DbHandle} {file : String}

theorem Store.keyMap_put (opened : table.file = some file) (store : Store) (key data : Bytes) :
    (store.setRecords table (Records.put table.keyOrder key data (store.records table))).keyMap
        values table =
      (store.keyMap values table).assign table.keyOrder key (values.parse data) := by
  funext other
  simp only [Store.keyMap, store.records_setRecords opened, Records.lookup_put, KeyMap.assign]
  split <;> rfl

theorem Store.keyMap_erase (opened : table.file = some file) (store : Store) (key : Bytes) :
    (store.setRecords table (Records.erase table.keyOrder key (store.records table))).keyMap
        values table =
      (store.keyMap values table).drop table.keyOrder key := by
  funext other
  simp only [Store.keyMap, store.records_setRecords opened, Records.lookup_erase, KeyMap.drop]
  split <;> rfl

theorem Store.keyMap_isSome (store : Store) (key : Bytes) :
    (store.keyMap values table key).isSome =
      (Records.lookup table.keyOrder key (store.records table)).isSome := by
  simp [Store.keyMap]

theorem Records.find_isSome_eq_lookup (order : Bytes → Bytes → Ordering) (key : Bytes)
    (records : Records) : (Records.find order key records).isSome =
      (Records.lookup order key records).isSome := by
  simp [Records.lookup]

variable (found : handles.dbHandle db = some table) (noSecondaries : table.secondaries = [])
  (noForeign : table.foreign = []) (opened : table.file = some file)
  (roundTrip : ∀ data, values.parse (values.serialize data) = data)
include found noSecondaries noForeign opened roundTrip

/-- Every table call answered without faults does what the reference map does. -/
theorem TableCall.perform_refines (call : TableCall Key Data) (store : Store) :
    (call.perform keys values (fun _ => none) handles db store).1 =
        ((store.keyMap values table).step table.keyOrder keys.serialize call).1 ∧
      (call.perform keys values (fun _ => none) handles db store).2.keyMap values table =
        ((store.keyMap values table).step table.keyOrder keys.serialize call).2 := by
  cases call with
  | «exists» key =>
    cases present : Records.lookup table.keyOrder (keys.serialize key) (store.records table) <;>
      simp [TableCall.perform, KeyMap.step, Access.exists, Access.get_of_dbHandle found,
        Store.keyMap_isSome, present]
  | remove key =>
    cases present : Records.lookup table.keyOrder (keys.serialize key) (store.records table) <;>
      simp [TableCall.perform, KeyMap.step, Access.delSteps_answered, Access.depth,
        Access.del_plain found noSecondaries noForeign, Records.find_isSome_eq_lookup,
        Store.keyMap_isSome, present, Store.keyMap_erase opened, removeError]
  | insert key data =>
    cases present : Records.lookup table.keyOrder (keys.serialize key) (store.records table) <;>
      simp [TableCall.perform, KeyMap.step, Access.putSteps_answered,
        Access.put_plain found noSecondaries, Store.keyMap_isSome, present, Store.keyMap_put opened, roundTrip, insertError]
  | update key data =>
    cases present : Records.lookup table.keyOrder (keys.serialize key) (store.records table) <;>
      simp [TableCall.perform, KeyMap.step, Access.putSteps_answered, Access.exists,
        Access.get_of_dbHandle found, Access.put_plain found noSecondaries, Store.keyMap_isSome, present,
        Store.keyMap_put opened, roundTrip]
  | select key =>
    cases present : Records.lookup table.keyOrder (keys.serialize key) (store.records table) <;>
      simp [TableCall.perform, KeyMap.step, Access.get_of_dbHandle found, Store.keyMap, present,
        selectError]

end Plain

/-- A run of table calls on the database: their replies and the final state. -/
def System.tableRun {Key Data : Type} (keys : Codec Key) (values : Codec Data) (faults : Faults)
    (db : Nat) : System Store → List (TableCall Key Data) →
      List (Except Exception (Reply Data)) × System Store
  | sys, [] => ([], sys)
  | sys, call :: rest =>
    ((sys.tableCall keys values faults db call).1 ::
        ((sys.tableCall keys values faults db call).2.tableRun keys values faults db rest).1,
      ((sys.tableCall keys values faults db call).2.tableRun keys values faults db rest).2)

/-- Every run on a table without indexes or foreign keys does what the reference map does. -/
theorem table_as_map {Key Data : Type} {keys : Codec Key} {values : Codec Data} {db root : Nat}
    {table : DbHandle} {file : String} {sys : System Store} (inv : StackInv root sys)
    (found : sys.engine.handles.dbHandle db = some table) (noSecondaries : table.secondaries = [])
    (noForeign : table.foreign = []) (opened : table.file = some file)
    (roundTrip : ∀ data, values.parse (values.serialize data) = data)
    (calls : List (TableCall Key Data)) :
    (sys.tableRun keys values (fun _ => none) db calls).1 =
        (KeyMap.run table.keyOrder keys.serialize (sys.abstract.current.keyMap values table)
          calls).1 ∧
      (sys.tableRun keys values (fun _ => none) db calls).2.abstract.current.keyMap values table =
        (KeyMap.run table.keyOrder keys.serialize (sys.abstract.current.keyMap values table)
          calls).2 := by
  induction calls generalizing sys with
  | nil => exact ⟨rfl, rfl⟩
  | cons call rest induction =>
    obtain ⟨reply, logged⟩ := inv.operate_refines
      (call.perform keys values (fun _ => none) sys.engine.handles db)
    obtain ⟨answer, mapped⟩ : (call.perform keys values (fun _ => none) sys.engine.handles db
        sys.abstract.current).1 = ((sys.abstract.current.keyMap values table).step table.keyOrder
          keys.serialize call).1 ∧
        (call.perform keys values (fun _ => none) sys.engine.handles db
          sys.abstract.current).2.keyMap values table =
        ((sys.abstract.current.keyMap values table).step table.keyOrder keys.serialize call).2 :=
      call.perform_refines found noSecondaries noForeign opened roundTrip sys.abstract.current
    have kept := inv.tableCall keys values (fun _ => none) db call
    have current : (sys.tableCall keys values (fun _ => none) db call).2.abstract.current =
        (call.perform keys values (fun _ => none) sys.engine.handles db
          sys.abstract.current).2 := by
      simp [System.tableCall, logged, Reference.current]
    have first : (sys.tableCall keys values (fun _ => none) db call).1 =
        ((sys.abstract.current.keyMap values table).step table.keyOrder keys.serialize call).1 :=
      reply.trans answer
    obtain ⟨replies, final⟩ := induction kept found
    simp only [System.tableRun, KeyMap.run, replies, final, current, mapped, first, and_self]

theorem table_as_map_insert_select :
    let sys := (System.fresh.addTable (fun _ => none) "t" none true).2
    StackInv 0 sys ∧
      (sys.tableRun Codec.bytes Codec.bytes (fun _ => none) 2 [.insert [1] [2], .select [1]]).1 =
        (KeyMap.run ({ file := some "t.db" } : DbHandle).keyOrder Codec.bytes.serialize
          (sys.abstract.current.keyMap Codec.bytes { file := some "t.db" })
          [.insert [1] [2], .select [1]]).1 := by
  intro sys
  have ⟨txns, parents, fresh, finalized⟩ :=
    System.addTable_transparent (fun _ => none) "t" none true System.fresh
  have added : StackInv 0 sys := System.fresh_stackInv.congr txns parents fresh finalized
  exact ⟨added, (@table_as_map Bytes Bytes Codec.bytes Codec.bytes 2 0 { file := some "t.db" } "t.db"
    sys added rfl rfl rfl rfl (fun _ => rfl) _).1⟩

end Bdb
