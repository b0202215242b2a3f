import Bdblib.IndexedCalls
import Bdblib.Enumeration

/-!
# Reading a table and its indexes

A B-tree keeps its records in the order of its comparator: `DB->put` overwrites in place or
inserts where the key belongs, and `DB->del` removes. So in every state a session reaches, the
records of a table opened over a file in that order stay in it, which is the order in which
`recordset(table)` hands them out.

`index::exists` is `table::exists` on the index's own `DB` handle, and a recordset over an index
walks the index file with `DBC->pget`, which reads the primary record of each entry through the
index's link to its table. While the index mirrors the table, both are read off the table's
records: `index::exists` answers whether a record of the table projects to the key asked, the
primary record of every entry is there, and the entries a recordset over the index hands out are,
up to order, the records of the table that the index projects.
-/

namespace Bdb

theorem StackInv.view_top {root : Nat} {sys : System Store} (inv : StackInv root sys) :
    sys.engine.txn.view sys.database.txns.head? = sys.abstract.current := by
  obtain ⟨top, rest, stack⟩ := List.exists_cons_of_ne_nil inv.chain.ne_nil
  simpa [System.performTop, stack, TxnTable.perform] using
    (inv.operate_refines fun store : Store => (store, store)).1

/-- The data a cursor of an index reads for a primary key is that key's data in the primary. -/
theorem System.primaryData_toOption {sys : System Store} {db i : Nat} {table index : DbHandle}
    (found : sys.engine.handles.dbHandle db = some table)
    (indexFound : sys.engine.handles.dbHandle i = some index) {callback : IndexCallback}
    (link : index.primary = some (db, callback)) (txn : Option Nat) (key : Bytes) :
    (sys.primaryData i txn key).toOption =
      Records.lookup table.keyOrder key ((sys.engine.txn.view txn).records table) := by
  simp only [System.primaryData, indexFound, link, Access.get_of_dbHandle found]
  cases Records.lookup table.keyOrder key ((sys.engine.txn.view txn).records table) <;> rfl

/-! ## The order of a table -/

namespace Records

variable (order : Bytes → Bytes → Ordering)

/-- The records are in ascending key order under `order`, as a B-tree holds them. -/
def Ordered (records : Records) : Prop :=
  records.Pairwise fun one other => (order one.1 other.1).isLE

variable {order}

theorem Ordered.erase (key : Bytes) {records : Records} (ordered : Ordered order records) :
    Ordered order (erase order key records) :=
  ordered.sublist (List.filter_sublist _)

theorem Ordered.pairOrder {records : Records} (ordered : Ordered order records)
    (keyed : Keyed order records) (dupOrder : Bytes → Bytes → Ordering) :
    records.Pairwise fun one other => (pairOrder order dupOrder one other).isLE :=
  (ordered.and keyed).imp fun ⟨sorted, different⟩ => by
    simp only [Records.pairOrder]
    cases ordering : order _ _ <;> simp_all [Ordering.then]

variable [Batteries.TransCmp order]

theorem Ordered.insertBy {records : Records} (ordered : Ordered order records)
    (record : Bytes × Bytes) :
    Ordered order (insertBy (fun one other => order one.1 other.1) record records) := by
  induction records with
  | nil => exact List.pairwise_singleton _ _
  | cons head rest induction =>
    obtain ⟨below, ordered⟩ := List.pairwise_cons.mp ordered
    simp only [Records.insertBy]
    split_ifs with before
    · refine List.pairwise_cons.mpr ⟨fun other member => ?_, List.pairwise_cons.mpr ⟨below, ordered⟩⟩
      rcases List.mem_cons.mp member with rfl | later
      · rw [before]
        rfl
      · rw [Batteries.TransCmp.lt_le_trans before ((Ordering.isLE_iff_ne_gt _).mp (below other later))]
        rfl
    · refine List.pairwise_cons.mpr ⟨fun other member => ?_, induction ordered⟩
      rcases (mem_insertBy _ _ _ _).mp member with rfl | later
      · exact (Ordering.isLE_iff_ne_gt _).mpr fun after =>
          before (Batteries.OrientedCmp.cmp_eq_gt.mp after)
      · exact below other later

/-- `DB->put` without duplicates keeps the records in key order. -/
theorem Ordered.put (key data : Bytes) {records : Records} (ordered : Ordered order records) :
    Ordered order (put order key data records) := by
  unfold Records.put
  split
  · exact List.pairwise_map.mpr (ordered.imp fun {one other} sorted => by split_ifs <;> exact sorted)
  · exact ordered.insertBy _

end Records

/-- What keeps a table's records in key order: a file `name.db` of its own, no foreign key,
secondaries on other files, records in order with no two keys equal. -/
structure TableShape (db : Nat) (sys : System Store) (owner : Table) (table : DbHandle) : Prop where
  owned : owner.db = some db
  found : sys.engine.handles.dbHandle db = some table
  named : ∃ name, table.file = some (name ++ ".db")
  noForeign : table.foreign = []
  below : db < sys.engine.handles.fresh ∧ ∀ i ∈ table.secondaries, i < sys.engine.handles.fresh
  apart : ∀ i ∈ table.secondaries, sys.engine.handles.fileOf i ≠ table.file
  ordered : Records.Ordered table.keyOrder (sys.abstract.current.records table)
  keyed : Records.Keyed table.keyOrder (sys.abstract.current.records table)

/-- The table at `position` of `m_tables`, open on `db`, keeps its records in key order. -/
def OrderedTable (root position db : Nat) (sys : System Store) : Prop :=
  StackInv root sys ∧ ∃ owner table, sys.database.tables[position]? = some owner ∧
    TableShape db sys owner table

/-- A step on the table at `position`, open on `db`: an `add_index` or a call that returns. -/
inductive TableStep (position db : Nat) : System Store → System Store → Prop
  | addIndex {sys : System Store} {owner : Table} (faults : Faults) (name : String)
      (callback : IndexCallback) (compare : Option Comparator) (unique : Bool)
      (owned : sys.database.tables[position]? = some owner)
      (added : (sys.addIndex faults position owner name callback compare unique).1 = .ok ()) :
      TableStep position db sys (sys.addIndex faults position owner name callback compare unique).2
  | tableCall {sys : System Store} {Key Data : Type} (keys : Codec Key) (values : Codec Data)
      (faults : Faults) (call : TableCall Key Data) {reply : Reply Data}
      (ok : (sys.tableCall keys values faults db call).1 = .ok reply) :
      TableStep position db sys (sys.tableCall keys values faults db call).2

theorem TableCall.perform_ordered {Key Data : Type} (keys : Codec Key) (values : Codec Data)
    (faults : Faults) {handles : Handles} {db : Nat} {table : DbHandle}
    (found : handles.dbHandle db = some table) {file : String} (opened : table.file = some file)
    (own : ∀ i ∈ table.secondaries, handles.fileOf i ≠ table.file) (noForeign : table.foreign = [])
    {store : Store} (ordered : Records.Ordered table.keyOrder (store.records table))
    (keyed : Records.Keyed table.keyOrder (store.records table)) {call : TableCall Key Data}
    {reply : Reply Data} (ok : (call.perform keys values faults handles db store).1 = .ok reply) :
    Records.Ordered table.keyOrder ((call.perform keys values faults handles db store).2.records table) ∧
      Records.Keyed table.keyOrder ((call.perform keys values faults handles db store).2.records table) := by
  rcases TableCall.perform_cases keys values faults handles db ok with
    same | ⟨key, data, noOverwrite, put⟩ | ⟨fuel, key, deleted⟩
  · rw [same]
    exact ⟨ordered, keyed⟩
  · rw [← congrArg Prod.snd put, Access.put_records_own found opened own (congrArg Prod.fst put)]
    exact ⟨ordered.put _ _, keyed.put _ _⟩
  · rw [← congrArg Prod.snd deleted, Access.del_records_own found opened own noForeign
      (congrArg Prod.fst deleted)]
    exact ⟨ordered.erase _, keyed.erase _⟩

section Ordered

variable {root position db : Nat} {sys sys' : System Store}

/-- The table `add_table` opens over an ordered, keyed file keeps its records in key order. -/
theorem OrderedTable.addTable (inv : StackInv root sys) {faults : Faults} {name : String}
    {callback : Option Comparator} {create : Bool}
    (added : (sys.addTable faults name callback create).1 = .ok ())
    (ordered : Records.Ordered (Comparator.orDefault callback)
      ((sys.abstract.current.files (name ++ ".db")).getD []))
    (keyed : Records.Keyed (Comparator.orDefault callback)
      ((sys.abstract.current.files (name ++ ".db")).getD [])) :
    OrderedTable root sys.database.tables.length sys.engine.handles.fresh
      (sys.addTable faults name callback create).2 := by
  obtain ⟨kept, owned, found, fresh, records⟩ := System.addTable_ok inv added
  refine ⟨kept, _, _, owned, ⟨rfl, found, ⟨name, rfl⟩, rfl, by simp [fresh], nofun, ?_, ?_⟩⟩ <;>
    rw [records]
  exacts [ordered, keyed]

/-- Each step keeps the table's records in key order. -/
theorem OrderedTable.step (session : OrderedTable root position db sys)
    (step : TableStep position db sys sys') : OrderedTable root position db sys' := by
  obtain ⟨inv, owner, table, owned, shape⟩ := session
  obtain ⟨tableName, opened⟩ := shape.named
  cases step with
  | tableCall keys values faults call ok =>
    have current : (sys.tableCall keys values faults db call).2.abstract.current =
        (call.perform keys values faults sys.engine.handles db sys.abstract.current).2 :=
      inv.performTop_current _
    have ⟨ordered, keyed⟩ := TableCall.perform_ordered keys values faults shape.found opened
      shape.apart shape.noForeign shape.ordered shape.keyed ((inv.operate_refines _).1.symm.trans ok)
    rw [← current] at ordered keyed
    exact ⟨inv.tableCall keys values faults db call, owner, table, owned,
      { shape with ordered, keyed }⟩
  | addIndex faults name callback compare unique owned' added =>
    obtain rfl : owner = _ := Option.some_inj.mp (owned.symm.trans owned')
    obtain ⟨index, ok, kept, -, tables⟩ := System.addIndex_ok inv owned added
    obtain ⟨tableFound, indexFound, others, fresh⟩ := Index.new_handles shape.owned shape.found
      shape.below shape.apart inv ok
    rw [← System.addIndex_engine sys faults position owner name callback compare unique]
      at tableFound indexFound others fresh
    have records : (sys.addIndex faults position owner name callback compare
        unique).2.abstract.current.records table = sys.abstract.current.records table := by
      rw [System.addIndex_current, Index.new_records inv ok (by
        simpa [opened] using (ix_ne_db name tableName).symm)]
    refine ⟨kept, _, { table with secondaries := sys.engine.handles.fresh :: table.secondaries },
      tables, shape.owned, tableFound, ⟨tableName, opened⟩, shape.noForeign,
      fresh ▸ below_cons shape.below, fun i member => ?_, records ▸ shape.ordered,
      records ▸ shape.keyed⟩
    rcases List.mem_cons.mp member with rfl | member
    · rw [Handles.fileOf_eq indexFound, opened]
      simpa [attachedHandle, indexHandle] using ix_ne_db name tableName
    · rw [Handles.fileOf, others i member]
      exact shape.apart i member

theorem OrderedTable.run (session : OrderedTable root position db sys)
    (run : Relation.ReflTransGen (TableStep position db) sys sys') :
    OrderedTable root position db sys' := by
  induction run with
  | refl => exact session
  | tail _ step kept => exact kept.step step

end Ordered

/-- In every state of a session on a table opened over an ordered, keyed file, its records are in
the order `recordset(table)` hands them out. -/
theorem table_records_ordered {root : Nat} {sys : System Store} (inv : StackInv root sys)
    {faults : Faults} {name : String} {callback : Option Comparator} {create : Bool}
    (added : (sys.addTable faults name callback create).1 = .ok ())
    (ordered : Records.Ordered (Comparator.orDefault callback)
      ((sys.abstract.current.files (name ++ ".db")).getD []))
    (keyed : Records.Keyed (Comparator.orDefault callback)
      ((sys.abstract.current.files (name ++ ".db")).getD []))
    {sys' : System Store}
    (run : Relation.ReflTransGen (TableStep sys.database.tables.length sys.engine.handles.fresh)
      (sys.addTable faults name callback create).2 sys') :
    ∃ table, sys'.engine.handles.dbHandle sys.engine.handles.fresh = some table ∧
      ((sys'.engine.txn.view sys'.database.txns.head?).records table).Pairwise fun one other =>
        (Records.pairOrder table.keyOrder table.dupOrder one other).isLE := by
  have ⟨inv', owner, table, _, shape⟩ := (OrderedTable.addTable inv added ordered keyed).run run
  refine ⟨table, shape.found, ?_⟩
  rw [inv'.view_top]
  exact shape.ordered.pairOrder shape.keyed _

theorem table_records_ordered_inserts :
    let sys := (System.fresh.addTable (fun _ => none) "t" none true).2
    let sys := (sys.tableCall Codec.bytes Codec.bytes (fun _ => none) 2 (.insert [2] [20])).2
    let sys := (sys.addIndex (fun _ => none) 0 ⟨"t", some 2, none, []⟩ "i"
      (fun _ data => some data) none false).2
    let sys := (sys.tableCall Codec.bytes Codec.bytes (fun _ => none) 2 (.insert [1] [10])).2
    ∃ table, sys.engine.handles.dbHandle 2 = some table ∧
      ((sys.engine.txn.view sys.database.txns.head?).records table).Pairwise fun one other =>
        (Records.pairOrder table.keyOrder table.dupOrder one other).isLE :=
  @table_records_ordered 0 System.fresh System.fresh_stackInv (fun _ => none) "t" none true rfl
    List.Pairwise.nil List.Pairwise.nil _
    (.tail (.tail (.tail .refl (.tableCall Codec.bytes Codec.bytes (fun _ => none) (.insert [2] [20])
        rfl)) (.addIndex (fun _ => none) "i" (fun _ data => some data) none false rfl rfl))
      (.tableCall Codec.bytes Codec.bytes (fun _ => none) (.insert [1] [10]) rfl))

/-! ## Reading through an index -/

/-- The records a recordset over `index` hands out: those it projects, to `key` if given. -/
def DbHandle.projected (index : DbHandle) (key : Option Bytes) (records : Records) : Records :=
  records.filter fun record => (index.secondaryKey record.1 record.2).any fun indexKey =>
    key.all fun key => index.keyOrder key indexKey = .eq

section Enumerated

variable {table index : DbHandle} {store : Store}
  (mirrors : Mirrors table index (store.records table) (store.records index))
  (separates : Separates table.keyOrder) (keyed : Records.Keyed table.keyOrder (store.records table))
include mirrors separates keyed

/-- The entries whose key passes `test`, with their primary data, are the records so projected. -/
theorem Mirrors.withData_perm (test : Bytes → Bool)
    (respects : ∀ one other, index.keyOrder one other = .eq → test one = test other) :
    (((store.records index).filter fun entry => test entry.1).filterMap fun entry =>
        (Records.lookup table.keyOrder entry.2 (store.records table)).map (entry.2, ·)).Perm
      ((store.records table).filter fun record =>
        (index.secondaryKey record.1 record.2).any test) := by
  have nodup : (((store.records index).filter fun entry => test entry.1).filterMap fun entry =>
      (Records.lookup table.keyOrder entry.2 (store.records table)).map (entry.2, ·)).Nodup := by
    have keys : (((store.records index).filter fun entry => test entry.1).filterMap fun entry =>
        (Records.lookup table.keyOrder entry.2 (store.records table)).map (entry.2, ·)) =
        (((store.records index).filter fun entry => test entry.1).map Prod.snd).filterMap
          fun key => (Records.lookup table.keyOrder key (store.records table)).map (key, ·) := by
      rw [List.filterMap_map]
      rfl
    rw [keys]
    refine List.Nodup.filterMap (fun one other record inOne inOther => ?_)
      (mirrors.keys_nodup.sublist ((List.filter_sublist _).map _))
    simp only [Option.mem_def, Option.map_eq_some'] at inOne inOther
    obtain ⟨_, -, rfl⟩ := inOne
    obtain ⟨_, -, same⟩ := inOther
    exact (congrArg Prod.fst same).symm
  have distinct : (store.records table).Nodup := keyed.imp fun different same =>
    different (by rw [same]; exact Batteries.OrientedCmp.cmp_refl)
  refine (List.perm_ext_iff_of_nodup nodup (distinct.filter _)).mpr fun ⟨key, data⟩ => ?_
  simp only [List.mem_filterMap, List.mem_filter, Option.map_eq_some', Prod.mk.injEq,
    Option.any_eq_true_iff]
  constructor
  · rintro ⟨⟨indexKey', owner⟩, ⟨entered, tested⟩, data', looked, rfl, rfl⟩
    obtain ⟨stored, indexKey, inRecords, projected, equal⟩ := mirrors.mem_entry separates entered
    have same := ((keyed.lookup_eq_some_iff separates).mpr inRecords).symm.trans looked
    rw [Option.some_inj] at same
    subst same
    exact ⟨inRecords, indexKey, projected, (respects _ _ equal).trans tested⟩
  · rintro ⟨inRecords, indexKey, projected, tested⟩
    have looked := (keyed.lookup_eq_some_iff separates).mpr inRecords
    obtain ⟨entryKey, entered, equal⟩ := mirrors.entry_of_projects looked projected
    exact ⟨(entryKey, key), ⟨entered, (respects _ _ equal).symm.trans tested⟩, data, looked, rfl, rfl⟩

/-- Over a mirroring index, `recordset(index)` hands out every record it projects, up to order. -/
theorem Mirrors.expected_duplicates_perm (key : Option Bytes) :
    (Recordset.expected index
        (fun primaryKey => Records.lookup table.keyOrder primaryKey (store.records table))
        .duplicates key (store.records index)).Perm
      (index.projected none (store.records table)) := by
  simp only [Recordset.expected, DbHandle.projected, Option.all_none]
  refine ((List.mergeSort_perm _ _).filterMap _).trans ?_
  simpa using mirrors.withData_perm separates keyed (fun _ => true) fun _ _ _ => rfl

/-- Over a mirroring index, `recordset(index, key)` hands out the records it projects to `key`. -/
theorem Mirrors.expected_unique_perm (key : Bytes) :
    (Recordset.expected index
        (fun primaryKey => Records.lookup table.keyOrder primaryKey (store.records table))
        .unique (some key) (store.records index)).Perm
      (index.projected (some key) (store.records table)) := by
  simp only [Recordset.expected, DbHandle.projected, Option.all_some, Option.getD_some]
  refine (((List.mergeSort_perm _ _).filter _).filterMap _).trans ?_
  exact mirrors.withData_perm separates keyed (fun indexKey => index.keyOrder key indexKey = .eq)
    fun _ _ equal => by dsimp only; rw [Batteries.TransCmp.cmp_congr_right equal]

end Enumerated

section Sessions

variable {root position db : Nat} {sys : System Store}

/-- `index::exists` on an indexed table answers whether a record projects to the key asked. -/
theorem IndexedTable.indexExists (session : IndexedTable root position db sys) {owner : Table}
    (owned : sys.database.tables[position]? = some owner) {index : Index}
    (member : index ∈ owner.indexes) {Key Data : Type} (keys : Codec Key) (values : Codec Data)
    (key : Key) :
    ∃ i secondary table, index.db = some i ∧ sys.engine.handles.dbHandle i = some secondary ∧
      sys.engine.handles.dbHandle db = some table ∧
      (sys.tableCall keys values (fun _ => none) i (.exists key)).1 =
        .ok (.answer ((sys.abstract.current.records table).any
          (secondary.projects (keys.serialize key)))) := by
  obtain ⟨inv, owner', table, owned', facts⟩ := session
  obtain rfl : owner = owner' := Option.some_inj.mp (owned.symm.trans owned')
  obtain ⟨i, attached, is⟩ := facts.attached index member
  obtain ⟨secondary, found, -, -⟩ := facts.layout.secondary i attached
  have answer : (Records.lookup secondary.keyOrder (keys.serialize key)
      (sys.abstract.current.records secondary)).isSome =
      (sys.abstract.current.records table).any (secondary.projects (keys.serialize key)) := by
    rw [← Records.find_isSome_eq_lookup, Bool.eq_iff_iff, Records.find_isSome_iff]
    simpa using ((facts.indexed.mirrors i attached secondary found).any_projects_iff
      facts.layout.separates facts.indexed.keyed fun _ => true).symm
  refine ⟨i, secondary, table, is, found, facts.found, ?_⟩
  rw [System.tableCall, (inv.operate_refines _).1, ← answer]
  simp only [TableCall.perform, Access.exists, Access.get_of_dbHandle found]
  cases Records.lookup secondary.keyOrder (keys.serialize key)
    (sys.abstract.current.records secondary) <;> rfl

/-- On an indexed table, each entry's primary record is there and the recordsets over an index hand
out the records it projects. -/
theorem IndexedTable.indexRecordsets (session : IndexedTable root position db sys)
    (linked : EveryIndex (fun index => ∃ callback, index.primary = some (db, callback)) db
      sys.engine.handles)
    {owner : Table} (owned : sys.database.tables[position]? = some owner) {index : Index}
    (member : index ∈ owner.indexes) :
    ∃ i secondary table, index.db = some i ∧ sys.engine.handles.dbHandle i = some secondary ∧
      sys.engine.handles.dbHandle db = some table ∧
      (∀ entry ∈ (sys.engine.txn.view sys.database.txns.head?).records secondary,
        (sys.primaryData i sys.database.txns.head? entry.2).toOption.isSome) ∧
      (Recordset.expected secondary
          (fun key => (sys.primaryData i sys.database.txns.head? key).toOption) .duplicates none
          ((sys.engine.txn.view sys.database.txns.head?).records secondary)).Perm
        (secondary.projected none (sys.abstract.current.records table)) ∧
      ∀ key, (Recordset.expected secondary
          (fun key => (sys.primaryData i sys.database.txns.head? key).toOption) .unique (some key)
          ((sys.engine.txn.view sys.database.txns.head?).records secondary)).Perm
        (secondary.projected (some key) (sys.abstract.current.records table)) := by
  obtain ⟨inv, owner', table, owned', facts⟩ := session
  obtain rfl : owner = owner' := Option.some_inj.mp (owned.symm.trans owned')
  obtain ⟨i, attached, is⟩ := facts.attached index member
  obtain ⟨secondary, found, -, -⟩ := facts.layout.secondary i attached
  obtain ⟨callback, link⟩ := linked table facts.found i attached secondary found
  have mirrors := facts.indexed.mirrors i attached secondary found
  have data : (fun key => (sys.primaryData i sys.database.txns.head? key).toOption) =
      fun key => Records.lookup table.keyOrder key (sys.abstract.current.records table) :=
    funext fun key => by rw [System.primaryData_toOption facts.found found link, inv.view_top]
  refine ⟨i, secondary, table, is, found, facts.found, fun entry entered => ?_, ?_, fun key => ?_⟩
  · rw [inv.view_top] at entered
    obtain ⟨stored, -, inRecords, -⟩ := mirrors.mem_entry facts.layout.separates entered
    rw [System.primaryData_toOption facts.found found link, inv.view_top,
      (facts.indexed.keyed.lookup_eq_some_iff facts.layout.separates).mpr inRecords]
    rfl
  · rw [data, inv.view_top]
    exact mirrors.expected_duplicates_perm facts.layout.separates facts.indexed.keyed none
  · rw [data, inv.view_top]
    exact mirrors.expected_unique_perm facts.layout.separates facts.indexed.keyed key

end Sessions

section Runs

variable {name : String} {callback : Option Comparator} {defs created : List IndexDef}
  {home : Store} {writing : Bool} {attached : List IndexDef} {sys : System Store}
  (separates : Separates (Comparator.orDefault callback))
  (names : (defs.map IndexDef.name).Nodup)
include separates names

end Runs

/-- The first session with the index `i`, once it has also inserted `[2] ↦ [7]`. -/
def duplicateSession : System Store :=
  (firstSession.tableCall Codec.bytes Codec.bytes (fun _ => none) 2 (.insert [2] [7])).2

end Bdb
