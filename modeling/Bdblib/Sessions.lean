import Bdblib.Foreign

/-!
# Indexes across sessions

Each session opens the database on the home the last one closed, opens the table with
`add_table`, and attaches its indexes again with `add_index`. `DB->associate` with `DB_CREATE`
builds an index file only when it is empty, so a file an earlier session wrote is taken as it is.
The indexes mirror the table in every state a run of sessions reaches, and in every home it
leaves, when each session attaches, before its first write, every index created before, and a
unique index is first created over records whose projections differ. A failed `add_index` ends
the run: `index::index` has closed its handle twice.
-/

namespace Bdb

/-! ## Opening and closing a home -/

/-- The database object the constructor opens on the home `store`, every call answered. -/
def System.reopen (store : Store) : System Store :=
  ⟨⟨some 0, some 1, [0], [], []⟩, (Database.new (fun _ => none) (Engine.initial store)).2⟩

/-- The home `~database` leaves: the store its commit of the top-level transaction made durable. -/
def System.close (sys : System Store) : Store := (Database.destroy none sys).txn.durable

theorem System.reopen_stackInv (store : Store) : StackInv 0 (System.reopen store) :=
  @StackInv.new Store (fun _ => none) (Engine.initial store) _ _
    (TxnTable.accounted_empty store) (fun _ => rfl) rfl

theorem System.reopen_current (store : Store) : (System.reopen store).abstract.current = store := by
  have opened := @System.abstract_new Store (fun _ => none) (Engine.initial store)
    (Database.new (fun _ => none) (Engine.initial store)).2 ⟨some 0, some 1, [0], [], []⟩ rfl
  exact congrArg Reference.current opened

/-- With only the top-level transaction open, `~database` makes durable what it reads. -/
theorem StackInv.close_eq {root : Nat} {sys : System Store} (inv : StackInv root sys)
    (single : sys.database.txns.length = 1) : sys.close = sys.abstract.current := by
  rw [System.close, inv.destroy_refines]
  simp [Reference.close, Reference.current, System.abstract_marks_single single]

theorem ix_ne_db (index table : String) : index ++ ".ix" ≠ table ++ ".db" := fun same => by
  have last := congrArg (fun file : String => file.data.getLast?) same
  simp at last

theorem ix_inj {index other : String} (same : index ++ ".ix" = other ++ ".ix") : index = other :=
  String.ext (by simpa using congrArg String.data same)

theorem Store.records_congr (store : Store) {handle handle' : DbHandle}
    (same : handle.file = handle'.file) : store.records handle = store.records handle' := by
  simp [Store.records, same]

/-- Whether an index file may be attached reads the table's handle only through its comparator. -/
theorem Attachable.transfer {table table' index : DbHandle} {store store' : Store}
    (attachable : Attachable table index store) (same : table'.compare = table.compare)
    (primary : store'.records table' = store.records table)
    (secondary : store'.records index = store.records index) : Attachable table' index store' := by
  rw [Attachable, primary, secondary]
  exact ⟨attachable.1, fun full => (attachable.2 full).retable same⟩

theorem Mirrors.distinctProjections_of_nil {table index : DbHandle} {records : Records}
    (mirrors : Mirrors table index records []) (separates : Separates table.keyOrder)
    (keyed : Records.Keyed table.keyOrder records) : index.DistinctProjections records := by
  have skipped : ∀ record ∈ records, index.secondaryKey record.1 record.2 = none := by
    intro record member
    have holds := mirrors.holds record.1
    rw [(keyed.lookup_eq_some_iff separates).mpr member] at holds
    cases projection : index.secondaryKey record.1 record.2 with
    | none => rfl
    | some indexKey =>
      obtain ⟨_, held, -⟩ : ∃ entryKey, Records.holding record.1 [] = [(entryKey, record.1)] ∧ _ := by
        simpa [projection] using holds
      cases held
  exact List.pairwise_of_forall_mem_list fun one inOne _ _ indexKey projected =>
    absurd projected (by simp [skipped one inOne])

/-! ## Runs of sessions -/

/-- An index of the table, as each session gives it to `add_index`. -/
structure IndexDef where
  /-- Its name: its file is `name.ix`. -/
  name : String
  /-- Its projection, the `associate` callback. -/
  callback : IndexCallback
  /-- Its key comparator. -/
  compare : Option Comparator
  /-- Whether it keeps no duplicates. -/
  unique : Bool

/-- The handle `add_index` attaches for the index to a table with comparator `callback`. -/
def IndexDef.handle (index : IndexDef) (callback : Option Comparator) : DbHandle :=
  { indexHandle index.name index.compare callback index.unique with
    primary := some (2, index.callback) }

/-- The table `name` with comparator `callback`, as the store reads it. -/
def tableHandle (name : String) (callback : Option Comparator) : DbHandle :=
  { compare := callback, file := some (name ++ ".db") }

@[simp]
theorem IndexDef.handle_file (index : IndexDef) (callback : Option Comparator) :
    (index.handle callback).file = some (index.name ++ ".ix") := rfl

@[simp]
theorem tableHandle_file (name : String) (callback : Option Comparator) :
    (tableHandle name callback).file = some (name ++ ".db") := rfl

theorem IndexDef.handle_file_ne {index other : IndexDef} (different : index.name ≠ other.name)
    (callback : Option Comparator) :
    (index.handle callback).file ≠ some (other.name ++ ".ix") := by
  simpa using different ∘ ix_inj

section Run

variable (name : String) (callback : Option Comparator) (defs : List IndexDef)

/-- The states of a session on `home` after earlier sessions created `created`: `add_table`,
`add_index` of new names, then table calls once every created index is attached. -/
inductive InSession (created : List IndexDef) (home : Store) :
    Bool → List IndexDef → System Store → Prop
  | opened {faults : Faults} {create : Bool}
      (added : ((System.reopen home).addTable faults name callback create).1 = .ok ()) :
      InSession created home false [] ((System.reopen home).addTable faults name callback create).2
  | attach {attached : List IndexDef} {sys : System Store} {owner : Table} {index : IndexDef}
      (faults : Faults) (before : InSession created home false attached sys)
      (member : index ∈ defs) (fresh : index.name ∉ attached.map IndexDef.name)
      (distinct : index ∉ created → index.unique = true →
        (index.handle callback).DistinctProjections (home.records (tableHandle name callback)))
      (owned : sys.database.tables[0]? = some owner)
      (added : (sys.addIndex faults 0 owner index.name index.callback index.compare
        index.unique).1 = .ok ()) :
      InSession created home false (attached ++ [index])
        (sys.addIndex faults 0 owner index.name index.callback index.compare index.unique).2
  | call {writing : Bool} {attached : List IndexDef} {sys : System Store} {Key Data : Type}
      (keys : Codec Key) (values : Codec Data) (faults : Faults) (call : TableCall Key Data)
      {reply : Reply Data} (before : InSession created home writing attached sys)
      (every : ∀ index ∈ created, index ∈ attached)
      (ok : (sys.tableCall keys values faults 2 call).1 = .ok reply) :
      InSession created home true attached (sys.tableCall keys values faults 2 call).2

/-- The homes a run of sessions leaves: a keyed first home, then each session's close. -/
inductive Home : List IndexDef → Store → Prop
  | start {home : Store}
      (keyed : Records.Keyed (Comparator.orDefault callback) (home.records (tableHandle name callback)))
      (empty : ∀ index ∈ defs, home.records (index.handle callback) = []) : Home [] home
  | close {created attached : List IndexDef} {home : Store} {writing : Bool} {sys : System Store}
      (earlier : Home created home) (session : InSession name callback defs created home writing attached sys)
      (every : ∀ index ∈ created, index ∈ attached) : Home attached sys.close

/-- What a home keeps: the table keyed, each created index mirroring it, the rest empty. -/
structure HomeIndexed (created : List IndexDef) (home : Store) : Prop where
  keyed : Records.Keyed (Comparator.orDefault callback) (home.records (tableHandle name callback))
  mirrors : ∀ index ∈ created, Mirrors (tableHandle name callback) (index.handle callback)
    (home.records (tableHandle name callback)) (home.records (index.handle callback))
  empty : ∀ index ∈ defs, index ∉ created → home.records (index.handle callback) = []

/-- What a session's states keep: the table on handle `2` indexed by the attached indexes, one
transaction, and the other files as the home had them. -/
structure SessionFacts (home : Store) (writing : Bool) (attached : List IndexDef)
    (sys : System Store) : Prop where
  indexed : IndexedTable 0 0 2 sys
  table : ∃ table, sys.engine.handles.dbHandle 2 = some table ∧ table.compare = callback ∧
    table.file = some (name ++ ".db") ∧
    (∀ i ∈ table.secondaries, ∃ index ∈ attached,
      sys.engine.handles.dbHandle i = some (index.handle callback)) ∧
    ∀ index ∈ attached, ∃ i ∈ table.secondaries,
      sys.engine.handles.dbHandle i = some (index.handle callback)
  single : sys.database.txns.length = 1
  untouched : ∀ index ∈ defs, index.name ∉ attached.map IndexDef.name →
    sys.abstract.current.records (index.handle callback) = home.records (index.handle callback)
  unwritten : writing = false →
    sys.abstract.current.records (tableHandle name callback) = home.records (tableHandle name callback)
  named : (attached.map IndexDef.name).Nodup
  member : ∀ index ∈ attached, index ∈ defs

variable {name callback defs} {created : List IndexDef} {home : Store}
  (separates : Separates (Comparator.orDefault callback))
  (names : (defs.map IndexDef.name).Nodup)

include separates in
/-- Every index of the home may be attached: a created one mirrors the table, a new one is empty. -/
theorem HomeIndexed.attachable (indexed : HomeIndexed name callback defs created home)
    {index : IndexDef} (member : index ∈ defs)
    (distinct : index ∉ created → index.unique = true →
      (index.handle callback).DistinctProjections (home.records (tableHandle name callback))) :
    Attachable (tableHandle name callback) (index.handle callback) home := by
  by_cases made : index ∈ created
  · have mirrors := indexed.mirrors index made
    refine ⟨fun empty _ => ?_, fun _ => mirrors⟩
    rw [empty] at mirrors
    exact mirrors.distinctProjections_of_nil separates indexed.keyed
  · refine ⟨fun _ unique => distinct made ?_, fun full => absurd (indexed.empty index member made) full⟩
    simpa [IndexDef.handle, indexHandle] using unique

/-! ## What one step of a session keeps -/

/-- A table call that returns writes only the files of its table and of the table's secondaries. -/
theorem TableCall.perform_records_of_not_mem {Key Data : Type} (keys : Codec Key)
    (values : Codec Data) (faults : Faults) {handles : Handles} {db : Nat} {table : DbHandle}
    (found : handles.dbHandle db = some table) (noForeign : table.foreign = []) {other : DbHandle}
    (apart : other.file ∉ handles.filesOf table) {call : TableCall Key Data} {store : Store}
    {reply : Reply Data} (ok : (call.perform keys values faults handles db store).1 = .ok reply) :
    (call.perform keys values faults handles db store).2.records other = store.records other := by
  rcases TableCall.perform_cases keys values faults handles db ok with
    same | ⟨key, data, noOverwrite, put⟩ | ⟨fuel, key, deleted⟩
  · rw [same]
  · rw [← congrArg Prod.snd put]
    exact Access.put_records_of_not_mem found apart key data noOverwrite store
  · rw [← congrArg Prod.snd deleted]
    exact Access.del_records_of_not_mem found noForeign apart fuel key store

variable {writing : Bool} {attached : List IndexDef} {sys : System Store}

theorem SessionFacts.apart (facts : SessionFacts name callback defs home writing attached sys)
    {table : DbHandle} (found : sys.engine.handles.dbHandle 2 = some table) {index : IndexDef}
    (fresh : index.name ∉ attached.map IndexDef.name) :
    some (index.name ++ ".ix") ∉ sys.engine.handles.filesOf table := by
  obtain ⟨table', found', -, file, secondaries, -⟩ := facts.table
  obtain rfl : table = table' := Option.some_inj.mp (found.symm.trans found')
  simp only [Handles.filesOf, List.mem_cons, List.mem_map, file, Option.some_inj, not_or,
    not_exists, not_and]
  refine ⟨ix_ne_db _ _, fun i member same => fresh ?_⟩
  obtain ⟨other, mem, is⟩ := secondaries i member
  rw [Handles.fileOf_eq is, IndexDef.handle_file, Option.some_inj] at same
  exact List.mem_map.mpr ⟨other, mem, ix_inj same⟩

include separates in
theorem SessionFacts.opened (indexed : HomeIndexed name callback defs created home)
    {faults : Faults} {create : Bool}
    (added : ((System.reopen home).addTable faults name callback create).1 = .ok ()) :
    SessionFacts name callback defs home false []
      ((System.reopen home).addTable faults name callback create).2 := by
  have inv := System.reopen_stackInv home
  have current := System.reopen_current home
  obtain ⟨-, -, found, -, records⟩ := System.addTable_ok inv added
  refine ⟨IndexedTable.addTable inv added separates (by rw [current]; exact indexed.keyed),
    ⟨_, found, rfl, rfl, nofun, nofun⟩,
    by rw [(System.addTable_transparent faults name callback create _).1]; rfl,
    fun index _ _ => by rw [records, current], fun _ => by rw [records, current],
    List.nodup_nil, nofun⟩

include separates in
/-- An `add_index` that returns before the first write attaches one more mirroring index. -/
theorem SessionFacts.attach (facts : SessionFacts name callback defs home false attached sys)
    (indexed : HomeIndexed name callback defs created home) {faults : Faults} {owner : Table}
    {index : IndexDef} (member : index ∈ defs) (fresh : index.name ∉ attached.map IndexDef.name)
    (distinct : index ∉ created → index.unique = true →
      (index.handle callback).DistinctProjections (home.records (tableHandle name callback)))
    (owned : sys.database.tables[0]? = some owner)
    (added : (sys.addIndex faults 0 owner index.name index.callback index.compare
      index.unique).1 = .ok ()) :
    SessionFacts name callback defs home false (attached ++ [index])
      (sys.addIndex faults 0 owner index.name index.callback index.compare index.unique).2 := by
  obtain ⟨inv, owner', table', owned', tableFacts⟩ := facts.indexed
  obtain rfl : owner = owner' := Option.some_inj.mp (owned.symm.trans owned')
  obtain ⟨table, found, compare, file, secondaries, attachedAll⟩ := facts.table
  obtain rfl : table = table' := Option.some_inj.mp (found.symm.trans tableFacts.found)
  have handle : attachedHandle owner index.name index.callback index.compare index.unique 2 =
      index.handle callback := by
    rw [attachedHandle, IndexDef.handle, ← tableFacts.compare, compare]
  have attachable : Attachable table (index.handle callback) sys.abstract.current :=
    (indexed.attachable separates member distinct).transfer compare
      ((sys.abstract.current.records_congr (by rw [file]; rfl)).trans (facts.unwritten rfl))
      (facts.untouched index member fresh)
  obtain ⟨new, ok, -, txns, -⟩ := System.addIndex_ok inv owned added
  obtain ⟨tableFound, indexFound, others, -⟩ := Index.new_handles tableFacts.owned found
    tableFacts.below tableFacts.layout.apart inv ok
  have engine := System.addIndex_engine sys faults 0 owner index.name index.callback index.compare
    index.unique
  rw [handle] at indexFound
  rw [← engine] at tableFound indexFound others
  have current := System.addIndex_current sys faults 0 owner index.name index.callback
    index.compare index.unique
  refine ⟨IndexedTable.addIndex ⟨inv, owner, table, owned', tableFacts⟩ owned found
      (facts.apart found fresh) (handle ▸ attachable) added,
    ⟨{ table with secondaries := sys.engine.handles.fresh :: table.secondaries },
      tableFound, compare, file, fun i member => ?_, fun other member => ?_⟩,
    txns ▸ facts.single, fun other mem notNamed => ?_, fun _ => ?_, ?_,
    fun other mem => (List.mem_append.mp mem).elim (facts.member other)
      fun single => List.mem_singleton.mp single ▸ member⟩
  · rcases List.mem_cons.mp member with rfl | member
    · exact ⟨index, List.mem_append_right _ (List.mem_singleton_self _), indexFound⟩
    · obtain ⟨other, mem, is⟩ := secondaries i member
      exact ⟨other, List.mem_append_left _ mem, (others i member).trans is⟩
  · rcases List.mem_append.mp member with member | member
    · obtain ⟨i, mem, is⟩ := attachedAll other member
      exact ⟨i, List.mem_cons_of_mem _ mem, (others i mem).trans is⟩
    · rw [List.mem_singleton.mp member]
      exact ⟨_, List.mem_cons_self _ _, indexFound⟩
  · simp only [List.map_append, List.map_singleton, List.mem_append, List.mem_singleton,
      not_or] at notNamed
    rw [current, Index.new_records inv ok (IndexDef.handle_file_ne notNamed.2 callback)]
    exact facts.untouched other mem notNamed.1
  · rw [current, Index.new_records inv ok (by simpa using (ix_ne_db index.name name).symm)]
    exact facts.unwritten rfl
  · rw [List.map_append, List.map_singleton, List.nodup_append]
    exact ⟨facts.named, List.nodup_singleton _, List.disjoint_singleton.mpr fresh⟩

/-- A table call that returns keeps the table indexed and no other index file changes. -/
theorem SessionFacts.call (facts : SessionFacts name callback defs home writing attached sys)
    {Key Data : Type} (keys : Codec Key) (values : Codec Data) (faults : Faults)
    {call : TableCall Key Data} {reply : Reply Data}
    (ok : (sys.tableCall keys values faults 2 call).1 = .ok reply) :
    SessionFacts name callback defs home true attached (sys.tableCall keys values faults 2 call).2 := by
  obtain ⟨inv, owner, table', owned, tableFacts⟩ := facts.indexed
  obtain ⟨table, found, rest⟩ := facts.table
  obtain rfl : table = table' := Option.some_inj.mp (found.symm.trans tableFacts.found)
  refine ⟨facts.indexed.tableCall keys values faults ok, ⟨table, found, rest⟩, facts.single,
    fun other mem notNamed => ?_, nofun, facts.named, facts.member⟩
  rw [System.tableCall, inv.performTop_current, TableCall.perform_records_of_not_mem keys values
    faults found tableFacts.layout.noForeign (by simpa using facts.apart found notNamed)
    ((inv.operate_refines _).1.symm.trans ok)]
  exact facts.untouched other mem notNamed

include names in
/-- The home a session closes, once it has attached every created index, keeps the table indexed. -/
theorem SessionFacts.close (facts : SessionFacts name callback defs home writing attached sys)
    (indexed : HomeIndexed name callback defs created home)
    (every : ∀ index ∈ created, index ∈ attached) :
    HomeIndexed name callback defs attached sys.close := by
  obtain ⟨inv, owner, table', owned, tableFacts⟩ := facts.indexed
  obtain ⟨table, found, compare, file, -, attachedAll⟩ := facts.table
  obtain rfl : table = table' := Option.some_inj.mp (found.symm.trans tableFacts.found)
  have primary : sys.abstract.current.records table =
      sys.abstract.current.records (tableHandle name callback) :=
    sys.abstract.current.records_congr (by rw [file]; rfl)
  rw [inv.close_eq facts.single]
  refine ⟨primary ▸ compare ▸ tableFacts.indexed.keyed, fun index member => ?_,
    fun index member absent => ?_⟩
  · obtain ⟨i, mem, is⟩ := attachedAll index member
    exact primary ▸ (tableFacts.indexed.mirrors i mem _ is).retable compare.symm
  · have notNamed : index.name ∉ attached.map IndexDef.name := fun named => by
      obtain ⟨other, mem, same⟩ := List.mem_map.mp named
      exact absent (List.inj_on_of_nodup_map names (facts.member other mem) member same ▸ mem)
    rw [facts.untouched index member notNamed]
    exact indexed.empty index member (absent ∘ every index)

variable {created : List IndexDef}

include separates in
theorem InSession.facts (indexed : HomeIndexed name callback defs created home)
    (session : InSession name callback defs created home writing attached sys) :
    SessionFacts name callback defs home writing attached sys := by
  induction session with
  | opened added => exact SessionFacts.opened separates indexed added
  | attach _ _ member fresh distinct owned added facts =>
    exact facts.attach separates indexed member fresh distinct owned added
  | call keys values faults _ _ _ ok facts => exact facts.call keys values faults ok

include separates names in
theorem Home.indexed (reached : Home name callback defs created home) :
    HomeIndexed name callback defs created home := by
  induction reached with
  | start keyed empty =>
    exact ⟨keyed, fun _ member => absurd member (List.not_mem_nil _),
      fun index member _ => empty index member⟩
  | close _ session every indexed =>
    exact (session.facts separates indexed).close names indexed every

end Run

theorem orDefault_none_separates : Separates (Comparator.orDefault none) := defaultCompare_separates

/-- An index `i` on the data of the table `t`, with duplicates. -/
def dataIndex : IndexDef := ⟨"i", fun _ data => some data, none, false⟩

/-- The first session on an empty home: `t` is created, `i` added, and `[1] ↦ [7]` inserted. -/
def firstSession : System Store :=
  let sys := ((System.reopen Store.empty).addTable (fun _ => none) "t" none true).2
  let sys := (sys.addIndex (fun _ => none) 0 ⟨"t", some 2, none, []⟩ dataIndex.name
    dataIndex.callback dataIndex.compare dataIndex.unique).2
  (sys.tableCall Codec.bytes Codec.bytes (fun _ => none) 2 (.insert [1] [7])).2

/-- The second session on the home the first left: `i` attached again, `[2] ↦ [8]` inserted. -/
def secondSession : System Store :=
  let sys := ((System.reopen firstSession.close).addTable (fun _ => none) "t" none false).2
  let sys := (sys.addIndex (fun _ => none) 0 ⟨"t", some 2, none, []⟩ dataIndex.name
    dataIndex.callback dataIndex.compare dataIndex.unique).2
  (sys.tableCall Codec.bytes Codec.bytes (fun _ => none) 2 (.insert [2] [8])).2

theorem firstSession_reached :
    Home "t" none [dataIndex] [] Store.empty ∧
      InSession "t" none [dataIndex] [] Store.empty true [dataIndex] firstSession := by
  refine ⟨.start List.Pairwise.nil fun _ _ => rfl, ?_⟩
  dsimp only [firstSession]
  exact .call _ _ _ _ (.attach _ (.opened (by rfl)) (List.mem_singleton_self _) (by simp)
    (fun _ unique => nomatch unique) rfl rfl) nofun rfl

/-- A comparator of keys by their length alone. -/
def lengthOrder : Comparator := ⟨compareOn List.length, inferInstance⟩

/-- A table `t` ordered by key length, with an index `i` on the data. -/
def lengthOrdered : System Store :=
  let sys := (System.fresh.addTable (fun _ => none) "t" (some lengthOrder) true).2
  (sys.addIndex (fun _ => none) 0 ⟨"t", some 2, some lengthOrder, []⟩ "i"
    (fun _ data => some data) none false).2

/-- A table `t` with an index `i` on the data, ordered by length. -/
def lengthIndexed : System Store :=
  let sys := (System.fresh.addTable (fun _ => none) "t" none true).2
  (sys.addIndex (fun _ => none) 0 ⟨"t", some 2, none, []⟩ "i" (fun _ data => some data)
    (some lengthOrder) true).2

/-- The home a session leaves that writes `[1] ↦ [7]` and `[2] ↦ [7]` to a new table `t`. -/
def equalProjections : Store :=
  let sys := (System.fresh.addTable (fun _ => none) "t" none true).2
  (sys.tableRun Codec.bytes Codec.bytes (fun _ => none) 2 [.insert [1] [7], .insert [2] [7]]).2.close

end Bdb
