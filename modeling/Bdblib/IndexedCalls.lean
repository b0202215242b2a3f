import Bdblib.Enforcement
import Bdblib.Failure
import Bdblib.Sessions

/-!
# Calls on a table with indexes

`table::insert` and `table::update` reach the indexes through `DB->put`, which inserts the entry
of the new record into each secondary before it writes the primary. A secondary without
duplicates refuses, with `EINVAL`, an entry whose key another primary key holds: `insert` reports
it as `EXISTS` and `update` as `UNKNOWN`.

While every secondary mirrors the table, whether one refuses depends on the table's records
alone: the projection of the new record equals the projection of another record. Every call on
the table, in every state a session reaches, then does to the table's records what a reference
step over those records does, the index files left out. With at most one index, a call that
raises has written nothing, so whole runs of calls, failing ones included, follow the reference
run.
-/

namespace Bdb

theorem Option.any_eq_true_iff {α : Type} {p : α → Bool} {o : Option α} :
    o.any p = true ↔ ∃ a ∈ o, p a = true := by
  cases o <;> simp

/-- Whether the secondary `index` projects `record` to a key equal to `indexKey`. -/
def DbHandle.projects (index : DbHandle) (indexKey : Bytes) (record : Bytes × Bytes) : Bool :=
  (index.secondaryKey record.1 record.2).any fun other => index.keyOrder indexKey other = .eq

/-- Whether a unique `index` refuses `(key, data)`: another key's record projects alike. -/
def DbHandle.refuses (index : DbHandle) (records : Records) (key data : Bytes) : Bool :=
  !index.dupSort && (index.secondaryKey key data).any fun indexKey =>
    records.any fun record => decide (record.1 ≠ key) && index.projects indexKey record

section Collision

variable {table index : DbHandle} {store : Store} (separates : Separates table.keyOrder)
  (keyed : Records.Keyed table.keyOrder (store.records table))
  (mirrors : Mirrors table index (store.records table) (store.records index))
include separates keyed mirrors

/-- Over a mirroring secondary, a record projects to `indexKey` exactly when an equal entry is. -/
theorem Mirrors.any_projects_iff (held : Bytes → Bool) {indexKey : Bytes} :
    ((store.records table).any fun record => held record.1 && index.projects indexKey record) ↔
      ∃ entry ∈ store.records index, index.keyOrder indexKey entry.1 = .eq ∧ held entry.2 := by
  simp only [List.any_eq_true, Bool.and_eq_true, DbHandle.projects, decide_eq_true_eq,
    Option.any_eq_true_iff]
  constructor
  · rintro ⟨record, member, kept, projection, projected, equal⟩
    obtain ⟨entryKey, entered, entryEqual⟩ := mirrors.entry_of_projects
      ((Records.Keyed.lookup_eq_some_iff separates keyed).mpr member) projected
    exact ⟨_, entered, (Batteries.TransCmp.cmp_congr_right entryEqual).symm.trans equal, kept⟩
  · rintro ⟨⟨entryKey, owner⟩, entered, equal, kept⟩
    obtain ⟨data, looked, projection, projected, projectionEqual⟩ := mirrors.projects_of_entry entered
    exact ⟨(owner, data), (Records.Keyed.lookup_eq_some_iff separates keyed).mp looked, kept,
      projection, projected, (Batteries.TransCmp.cmp_congr_right
        (Batteries.OrientedCmp.cmp_eq_eq_symm.mp projectionEqual)).symm.trans equal⟩

end Collision

namespace Access

variable {handles : Handles} {table : DbHandle}

/-- An insert into a mirroring secondary without foreign key fails exactly when it refuses. -/
theorem insertSecondary_fst (separates : Separates table.keyOrder) {i : Nat} {index : DbHandle}
    (indexFound : handles.dbHandle i = some index) (noMaster : index.master = none) {store : Store}
    (keyed : Records.Keyed table.keyOrder (store.records table))
    (mirrors : Mirrors table index (store.records table) (store.records index)) (key data : Bytes) :
    (insertSecondary handles key data i store).1 =
      if index.refuses (store.records table) key data then some .einval else none := by
  simp only [insertSecondary, indexFound, noMaster, Option.none_bind, DbHandle.refuses, Bool.not_true,
    Bool.false_eq_true, if_false]
  split
  · next projected => simp [projected]
  · next indexKey projected =>
    by_cases duplicates : index.dupSort = true
    · simp only [duplicates, if_true, Bool.not_true, Bool.false_and, Bool.false_eq_true, if_false]
      split <;> rfl
    · simp only [duplicates, Bool.false_eq_true, if_false, Bool.not_false, Bool.true_and, projected,
        Option.any_some, mirrors.any_projects_iff separates keyed fun owner => decide (owner ≠ key),
        decide_eq_true_eq]
      split
      · next entryKey owner found =>
        have equal := Records.find_eq_some _ found
        have entered := List.mem_of_find?_eq_some found
        by_cases mine : owner = key
        · subst mine
          rw [if_pos rfl, if_neg]
          rintro ⟨entry, member, same, other⟩
          refine List.Pairwise.forall (fun _ _ => Records.ne_eq_symm)
            (mirrors.unique (by simpa using duplicates)) entered member (fun same => other (by rw [← same]))
            ((Batteries.TransCmp.cmp_congr_left (Batteries.OrientedCmp.cmp_eq_eq_symm.mp equal)).trans same)
        · rw [if_neg mine, if_pos ⟨_, entered, equal, mine⟩]
      · next found =>
        rw [if_neg]
        rintro ⟨entry, member, same, -⟩
        simpa [found] using (Records.find_isSome_iff index.keyOrder).mpr ⟨entry, member, same⟩

/-- A `DB->put` that fails leaves the primary's file as it was, whichever secondary it fails at. -/
theorem put_records_failed {db : Nat} (found : handles.dbHandle db = some table)
    (own : ∀ secondary ∈ table.secondaries, handles.fileOf secondary ≠ table.file)
    {key data : Bytes} {noOverwrite : Bool} {store : Store} {code : DbError}
    (failed : (put handles db key data noOverwrite store).1 = some code) :
    (put handles db key data noOverwrite store).2.records table = store.records table := by
  simp only [put, found] at failed ⊢
  split_ifs at failed ⊢
  · rfl
  · cases inserted : insertSecondaries handles key data table.secondaries store with
    | mk code' stored =>
      cases code' with
      | none => simp [inserted] at failed
      | some code' => rw [← insertSecondaries_records_of_not_mem handles own store, inserted]

section Loop

variable {store : Store} (layout : Layout handles table) (indexed : Indexed handles table store)
  (noMaster : ∀ i ∈ table.secondaries, ∀ index, handles.dbHandle i = some index → index.master = none)
  (key data : Bytes)
include layout indexed noMaster

/-- The loop over secondaries of distinct files fails exactly when one refuses the record. -/
theorem insertSecondaries_fst_of :
    ∀ {rest : List Nat} {store' : Store}, (∀ i ∈ rest, i ∈ table.secondaries) →
      (rest.map handles.fileOf).Nodup → store'.records table = store.records table →
      (∀ i ∈ rest, ∀ index, handles.dbHandle i = some index →
        store'.records index = store.records index) →
      (insertSecondaries handles key data rest store').1 =
        if (rest.filterMap handles.dbHandle).any (·.refuses (store.records table) key data) then
          some .einval
        else none
  | [], _, _, _, _, _ => rfl
  | i :: more, store', members, distinct, tableKept, kept => by
    have member := members i (List.mem_cons_self _ _)
    obtain ⟨index, found, -, -⟩ := layout.secondary i member
    have mirrors : Mirrors table index (store'.records table) (store'.records index) := by
      rw [tableKept, kept i (List.mem_cons_self _ _) index found]
      exact indexed.mirrors i member index found
    have step := insertSecondary_fst layout.separates found (noMaster i member index found)
      (tableKept ▸ indexed.keyed) mirrors key data
    rw [tableKept] at step
    rw [List.map_cons, List.nodup_cons] at distinct
    rcases insertSecondaries_cons handles key data i more store' with
      ⟨code, failed, looped⟩ | ⟨inserted, looped⟩
    · rw [step] at failed
      split_ifs at failed with refused
      rw [looped, step, if_pos refused, if_pos (by simp [found, refused])]
    · rw [step] at inserted
      split_ifs at inserted with refused
      rw [looped, insertSecondaries_fst_of (fun j later => members j (List.mem_cons_of_mem _ later))
        distinct.2 ?_ ?_]
      · simp [found, refused]
      · rw [insertSecondary_records_of_ne handles (layout.apart i member)]
        exact tableKept
      · intro j later index' found'
        rw [insertSecondary_records_of_ne handles fun same => distinct.1
          (by rw [same, ← Handles.fileOf_eq found']; exact List.mem_map_of_mem _ later)]
        exact kept j (List.mem_cons_of_mem _ later) index' found'

theorem insertSecondaries_fst :
    (insertSecondaries handles key data table.secondaries store).1 =
      if (table.secondaries.filterMap handles.dbHandle).any
          (·.refuses (store.records table) key data) then some .einval
      else none :=
  insertSecondaries_fst_of layout indexed noMaster key data (fun _ member => member)
    layout.secondariesDistinct rfl fun _ _ _ _ => rfl

/-- `DB->put` refuses a present key or a refused record, writing nothing, or puts it. -/
theorem put_indexed {db : Nat} (found : handles.dbHandle db = some table) (noOverwrite : Bool) :
    ∃ code stored, put handles db key data noOverwrite store = (code, stored) ∧
      code = (if noOverwrite && (Records.lookup table.keyOrder key (store.records table)).isSome then
          some .keyExist
        else if (table.secondaries.filterMap handles.dbHandle).any
            (·.refuses (store.records table) key data) then some .einval
        else none) ∧
      stored.records table = if code = none then
          Records.put table.keyOrder key data (store.records table)
        else store.records table := by
  obtain ⟨file, opened⟩ := Option.isSome_iff_exists.mp layout.opened
  have fst := insertSecondaries_fst layout indexed noMaster key data
  refine ⟨_, _, rfl, ?_, ?_⟩
  · simp only [put, found]
    by_cases present :
        (noOverwrite && (Records.lookup table.keyOrder key (store.records table)).isSome) = true
    · rw [if_pos present, if_pos present]
    · rw [if_neg present, if_neg present, ← fst]
      split <;> next _ inserted => rw [inserted]
  · split_ifs with ok
    · exact put_records_own found opened layout.apart ok
    · obtain ⟨code, failed⟩ := Option.ne_none_iff_exists'.mp ok
      exact put_records_failed found layout.apart failed

end Loop

theorem del_absent {db : Nat} (found : handles.dbHandle db = some table) {fuel : Nat} {key : Bytes}
    {store : Store} (absent : Records.lookup table.keyOrder key (store.records table) = none) :
    del handles (fuel + 1) db key store = (some .notFound, store) := by
  simp only [Records.lookup, Option.map_eq_none'] at absent
  simp [del, found, absent]

end Access

/-- A table call on the records of a table with `indexes`, as the library answers it: a unique
index's refusal is `EXISTS` for `insert`, `UNKNOWN` for `update`. -/
def Records.indexedStep {Key Data : Type} (order : Bytes → Bytes → Ordering)
    (indexes : List DbHandle) (keys : Codec Key) (values : Codec Data) (records : Records) :
    TableCall Key Data → Except Exception (Reply Data) × Records
  | .exists key => (.ok (.answer (Records.lookup order (keys.serialize key) records).isSome), records)
  | .remove key =>
    if (Records.lookup order (keys.serialize key) records).isSome then
      (.ok .done, Records.erase order (keys.serialize key) records)
    else (.error .notFound, records)
  | .insert key data =>
    if (Records.lookup order (keys.serialize key) records).isSome then (.error .exists, records)
    else if indexes.any (·.refuses records (keys.serialize key) (values.serialize data)) then
      (.error .exists, records)
    else (.ok .done, Records.put order (keys.serialize key) (values.serialize data) records)
  | .update key data =>
    if (Records.lookup order (keys.serialize key) records).isNone then (.error .notFound, records)
    else if indexes.any (·.refuses records (keys.serialize key) (values.serialize data)) then
      (.error .unknown, records)
    else (.ok .done, Records.put order (keys.serialize key) (values.serialize data) records)
  | .select key =>
    match Records.lookup order (keys.serialize key) records with
    | some data => (.ok (.found (values.parse data)), records)
    | none => (.error .notFound, records)

/-- A run of table calls on a table's records, one reference step after another. -/
def Records.indexedRun {Key Data : Type} (order : Bytes → Bytes → Ordering)
    (indexes : List DbHandle) (keys : Codec Key) (values : Codec Data) :
    Records → List (TableCall Key Data) → List (Except Exception (Reply Data)) × Records
  | records, [] => ([], records)
  | records, call :: rest =>
    ((records.indexedStep order indexes keys values call).1 ::
        ((records.indexedStep order indexes keys values call).2.indexedRun order indexes keys values
          rest).1,
      ((records.indexedStep order indexes keys values call).2.indexedRun order indexes keys values
        rest).2)

section Refinement

variable {Key Data : Type} {keys : Codec Key} {values : Codec Data} {handles : Handles} {db : Nat}
  {table : DbHandle} {store : Store} (found : handles.dbHandle db = some table)
  (layout : Layout handles table) (indexed : Indexed handles table store)
  (noMaster : ∀ i ∈ table.secondaries, ∀ index, handles.dbHandle i = some index → index.master = none)
include found layout indexed noMaster

/-- A call answered without faults on a mirrored table does what the reference step does. -/
theorem TableCall.perform_indexed (call : TableCall Key Data) :
    (call.perform keys values (fun _ => none) handles db store).1 =
        ((store.records table).indexedStep table.keyOrder
          (table.secondaries.filterMap handles.dbHandle) keys values call).1 ∧
      (call.perform keys values (fun _ => none) handles db store).2.records table =
        ((store.records table).indexedStep table.keyOrder
          (table.secondaries.filterMap handles.dbHandle) keys values call).2 := by
  obtain ⟨file, opened⟩ := Option.isSome_iff_exists.mp layout.opened
  cases call with
  | «exists» key =>
    cases present : Records.lookup table.keyOrder (keys.serialize key) (store.records table) <;>
      simp [TableCall.perform, Records.indexedStep, Access.exists, Access.get_of_dbHandle found,
        present]
  | select key =>
    cases present : Records.lookup table.keyOrder (keys.serialize key) (store.records table) <;>
      simp [TableCall.perform, Records.indexedStep, Access.get_of_dbHandle found, present,
        selectError]
  | remove key =>
    cases present : Records.lookup table.keyOrder (keys.serialize key) (store.records table) with
    | none => simp [TableCall.perform, Records.indexedStep, Access.delSteps_answered, Access.depth, present,
        Access.del_absent found present, removeError]
    | some data =>
      have deleted : (Access.del handles (handles.fresh + 1) db (keys.serialize key) store).1 =
          none := Access.del_present found layout (by rw [present]; rfl)
      have erased := Access.del_records_own found opened layout.apart layout.noForeign deleted
      simp only [TableCall.perform, Records.indexedStep, Access.delSteps_answered, Access.depth,
        present,
        Option.isSome_some, if_true]
      rw [show Access.del handles (handles.fresh + 1) db (keys.serialize key) store = (none, _) from
        Prod.ext deleted rfl]
      exact ⟨rfl, erased⟩
  | insert key data =>
    obtain ⟨code, stored, result, coded, records⟩ := Access.put_indexed layout indexed noMaster
      (keys.serialize key) (values.serialize data) found true
    rw [Bool.true_and] at coded
    subst coded
    simp only [TableCall.perform, Access.putSteps_answered, result, Records.indexedStep]
    split_ifs with present refused
    · simp [present, records, insertError]
    · simp [present, refused, records, insertError]
    · simp [present, refused, records]
  | update key data =>
    obtain ⟨code, stored, result, coded, records⟩ := Access.put_indexed layout indexed noMaster
      (keys.serialize key) (values.serialize data) found false
    rw [Bool.false_and, if_neg Bool.false_ne_true] at coded
    subst coded
    simp only [TableCall.perform, Access.putSteps_answered, Records.indexedStep, Access.exists,
      Access.get_of_dbHandle found]
    cases present : Records.lookup table.keyOrder (keys.serialize key) (store.records table) with
    | none => simp
    | some old =>
      simp only [result, Option.isNone_some, Bool.false_eq_true, if_false]
      split_ifs with refused
      · simp [refused, records, updateError]
      · simp [refused, records]

end Refinement

/-! ## Sessions -/

/-- Every index of the table open on `db` has the property `holds`. -/
def EveryIndex (holds : DbHandle → Prop) (db : Nat) (handles : Handles) : Prop :=
  ∀ table, handles.dbHandle db = some table →
    ∀ i ∈ table.secondaries, ∀ index, handles.dbHandle i = some index → holds index

section Sessions

variable {root position db : Nat} {sys sys' : System Store} {holds : DbHandle → Prop}

/-- A call answered without faults on an indexed table does what the reference step does. -/
theorem IndexedTable.tableCall_refines (session : IndexedTable root position db sys)
    (plain : EveryIndex (·.master = none) db sys.engine.handles) {Key Data : Type} (keys : Codec Key)
    (values : Codec Data) (call : TableCall Key Data) :
    ∃ table, sys.engine.handles.dbHandle db = some table ∧
      (sys.tableCall keys values (fun _ => none) db call).1 =
        ((sys.abstract.current.records table).indexedStep table.keyOrder
          (table.secondaries.filterMap sys.engine.handles.dbHandle) keys values call).1 ∧
      (sys.tableCall keys values (fun _ => none) db call).2.abstract.current.records table =
        ((sys.abstract.current.records table).indexedStep table.keyOrder
          (table.secondaries.filterMap sys.engine.handles.dbHandle) keys values call).2 := by
  obtain ⟨inv, owner, table, -, facts⟩ := session
  have refined := @TableCall.perform_indexed Key Data keys values _ _ _ _ facts.found facts.layout
    facts.indexed (plain table facts.found) call
  refine ⟨table, facts.found, ?_, ?_⟩
  · rw [System.tableCall, (inv.operate_refines _).1]
    exact refined.1
  · rw [System.tableCall, inv.performTop_current]
    exact refined.2

/-- With at most one index, a call that raises before any later step leaves the table indexed. -/
theorem IndexedTable.tableCall_failed (session : IndexedTable root position db sys)
    {table : DbHandle} (found : sys.engine.handles.dbHandle db = some table)
    (single : table.secondaries.length ≤ 1) {Key Data : Type} (keys : Codec Key)
    (values : Codec Data) {faults : Faults} (quiet : ∀ step, 0 < step → faults step = none)
    {call : TableCall Key Data} {error : Exception}
    (failed : (sys.tableCall keys values faults db call).1 = .error error) :
    IndexedTable root position db (sys.tableCall keys values faults db call).2 := by
  obtain ⟨inv, owner, table', owned, facts⟩ := session
  obtain rfl : table = table' := Option.some_inj.mp (found.symm.trans facts.found)
  have early : call.FailsFirst keys faults table sys.abstract.current := by
    cases call <;> simp [TableCall.FailsFirst, single, facts.layout.noForeign,
      quiet 1 (by decide), quiet 2 (by decide), quiet 3 (by decide)]
  have current : (sys.tableCall keys values faults db call).2.abstract.current =
      sys.abstract.current := by
    rw [System.tableCall, inv.performTop_current]
    exact TableCall.perform_failed keys values faults found early
      ((inv.operate_refines _).1.symm.trans failed)
  refine ⟨inv.tableCall keys values faults db call, owner, table, owned,
    { facts with indexed := ?_ }⟩
  rw [current]
  exact facts.indexed

theorem IndexedTable.tableCall_single (session : IndexedTable root position db sys)
    {table : DbHandle} (found : sys.engine.handles.dbHandle db = some table)
    (single : table.secondaries.length ≤ 1) {Key Data : Type} (keys : Codec Key)
    (values : Codec Data) {faults : Faults} (quiet : ∀ step, 0 < step → faults step = none)
    (call : TableCall Key Data) :
    IndexedTable root position db (sys.tableCall keys values faults db call).2 := by
  cases result : (sys.tableCall keys values faults db call).1 with
  | ok reply => exact session.tableCall keys values faults result
  | error error => exact session.tableCall_failed found single keys values quiet result

/-- With at most one index, a run answered without faults does what the reference run does. -/
theorem IndexedTable.tableRun_refines (session : IndexedTable root position db sys)
    (plain : EveryIndex (·.master = none) db sys.engine.handles) {table : DbHandle}
    (found : sys.engine.handles.dbHandle db = some table) (single : table.secondaries.length ≤ 1)
    {Key Data : Type} (keys : Codec Key) (values : Codec Data) (calls : List (TableCall Key Data)) :
    (sys.tableRun keys values (fun _ => none) db calls).1 =
        ((sys.abstract.current.records table).indexedRun table.keyOrder
          (table.secondaries.filterMap sys.engine.handles.dbHandle) keys values calls).1 ∧
      (sys.tableRun keys values (fun _ => none) db calls).2.abstract.current.records table =
        ((sys.abstract.current.records table).indexedRun table.keyOrder
          (table.secondaries.filterMap sys.engine.handles.dbHandle) keys values calls).2 := by
  induction calls generalizing sys with
  | nil => exact ⟨rfl, rfl⟩
  | cons call rest induction =>
    obtain ⟨table', found', reply, records⟩ := session.tableCall_refines plain keys values call
    obtain rfl : table = table' := Option.some_inj.mp (found.symm.trans found')
    have later := induction (session.tableCall_single found single keys values (fun _ _ => rfl) call)
      plain found
    simp only [System.tableRun, Records.indexedRun, reply, ← records]
    exact ⟨congrArg _ later.1, later.2⟩

end Sessions

theorem SessionFacts.everyIndex {name : String} {callback : Option Comparator}
    {defs : List IndexDef} {home : Store} {writing : Bool} {attached : List IndexDef}
    {sys : System Store} (facts : SessionFacts name callback defs home writing attached sys)
    {holds : DbHandle → Prop} (all : ∀ index ∈ attached, holds (index.handle callback)) :
    EveryIndex holds 2 sys.engine.handles := by
  obtain ⟨table, found, -, -, secondaries, -⟩ := facts.table
  intro table' found' i member index indexFound
  obtain rfl : table = table' := Option.some_inj.mp (found.symm.trans found')
  obtain ⟨other, attachedOther, is⟩ := secondaries i member
  rw [is, Option.some_inj] at indexFound
  exact indexFound ▸ all other attachedOther

section Runs

variable {name : String} {callback : Option Comparator} {defs created : List IndexDef}
  {home : Store} {writing : Bool} {attached : List IndexDef} {sys : System Store}
  (separates : Separates (Comparator.orDefault callback))
  (names : (defs.map IndexDef.name).Nodup)
include separates names

end Runs

/-- A unique index `i` on the data of the table `t`. -/
def uniqueDataIndex : IndexDef := ⟨"i", fun _ data => some data, none, true⟩

/-- A session on an empty home that creates `t`, adds `i` and inserts `[1] ↦ [7]`. -/
def uniqueSession : System Store :=
  let sys := ((System.reopen Store.empty).addTable (fun _ => none) "t" none true).2
  let sys := (sys.addIndex (fun _ => none) 0 ⟨"t", some 2, none, []⟩ uniqueDataIndex.name
    uniqueDataIndex.callback uniqueDataIndex.compare uniqueDataIndex.unique).2
  (sys.tableCall Codec.bytes Codec.bytes (fun _ => none) 2 (.insert [1] [7])).2

theorem uniqueSession_reached :
    Home "t" none [uniqueDataIndex] [] Store.empty ∧
      InSession "t" none [uniqueDataIndex] [] Store.empty true [uniqueDataIndex] uniqueSession := by
  refine ⟨.start List.Pairwise.nil fun _ _ => rfl, ?_⟩
  dsimp only [uniqueSession]
  exact .call _ _ _ _ (.attach _ (.opened (by rfl)) (List.mem_singleton_self _) (by simp)
    (fun _ _ => List.Pairwise.nil) rfl rfl) nofun rfl

/-- In that session the insert of `[2] ↦ [7]` collides with `[1] ↦ [7]` on the unique index, and
succeeds once an update has moved `[1]` off the index key. -/
example :
    (uniqueSession.tableRun Codec.bytes Codec.bytes (fun _ => none) 2
        [.insert [2] [7], .update [1] [8], .insert [2] [7], .select [2]]).1 =
      [.error .exists, .ok .done, .ok .done, .ok (.found [7])] :=
  rfl

end Bdb
