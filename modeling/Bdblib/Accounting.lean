import Bdblib.Lifecycle
import Bdblib.Indexing
import Bdblib.Propagation

/-!
# Every handle closed once

The counterpart of the double close in `index::index`. A session accounts for its handles when
every handle made so far is either in the close log or held by the database object or by one of
the user's recordsets, exactly once, and the `m_db` of each table is an open `DB`. Every action
keeps this whatever the engine answers, except `table::add_index` when a call of `index::index`
fails. So in a run where the index constructors' calls all succeed, deleting the recordsets the
user still holds and then the database object closes every handle the run made exactly once,
and never a `NULL` handle.
-/

namespace Bdb

/-! ## The handles each object closes -/

/-- Close the handles `held`, in order. -/
def Handles.closeAll (handles : Handles) (held : List (Option Nat)) : Handles :=
  held.foldl Handles.close handles

/-- The handle `sequence::~sequence` closes. -/
def Sequence.held (sequence : Sequence) : List (Option Nat) :=
  if sequence.seq.isSome then [sequence.seq] else []

/-- The handle `~table` closes on the `table` part of an index. -/
def Index.held (index : Index) : List (Option Nat) := [index.db]

/-- The handles `table::~table` closes, in its order: those of its indexes, then its own. -/
def Table.held (table : Table) : List (Option Nat) := table.indexes.flatMap Index.held ++ [table.db]

/-- The handle `recordset::~recordset` closes. -/
def Recordset.held (recordset : Recordset) : List (Option Nat) :=
  if recordset.cursor.isSome then [recordset.cursor] else []

/-- The handles `database::~database` closes, in its order. -/
def Database.held (database : Database) : List (Option Nat) :=
  database.sequences.flatMap Sequence.held ++ database.tables.flatMap Table.held ++
    ((if database.seq.isSome then [database.seq] else []) ++
      (if database.env.isSome then [database.env] else []))

/-- The handles of a session: those of the database object and of the user's recordsets. -/
def Session.held (session : Session) : List (Option Nat) :=
  session.sys.database.held ++ session.recordsets.flatMap Recordset.held

namespace Handles

variable (handles : Handles)

@[simp]
theorem closeAll_nil : handles.closeAll [] = handles := rfl

theorem closeAll_append (first second : List (Option Nat)) :
    handles.closeAll (first ++ second) = (handles.closeAll first).closeAll second :=
  List.foldl_append _ _ _ _

@[simp]
theorem closeAll_closes (held : List (Option Nat)) :
    (handles.closeAll held).closes = held.reverse ++ handles.closes := by
  induction held generalizing handles with
  | nil => rfl
  | cons handle held ih =>
    show (closeAll (handles.close handle) held).closes = _
    simp [ih]

@[simp]
theorem dbHandle_closeAll_of_not_mem {other : Nat} {held : List (Option Nat)}
    (outside : some other ∉ held) : (handles.closeAll held).dbHandle other = handles.dbHandle other := by
  induction held generalizing handles with
  | nil => rfl
  | cons handle held ih =>
    rw [List.mem_cons, not_or] at outside
    show (closeAll (handles.close handle) held).dbHandle other = _
    rw [ih _ outside.2]
    cases handle with
    | none => rfl
    | some handle => exact dbHandle_close_of_ne _ fun same => outside.1 (same ▸ rfl)

@[simp]
theorem closeAll_fresh (held : List (Option Nat)) : (handles.closeAll held).fresh = handles.fresh := by
  induction held generalizing handles with
  | nil => rfl
  | cons handle held ih =>
    show (closeAll (handles.close handle) held).fresh = _
    simp [ih]

end Handles

theorem foldl_closeAll {α : Type} {destroy : α → Handles → Handles} {held : α → List (Option Nat)}
    (closing : ∀ object handles, destroy object handles = handles.closeAll (held object)) :
    ∀ (objects : List α) (handles : Handles),
      objects.foldl (fun current object => destroy object current) handles =
        handles.closeAll (objects.flatMap held)
  | [], _ => rfl
  | object :: objects, handles => by
    rw [List.foldl_cons, foldl_closeAll closing objects, closing, List.flatMap_cons,
      Handles.closeAll_append]

theorem Sequence.destroy_eq (sequence : Sequence) (handles : Handles) :
    sequence.destroy handles = handles.closeAll sequence.held := by
  unfold Sequence.destroy Sequence.held
  split <;> rfl

theorem Index.destroy_eq (index : Index) (handles : Handles) :
    index.destroy handles = handles.closeAll index.held := rfl

theorem Table.destroy_eq (table : Table) (handles : Handles) :
    table.destroy handles = handles.closeAll table.held := by
  rw [Table.destroy, foldl_closeAll Index.destroy_eq, Table.held, Handles.closeAll_append]
  rfl

theorem Recordset.destroy_eq (recordset : Recordset) (handles : Handles) :
    recordset.destroy handles = handles.closeAll recordset.held := by
  unfold Recordset.destroy Recordset.held
  split <;> rfl

/-- `database::~database` closes exactly the handles the database object holds, in its order. -/
theorem Database.destroy_handles (fault : Option DbError) (sys : System Store) :
    (Database.destroy fault sys).handles = sys.engine.handles.closeAll sys.database.held := by
  simp only [Database.destroy, Database.held, foldl_closeAll Sequence.destroy_eq,
    foldl_closeAll Table.destroy_eq, Handles.closeAll_append]
  split_ifs <;> rfl

/-! ## Accounting for handles -/

/-- Every handle made so far is in the close log or in `held`, exactly once, and nothing else is. -/
def Handles.Balanced (handles : Handles) (held : List (Option Nat)) : Prop :=
  (handles.closes ++ held).Perm ((List.range handles.fresh).map some)

namespace Handles.Balanced

variable {handles : Handles} {held : List (Option Nat)}

theorem perm {held' : List (Option Nat)} (balanced : handles.Balanced held) (same : held.Perm held') :
    handles.Balanced held' :=
  (same.append_left _).symm.trans balanced

theorem congr {handles' : Handles} (balanced : handles.Balanced held)
    (fresh : handles'.fresh = handles.fresh) (closes : handles'.closes = handles.closes) :
    handles'.Balanced held := by
  rwa [Balanced, fresh, closes]

theorem alloc (balanced : handles.Balanced held) (state : HandleState) :
    (handles.alloc state).2.Balanced (held ++ [some handles.fresh]) := by
  rw [Balanced, alloc_closes, alloc_fresh, List.range_succ, List.map_append, ← List.append_assoc]
  exact balanced.append_right _

theorem alloc_close (balanced : handles.Balanced held) (state : HandleState) :
    ((handles.alloc state).2.close (some handles.fresh)).Balanced held := by
  rw [Balanced, close_closes, close_fresh, alloc_closes, alloc_fresh, List.range_succ,
    List.map_append]
  exact (List.perm_append_singleton _ _).symm.trans (balanced.append_right _)

theorem closeAll {closing : List (Option Nat)} (balanced : handles.Balanced (held ++ closing)) :
    (handles.closeAll closing).Balanced held := by
  rw [Balanced, closeAll_closes, closeAll_fresh]
  refine List.Perm.trans (List.perm_iff_count.mpr fun handle => ?_) balanced
  simp only [List.count_append, List.count_reverse]
  omega

theorem lt (balanced : handles.Balanced held) {handle : Nat} (holds : some handle ∈ held) :
    handle < handles.fresh := by
  simpa using balanced.subset (List.mem_append_right _ holds)

theorem apart {first second : List (Option Nat)} (balanced : handles.Balanced (first ++ second))
    {one other : Nat} (inFirst : some one ∈ first) (inSecond : some other ∈ second) :
    one ≠ other := fun same => by
  have unique := balanced.nodup_iff.mpr ((List.nodup_range _).map (Option.some_injective _))
  exact List.disjoint_of_nodup_append (List.nodup_append.mp unique).2.1 inFirst (same ▸ inSecond)

end Handles.Balanced

section Lists

variable {α β : Type} (f : α → List β)

theorem flatMap_set_perm {extra : List β} {y : α} :
    ∀ {xs : List α} {i : Nat} {x : α}, xs[i]? = some x → (f y).Perm (f x ++ extra) →
      ((xs.set i y).flatMap f).Perm (xs.flatMap f ++ extra)
  | _ :: _, 0, _, found, grown => by
    rw [List.getElem?_cons_zero, Option.some_inj] at found
    subst found
    rw [List.set_cons_zero, List.flatMap_cons, List.flatMap_cons]
    refine (grown.append_right _).trans ?_
    rw [List.append_assoc, List.append_assoc]
    exact List.perm_append_comm.append_left _
  | head :: _, i + 1, _, found, grown => by
    rw [List.getElem?_cons_succ] at found
    simpa only [List.set_cons_succ, List.flatMap_cons, List.append_assoc] using
      (flatMap_set_perm found grown).append_left (f head)

theorem flatMap_eraseIdx_perm :
    ∀ {xs : List α} {i : Nat} {x : α}, xs[i]? = some x →
      (xs.flatMap f).Perm ((xs.eraseIdx i).flatMap f ++ f x)
  | _ :: _, 0, _, found => by
    rw [List.getElem?_cons_zero, Option.some_inj] at found
    subst found
    exact List.perm_append_comm
  | head :: _, i + 1, _, found => by
    rw [List.getElem?_cons_succ] at found
    simpa only [List.eraseIdx_cons_succ, List.flatMap_cons, List.append_assoc] using
      (flatMap_eraseIdx_perm found).append_left (f head)

end Lists

/-! ## What the database object holds as it grows -/

namespace Database

variable (database : Database)

theorem held_addSequence (sequence : Sequence) :
    { database with sequences := database.sequences ++ [sequence] }.held.Perm
      (database.held ++ sequence.held) :=
  List.perm_iff_count.mpr fun _ => by simp only [held, List.flatMap_append,
    List.flatMap_singleton, List.count_append]; omega

theorem held_addTable (table : Table) :
    { database with tables := database.tables ++ [table] }.held.Perm (database.held ++ table.held) :=
  List.perm_iff_count.mpr fun _ => by simp only [held, List.flatMap_append,
    List.flatMap_singleton, List.count_append]; omega

theorem held_addIndex {position : Nat} {owner : Table} (found : database.tables[position]? = some owner)
    (index : Index) :
    { database with tables := (database.tables.set position
        { owner with indexes := owner.indexes ++ [index] }) }.held.Perm
      (database.held ++ index.held) := by
  have grown : (Table.held { owner with indexes := owner.indexes ++ [index] }).Perm
      (owner.held ++ index.held) :=
    List.perm_iff_count.mpr fun _ => by simp only [Table.held, List.flatMap_append,
      List.flatMap_singleton, List.count_append]; omega
  refine ((flatMap_set_perm Table.held found grown).append_left _ |>.append_right _).trans ?_
  exact List.perm_iff_count.mpr fun _ => by simp only [held, List.count_append]; omega

end Database

theorem Database.mem_held {database : Database} {table : Table} (inTables : table ∈ database.tables)
    {db : Nat} (owned : table.db = some db) : some db ∈ database.held :=
  List.mem_append_left _ <| List.mem_append_right _ <|
    List.mem_flatMap.mpr ⟨table, inTables, by simp [Table.held, owned]⟩

theorem Session.held_grow {database database' : Database} {recordsets : List Recordset}
    {extra : List (Option Nat)} (grown : database'.held.Perm (database.held ++ extra)) :
    (database'.held ++ recordsets.flatMap Recordset.held).Perm
      (database.held ++ recordsets.flatMap Recordset.held ++ extra) :=
  (grown.append_right _).trans <| List.perm_iff_count.mpr fun _ => by
    simp only [List.count_append]; omega

/-! ## The accounting invariant -/

/-- A session accounts for its handles: each closed once or held once; each table's `m_db` open. -/
structure Accounted (session : Session) : Prop where
  balanced : session.sys.engine.handles.Balanced session.held
  opened : ∀ table ∈ session.sys.database.tables, ∃ db, table.db = some db ∧
    (session.sys.engine.handles.dbHandle db).isSome

theorem accounted_freshSession : Accounted freshSession :=
  ⟨List.Perm.swap _ _ _, nofun⟩

namespace Accounted

variable {session : Session}

theorem table_lt (accounted : Accounted session) {table : Table}
    (inTables : table ∈ session.sys.database.tables) {db : Nat} (owned : table.db = some db) :
    db < session.sys.engine.handles.fresh :=
  accounted.balanced.lt <| List.mem_append_left _ <| Database.mem_held inTables owned

theorem opened_of (accounted : Accounted session) {handles : Handles}
    (kept : ∀ db < session.sys.engine.handles.fresh,
      (session.sys.engine.handles.dbHandle db).isSome → (handles.dbHandle db).isSome) :
    ∀ table ∈ session.sys.database.tables, ∃ db, table.db = some db ∧ (handles.dbHandle db).isSome :=
  fun _ inTables =>
    let ⟨db, owned, found⟩ := accounted.opened _ inTables
    ⟨db, owned, kept db (accounted.table_lt inTables owned) found⟩

/-- A new database object over new handles that account for what the old one held. -/
theorem withSys {sys : System Store} {extra : List (Option Nat)}
    (balanced : sys.engine.handles.Balanced (session.held ++ extra))
    (grown : sys.database.held.Perm (session.sys.database.held ++ extra))
    (opened : ∀ table ∈ sys.database.tables, ∃ db, table.db = some db ∧
      (sys.engine.handles.dbHandle db).isSome) :
    Accounted (session.withSys sys) :=
  ⟨balanced.perm (Session.held_grow grown).symm, opened⟩

end Accounted

/-! ## What each constructor does to the handles -/

namespace Handles

variable {handles : Handles} {other : Nat}

theorem isSome_dbHandle_alloc (below : other < handles.fresh) (state : HandleState)
    (opened : (handles.dbHandle other).isSome) : ((handles.alloc state).2.dbHandle other).isSome := by
  rwa [dbHandle_alloc_of_ne _ below.ne]

theorem isSome_dbHandle_set_db {handle : Nat} (state : DbHandle)
    (opened : (handles.dbHandle other).isSome) :
    ((handles.set handle (.db state)).dbHandle other).isSome := by
  by_cases same : other = handle
  · subst same; simp
  · rwa [dbHandle_set_of_ne _ same]

end Handles

theorem associateHandles_isSome {handles : Handles} {db index other : Nat} (callback : IndexCallback)
    (opened : (handles.dbHandle other).isSome) :
    ((associateHandles handles db index callback).dbHandle other).isSome := by
  unfold associateHandles
  split
  · exact Handles.isSome_dbHandle_set_db _ (Handles.isSome_dbHandle_set_db _ opened)
  · exact opened

theorem associateForeign_isSome {handles : Handles} {db index other : Nat} (mode : ForeignMode)
    (opened : (handles.dbHandle other).isSome) :
    ((associateForeign handles db index mode).dbHandle other).isSome := by
  unfold associateForeign
  split
  · exact Handles.isSome_dbHandle_set_db _ (Handles.isSome_dbHandle_set_db _ opened)
  · exact opened

/-- `sequence::sequence` makes no handle, or closes the one it made as it throws, or holds it. -/
theorem Sequence.new_cases {faults : Faults} {name : Bytes} {create : Bool}
    {sys sys' : System Store} {result : Except Exception Sequence}
    (made : Sequence.new faults name create sys = (result, sys')) :
    sys'.database = sys.database ∧
      ((∃ error, result = .error error) ∧ (sys' = sys ∨ sys'.engine.handles =
          (sys.engine.handles.alloc (.sequence name)).2.close (some sys.engine.handles.fresh)) ∨
        result = .ok ⟨some sys.engine.handles.fresh⟩ ∧
          sys'.engine.handles = (sys.engine.handles.alloc (.sequence name)).2) := by
  unfold Sequence.new at made
  split at made
  · cases made
    exact ⟨rfl, .inl ⟨⟨_, rfl⟩, .inl rfl⟩⟩
  · have called : ∀ sys : System Store,
        (Sequence.openCalls faults name create sys).2.engine.handles = sys.engine.handles ∧
          (Sequence.openCalls faults name create sys).2.database = sys.database := fun sys => by
      unfold Sequence.openCalls; split <;> exact ⟨rfl, rfl⟩
    obtain ⟨handles, database⟩ := called (sys.withHandles (sys.engine.handles.alloc (.sequence name)).2)
    dsimp only at made
    split at made <;> next opened =>
      rw [opened] at handles database
      dsimp only [System.withHandles_handles] at handles database
      cases made
      first
      | exact ⟨database, .inl ⟨⟨_, rfl⟩, .inr (by simp only [System.withHandles_handles, handles]; rfl)⟩⟩
      | exact ⟨database, .inr ⟨rfl, handles⟩⟩

/-- `table::table` makes no handle, or closes the one it made as it throws, or holds it. -/
theorem Table.new_cases {faults : Faults} {name : String} {callback : Option Comparator}
    {create : Bool} {sys sys' : System Store} {result : Except Exception Table}
    (made : Table.new faults name callback create sys = (result, sys')) :
    sys'.database = sys.database ∧
      ((∃ error, result = .error error) ∧ (sys' = sys ∨ sys'.engine.handles =
          (sys.engine.handles.alloc (.db { compare := callback })).2.close
            (some sys.engine.handles.fresh)) ∨
        result = .ok ⟨name, some sys.engine.handles.fresh, callback, []⟩ ∧
          sys'.engine.handles = (sys.engine.handles.alloc (.db { compare := callback })).2.set
            sys.engine.handles.fresh (.db { compare := callback, file := some (name ++ ".db") })) := by
  unfold Table.new at made
  split at made
  · cases made
    exact ⟨rfl, .inl ⟨⟨_, rfl⟩, .inl rfl⟩⟩
  · have called : ∀ sys : System Store,
        (Table.openCalls faults name callback create sys).2.engine.handles = sys.engine.handles ∧
          (Table.openCalls faults name callback create sys).2.database = sys.database := fun sys => by
      unfold Table.openCalls; split <;> exact ⟨rfl, rfl⟩
    obtain ⟨handles, database⟩ :=
      called (sys.withHandles (sys.engine.handles.alloc (.db { compare := callback })).2)
    dsimp only at made
    split at made <;> next opened =>
      rw [opened] at handles database
      dsimp only [System.withHandles_handles] at handles database
      cases made
      first
      | exact ⟨database, .inl ⟨⟨_, rfl⟩, .inr (by simp only [System.withHandles_handles, handles]; rfl)⟩⟩
      | exact ⟨database, .inr ⟨rfl, by simp only [System.withHandles_handles, handles]; rfl⟩⟩

section IndexNew

variable {owner : Table} (name : String) (callback : IndexCallback) (compare : Option Comparator)
  (unique : Bool) {sys : System Store}

/-- With every call answered, `index::index` fails only when the table's `m_db` is not open. -/
theorem Index.configure_answered {db : Nat} (opened : (owner.db.bind sys.engine.handles.dbHandle).isSome) :
    (Index.configure (fun _ => none) owner name callback compare unique db sys).1 = none := by
  have unanswered : firstFault (fun _ => none) (Index.setupCalls owner compare unique) = none := by
    simp [firstFault]
  obtain ⟨primary, found⟩ := Option.isSome_iff_exists.mp opened
  unfold Index.configure Index.openCalls
  rw [unanswered]
  have answered : (sys.call (openFile (name ++ ".ix") true false)).1 = none :=
    System.call_fst_of_const (openFile_create_fst _)
  have same := System.call_handles sys (openFile (name ++ ".ix") true false)
  cases called : sys.call (openFile (name ++ ".ix") true false) with
  | mk code sys' =>
    rw [called] at answered same
    subst answered
    dsimp only at same ⊢
    unfold Index.associate
    rw [same, found]
    exact System.call_fst_of_const (associateRecords_fst primary _ callback)

/-- With every call answered, `index::index` on an open table returns on the handle it makes. -/
theorem Index.new_answered {db : Nat} (owned : owner.db = some db) (below : db < sys.engine.handles.fresh)
    (opened : (sys.engine.handles.dbHandle db).isSome) :
    (Index.new (fun _ => none) owner name callback compare unique sys).1 =
        .ok ⟨name, some sys.engine.handles.fresh⟩ ∧
      (Index.new (fun _ => none) owner name callback compare unique sys).2.database = sys.database ∧
      (Index.new (fun _ => none) owner name callback compare unique sys).2.engine.handles =
        associateHandles (sys.engine.handles.alloc (.db (indexHandle name compare owner.callback
          unique))).2 db sys.engine.handles.fresh callback := by
  have ok : (Index.new (fun _ => none) owner name callback compare unique sys).1 =
      .ok ⟨name, some sys.engine.handles.fresh⟩ := by
    let created := sys.engine.handles.alloc (.db (indexHandle name compare owner.callback unique))
    have configured : (Index.configure (fun _ => none) owner name callback compare unique created.1
        (sys.withHandles created.2)).1 = none :=
      Index.configure_answered name callback compare unique (by rw [owned, Option.some_bind,
        System.withHandles_handles, Handles.dbHandle_alloc_of_ne _ below.ne]; exact opened)
    unfold Index.new
    dsimp only
    split <;> simp_all
  obtain ⟨_, _, -, shape⟩ := Index.new_ok_eq ok
  rw [shape, owned]
  exact ⟨ok, rfl, rfl⟩

end IndexNew

@[simp]
theorem associateHandles_fresh (handles : Handles) (db index : Nat) (callback : IndexCallback) :
    (associateHandles handles db index callback).fresh = handles.fresh := by
  unfold associateHandles
  split <;> rfl

@[simp]
theorem associateForeign_fresh (handles : Handles) (db index : Nat) (mode : ForeignMode) :
    (associateForeign handles db index mode).fresh = handles.fresh := by
  unfold associateForeign
  split <;> rfl

@[simp]
theorem associateForeign_closes (handles : Handles) (db index : Nat) (mode : ForeignMode) :
    (associateForeign handles db index mode).closes = handles.closes := by
  unfold associateForeign
  split <;> rfl

theorem Index.addForeign_cases (fault : Option DbError) (index : Index) (foreign : Table)
    (mode : ForeignMode) (sys : System Store) :
    (Index.addForeign fault index foreign mode sys).2 = sys ∨ ∃ db secondary,
      (Index.addForeign fault index foreign mode sys).2 =
        sys.withHandles (associateForeign sys.engine.handles db secondary mode) := by
  unfold Index.addForeign
  split
  · exact .inr ⟨_, _, rfl⟩
  · exact .inl rfl

/-! ## Recordsets -/

namespace System

variable (sys : System Store) (cursor : Nat) (move : Move)

@[simp]
theorem withHandles_self : sys.withHandles sys.engine.handles = sys := rfl

theorem cursorGet_counts :
    (sys.cursorGet cursor move).2.engine.handles.fresh = sys.engine.handles.fresh ∧
      (sys.cursorGet cursor move).2.engine.handles.closes = sys.engine.handles.closes := by
  unfold cursorGet
  dsimp only
  repeat' split
  all_goals exact ⟨rfl, rfl⟩

theorem cursorPget_counts :
    (sys.cursorPget cursor move).2.engine.handles.fresh = sys.engine.handles.fresh ∧
      (sys.cursorPget cursor move).2.engine.handles.closes = sys.engine.handles.closes := by
  have counts := sys.cursorGet_counts cursor move
  unfold cursorPget
  split
  · cases got : sys.cursorGet cursor move with
    | mk result moved =>
      rw [got] at counts
      cases result with
      | error => exact ⟨rfl, rfl⟩
      | ok found =>
        dsimp only
        split <;> first | exact counts | exact ⟨rfl, rfl⟩
  · exact ⟨rfl, rfl⟩

end System

/-- The positioning loop changes only handles, makes and closes none, and keeps the cursors. -/
theorem Recordset.positionAll_keeps (faults : Faults) :
    ∀ (list : List Recordset) (index : Nat) (sys : System Store) (isset : Bool),
      let positioned := Recordset.positionAll faults index list sys isset
      positioned.2.2 = sys.withHandles positioned.2.2.engine.handles ∧
        positioned.2.2.engine.handles.fresh = sys.engine.handles.fresh ∧
        positioned.2.2.engine.handles.closes = sys.engine.handles.closes ∧
        positioned.2.1.map Recordset.cursor = list.map Recordset.cursor
  | [], _, _, _ => ⟨rfl, rfl, rfl, rfl⟩
  | recordset :: rest, index, sys, isset => by
    cases searched : recordset.key with
    | none => simp [Recordset.positionAll, searched]
    | some key =>
      cases placed : recordset.cursor with
      | none => simp [Recordset.positionAll, searched, placed]
      | some cursor =>
        obtain ⟨found, stepped, step, unfolded⟩ :=
          @Recordset.positionAll_cons faults index recordset rest sys isset key cursor searched placed
        -- the first `DB_SET` moves a cursor and nothing else
        have stepping : stepped = sys.withHandles stepped.engine.handles ∧
            stepped.engine.handles.fresh = sys.engine.handles.fresh ∧
            stepped.engine.handles.closes = sys.engine.handles.closes := by
          rcases step with ⟨-, -, rfl⟩ | ⟨-, result, pget, -⟩
          · exact ⟨rfl, rfl, rfl⟩
          · obtain ⟨handles, moved, -⟩ := sys.cursorPget_frame cursor (.set key)
            have counts := sys.cursorPget_counts cursor (.set key)
            rw [pget] at moved counts
            dsimp only at moved counts
            subst moved
            exact ⟨rfl, counts⟩
        obtain ⟨shape, fresh, closes, cursors⟩ :=
          Recordset.positionAll_keeps faults rest (index + 1) stepped (isset && found)
        rw [unfolded]
        refine ⟨shape.trans ((congrArg (fun stepped => System.withHandles stepped _) stepping.1).trans
          (System.withHandles_withHandles _ _ _)), fresh.trans stepping.2.1,
          closes.trans stepping.2.2, ?_⟩
        rw [List.map_cons, List.map_cons, cursors]
        split <;> rfl

/-- The join constructor runs its loop, then throws or makes the join cursor. -/
theorem Recordset.join_cases {faults : Faults} {table : Table} {list members : List Recordset}
    {sys sys' : System Store} {joined : Except Exception Recordset}
    (made : Recordset.join faults table list sys = (joined, members, sys')) :
    ∃ positioned : System Store,
      (Recordset.positionAll faults 0 list sys true).2 = (members, positioned) ∧
      ((∃ error, joined = .error error) ∧ sys' = positioned ∨
        ∃ state isset, joined = .ok ⟨some positioned.engine.handles.fresh, none, .join, isset⟩ ∧
          sys' = positioned.withHandles (positioned.engine.handles.alloc (.join state)).2) := by
  unfold Recordset.join at made
  split at made <;> next positionedEq =>
    rw [positionedEq]
    first
    | cases made; exact ⟨_, rfl, .inl ⟨⟨_, rfl⟩, rfl⟩⟩
    | split at made <;> cases made
      · exact ⟨_, rfl, .inl ⟨⟨_, rfl⟩, rfl⟩⟩
      · exact ⟨_, rfl, .inl ⟨⟨_, rfl⟩, rfl⟩⟩
      · exact ⟨_, rfl, .inr ⟨_, _, rfl, rfl⟩⟩

section Placing

theorem mapM_forall₂ {α : Type} (xs : List α) : ∀ {positions : List Nat} {ys : List α},
    positions.mapM (fun position => xs[position]?) = some ys →
      List.Forall₂ (fun position y => xs[position]? = some y) positions ys
  | [], _, named => by cases named; exact .nil
  | position :: positions, _, named => by
    simp only [List.mapM_cons, Option.bind_eq_bind, Option.bind_eq_some, Option.pure_def,
      Option.some_inj] at named
    obtain ⟨y, found, ys, rest, rfl⟩ := named
    exact .cons found (mapM_forall₂ xs rest)

theorem set_of_getElem?_eq {α : Type} {xs : List α} {i : Nat} {x : α} (found : xs[i]? = some x) :
    xs.set i x = xs :=
  List.ext_getElem? fun j => by
    rw [List.getElem?_set']
    split <;> simp_all

theorem foldl_set_cursors : ∀ (pairs : List (Nat × Recordset)) (recordsets : List Recordset),
    (∀ placed ∈ pairs, (recordsets.map Recordset.cursor)[placed.1]? = some placed.2.cursor) →
    (pairs.foldl (fun recordsets placed => recordsets.set placed.1 placed.2) recordsets).map
      Recordset.cursor = recordsets.map Recordset.cursor
  | [], _, _ => rfl
  | placed :: pairs, recordsets, carried => by
    have kept : (recordsets.set placed.1 placed.2).map Recordset.cursor =
        recordsets.map Recordset.cursor := by
      rw [List.map_set]
      exact set_of_getElem?_eq (carried placed (List.mem_cons_self _ _))
    rw [List.foldl_cons, foldl_set_cursors pairs _ (kept ▸ fun other inPairs =>
      carried other (List.mem_cons_of_mem _ inPairs)), kept]

theorem held_of_cursors {recordsets recordsets' : List Recordset}
    (same : recordsets.map Recordset.cursor = recordsets'.map Recordset.cursor) :
    recordsets.flatMap Recordset.held = recordsets'.flatMap Recordset.held := by
  have through : ∀ recordsets : List Recordset, recordsets.flatMap Recordset.held =
      (recordsets.map Recordset.cursor).flatMap fun cursor =>
        if cursor.isSome then [cursor] else [] := fun _ =>
    (List.flatMap_map Recordset.cursor (fun cursor => if cursor.isSome then [cursor] else []) _).symm
  rw [through, through, same]

end Placing

/-! ## Every action keeps the accounting -/

namespace Accounted

variable {session : Session}

/-- Handles that make and close nothing and keep the tables open keep the accounting. -/
theorem frame (accounted : Accounted session) {handles : Handles} {recordsets : List Recordset}
    (fresh : handles.fresh = session.sys.engine.handles.fresh)
    (closes : handles.closes = session.sys.engine.handles.closes)
    (opened : ∀ table ∈ session.sys.database.tables, ∃ db, table.db = some db ∧
      (handles.dbHandle db).isSome)
    (same : recordsets.flatMap Recordset.held = session.recordsets.flatMap Recordset.held) :
    Accounted ⟨session.sys.withHandles handles, recordsets⟩ := by
  refine ⟨?_, opened⟩
  show handles.Balanced (session.sys.database.held ++ recordsets.flatMap Recordset.held)
  rw [same]
  exact accounted.balanced.congr fresh closes

theorem alloc_recordset (accounted : Accounted session) (state : HandleState) (key : Option Bytes)
    (kind : RecordsetKind) (isset : Bool) :
    Accounted ⟨session.sys.withHandles (session.sys.engine.handles.alloc state).2,
      session.recordsets ++ [⟨some session.sys.engine.handles.fresh, key, kind, isset⟩]⟩ := by
  refine ⟨?_, accounted.opened_of fun _ below => Handles.isSome_dbHandle_alloc below state⟩
  show (session.sys.engine.handles.alloc state).2.Balanced
    (session.sys.database.held ++ (session.recordsets ++ _).flatMap Recordset.held)
  rw [List.flatMap_append, List.flatMap_singleton, ← List.append_assoc]
  exact accounted.balanced.alloc state

theorem closeRecordset (accounted : Accounted session) {position : Nat} {recordset : Recordset}
    (found : session.recordsets[position]? = some recordset) :
    Accounted ⟨session.sys.withHandles (recordset.destroy session.sys.engine.handles),
      session.recordsets.eraseIdx position⟩ := by
  have moved : session.sys.engine.handles.Balanced ((session.sys.database.held ++
      (session.recordsets.eraseIdx position).flatMap Recordset.held) ++ recordset.held) :=
    accounted.balanced.perm <| by
      rw [List.append_assoc]; exact (flatMap_eraseIdx_perm _ found).append_left _
  rw [Recordset.destroy_eq]
  refine ⟨moved.closeAll, fun table inTables => ?_⟩
  obtain ⟨db, owned, opened⟩ := accounted.opened table inTables
  refine ⟨db, owned, ?_⟩
  rwa [System.withHandles_handles, Handles.dbHandle_closeAll_of_not_mem _ fun holds =>
    accounted.balanced.apart (Database.mem_held inTables owned)
      (List.mem_flatMap.mpr ⟨recordset, List.getElem?_mem found, holds⟩) rfl]

theorem made_closed (accounted : Accounted session) {sys : System Store} {state : HandleState}
    (database : sys.database = session.sys.database)
    (handles : sys.engine.handles =
      (session.sys.engine.handles.alloc state).2.close (some session.sys.engine.handles.fresh)) :
    Accounted (session.withSys sys) := by
  refine withSys (by rw [handles, List.append_nil]; exact accounted.balanced.alloc_close _)
    (by rw [database, List.append_nil]) ?_
  rw [database, handles]
  exact accounted.opened_of fun db below opened => by
    rw [Handles.dbHandle_close_of_ne _ below.ne]; exact Handles.isSome_dbHandle_alloc below state opened

theorem addSequence (accounted : Accounted session) (faults : Faults) (name : Bytes)
    (create : Bool) : Accounted (session.withSys (session.sys.addSequence faults name create).2) := by
  unfold System.addSequence
  cases made : Sequence.new faults name create session.sys with
  | mk result sys =>
    obtain ⟨database, ⟨⟨error, rfl⟩, rfl | handles⟩ | ⟨rfl, handles⟩⟩ := Sequence.new_cases made
    · exact accounted
    · exact accounted.made_closed database handles
    · dsimp only
      refine withSys (by rw [handles]; exact accounted.balanced.alloc _)
        (by rw [database]; exact Database.held_addSequence _ _) fun table inTables => ?_
      dsimp only at inTables
      rw [database] at inTables
      rw [handles]
      exact accounted.opened_of (fun _ below => Handles.isSome_dbHandle_alloc below _) table inTables

theorem addTable (accounted : Accounted session) (faults : Faults) (name : String)
    (callback : Option Comparator) (create : Bool) :
    Accounted (session.withSys (session.sys.addTable faults name callback create).2) := by
  unfold System.addTable
  cases made : Table.new faults name callback create session.sys with
  | mk result sys =>
    obtain ⟨database, ⟨⟨error, rfl⟩, rfl | handles⟩ | ⟨rfl, handles⟩⟩ := Table.new_cases made
    · exact accounted
    · exact accounted.made_closed database handles
    · dsimp only
      refine withSys
        (by rw [handles]; exact (accounted.balanced.alloc (.db { compare := callback })).congr rfl rfl)
        (by rw [database]; exact Database.held_addTable _ _) fun table inTables => ?_
      dsimp only at inTables
      rw [database, List.mem_append, List.mem_singleton] at inTables
      rw [handles]
      rcases inTables with old | rfl
      · obtain ⟨db, owned, opened⟩ :=
          accounted.opened_of (fun _ below => Handles.isSome_dbHandle_alloc below _) table old
        exact ⟨db, owned, Handles.isSome_dbHandle_set_db _ opened⟩
      · exact ⟨_, rfl, by simp⟩

/-- `table::add_index` keeps the accounting when the engine answers every call of `index::index`. -/
theorem addIndex (accounted : Accounted session) {position : Nat} {owner : Table}
    (found : session.sys.database.tables[position]? = some owner) (name : String)
    (callback : IndexCallback) (compare : Option Comparator) (unique : Bool) :
    Accounted (session.withSys
      (session.sys.addIndex (fun _ => none) position owner name callback compare unique).2) := by
  obtain ⟨db, owned, opened⟩ := accounted.opened owner (List.getElem?_mem found)
  have below := accounted.table_lt (List.getElem?_mem found) owned
  obtain ⟨ok, database, handles⟩ :=
    Index.new_answered name callback compare unique owned below opened
  have kept : ∀ other < session.sys.engine.handles.fresh,
      (session.sys.engine.handles.dbHandle other).isSome →
        ((Index.new (fun _ => none) owner name callback compare unique session.sys).2.engine.handles.dbHandle
          other).isSome := fun _ below opened => by
    rw [handles]; exact associateHandles_isSome callback (Handles.isSome_dbHandle_alloc below _ opened)
  unfold System.addIndex
  rw [show Index.new _ owner name callback compare unique session.sys = (.ok _, _) from
    Prod.ext ok rfl]
  dsimp only
  refine withSys ?_ (by rw [database]; exact Database.held_addIndex _ found _) ?_
  · rw [handles]
    exact (accounted.balanced.alloc (.db (indexHandle name compare owner.callback unique))).congr
      (by simp) (by simp)
  · intro table inTables
    rcases List.mem_or_eq_of_mem_set (database ▸ inTables) with old | rfl
    · exact accounted.opened_of kept table old
    · exact ⟨db, owned, kept db below opened⟩

theorem addForeign (accounted : Accounted session) (fault : Option DbError) (index : Index)
    (foreign : Table) (mode : ForeignMode) :
    Accounted (session.withSys (Index.addForeign fault index foreign mode session.sys).2) := by
  rcases Index.addForeign_cases fault index foreign mode session.sys with same | ⟨db, secondary, linked⟩
  · rw [same]; exact accounted
  · rw [linked]
    exact accounted.frame (by simp) (by simp)
      (accounted.opened_of fun _ _ => associateForeign_isSome mode) rfl

/-- The join constructor keeps the accounting: its cursor is made only when it returns. -/
theorem openJoin (accounted : Accounted session) {faults : Faults} {owner : Table}
    {list : List Nat} {members : List Recordset}
    (named : list.mapM (fun position => session.recordsets[position]?) = some members)
    {joined : Except Exception Recordset} {members' : List Recordset} {sys : System Store}
    (made : Recordset.join faults owner members session.sys = (joined, members', sys)) :
    Accounted (Session.keep ⟨sys, (list.zip members').foldl
      (fun recordsets placed => recordsets.set placed.1 placed.2) session.recordsets⟩ (joined, sys)) := by
  obtain ⟨positioned, positionedEq, outcome⟩ := Recordset.join_cases made
  obtain ⟨shape, fresh, closes, cursors⟩ :=
    Recordset.positionAll_keeps faults members 0 session.sys true
  rw [positionedEq] at shape fresh closes cursors
  dsimp only at shape fresh closes cursors
  have related := mapM_forall₂ session.recordsets named
  -- no table's handle is the cursor of a recordset of the user
  have apart : ∀ table ∈ session.sys.database.tables, ∀ db, table.db = some db →
      some db ∉ members.map Recordset.cursor := fun table inTables db owned placed => by
    obtain ⟨member, inMembers, cursor⟩ := List.mem_map.mp placed
    obtain ⟨_, -, found⟩ := List.Forall₂.exists_of_mem_right related inMembers
    exact accounted.balanced.apart (Database.mem_held inTables owned)
      (List.mem_flatMap.mpr ⟨member, List.getElem?_mem found, by simp [Recordset.held, cursor]⟩) rfl
  have onCursors : List.Forall₂ (fun position cursor =>
      (session.recordsets.map Recordset.cursor)[position]? = some cursor) list
      (members'.map Recordset.cursor) := by
    rw [cursors]
    exact List.forall₂_map_right_iff.mpr (related.imp fun _ _ found => by simp [found])
  have carried := List.forall₂_map_right_iff.mp onCursors
  have kept : Accounted ⟨positioned, (list.zip members').foldl
      (fun recordsets placed => recordsets.set placed.1 placed.2) session.recordsets⟩ := by
    rw [shape]
    refine accounted.frame fresh closes (fun table inTables => ?_)
      (held_of_cursors (foldl_set_cursors _ _ fun _ inZip => (List.forall₂_iff_zip.mp carried).2 inZip))
    obtain ⟨db, owned, opened⟩ := accounted.opened table inTables
    obtain ⟨handles, moved, frame⟩ :=
      @Recordset.positionAll_frame faults members 0 session.sys true db (apart table inTables db owned)
    rw [positionedEq] at moved
    refine ⟨db, owned, ?_⟩
    rw [show positioned.engine.handles = handles from congrArg (·.engine.handles) moved,
      Handles.dbHandle, frame]
    exact opened
  rcases outcome with ⟨⟨error, rfl⟩, rfl⟩ | ⟨state, isset, rfl, rfl⟩
  · exact kept
  · exact kept.alloc_recordset (.join state) none .join isset

end Accounted

/-- The engine answers every call of `index::index` an action makes. -/
def Action.IndexAnswered : Action → Prop
  | .addIndex faults _ _ _ _ _ => ∀ call, faults call = none
  | _ => True

theorem Accounted.apply {session : Session} (accounted : Accounted session) {action : Action}
    (answered : action.IndexAnswered) : Accounted (session.apply action) := by
  cases action with
  | addSequence faults name create => exact accounted.addSequence faults name create
  | addTable faults name callback create => exact accounted.addTable faults name callback create
  | addIndex faults table name callback compare unique =>
    obtain rfl : faults = fun _ => none := funext answered
    simp only [Session.apply]
    split
    · next owner found => exact accounted.addIndex found name callback compare unique
    · exact accounted
  | addForeign fault table index foreign mode =>
    simp only [Session.apply]
    split
    · exact accounted.addForeign fault _ _ mode
    · exact accounted
  | openRecordset fault table index key =>
    simp only [Session.apply]
    split
    · cases fault
      · exact accounted.alloc_recordset _ key _ false
      · exact accounted
    · exact accounted
  | openJoin faults table list =>
    simp only [Session.apply]
    split
    · next owner members _ named =>
      cases made : Recordset.join faults owner members session.sys with
      | mk joined rest =>
        obtain ⟨members', sys⟩ := rest
        exact accounted.openJoin named made
    · exact accounted
  | closeRecordset position =>
    simp only [Session.apply]
    split
    · next recordset found => exact accounted.closeRecordset found
    · exact accounted

theorem Accounted.run {session : Session} (accounted : Accounted session) :
    ∀ {actions : List Action}, (∀ action ∈ actions, action.IndexAnswered) →
      Accounted (session.run actions)
  | [], _ => accounted
  | _ :: _, answered => by
    have applied := accounted.apply (answered _ (List.mem_cons_self _ _))
    unfold Session.run
    split
    · exact applied
    · exact applied.run fun action inRest => answered action (List.mem_cons_of_mem _ inRest)

/-! ## Every handle closed once -/

/-- In a run where the engine answers every call of `index::index`, the destructors close every
handle made exactly once, and no `NULL` handle. -/
theorem handles_closed_once (fault : Option DbError) {actions : List Action}
    (answered : ∀ action ∈ actions, action.IndexAnswered) :
    let session := freshSession.run actions
    let closed := Database.destroy fault (session.sys.withHandles
      (session.recordsets.foldl (fun handles recordset => recordset.destroy handles)
        session.sys.engine.handles))
    closed.handles.closes.Perm ((List.range closed.handles.fresh).map some) := by
  intro session closed
  have accounted := accounted_freshSession.run answered
  have destroyed : closed.handles = (session.sys.engine.handles.closeAll
      (session.recordsets.flatMap Recordset.held)).closeAll session.sys.database.held := by
    show (Database.destroy fault _).handles = _
    rw [Database.destroy_handles, foldl_closeAll Recordset.destroy_eq]
    rfl
  have balanced : closed.handles.Balanced [] := by
    rw [destroyed]
    exact Handles.Balanced.closeAll (show Handles.Balanced _ ([] ++ _) from accounted.balanced.closeAll)
  simpa only [Handles.Balanced, List.append_nil] using balanced

/-- Open a missing sequence record, add `t` and an index `i`, open two recordsets, delete one. -/
def answeredIndexRun : List Action :=
  [.addSequence (fun _ => none) [1] false,
    .addTable (fun _ => none) "t" none true,
    .addIndex (fun _ => none) 0 "i" (fun key _ => some key) none false,
    .openRecordset none 0 (some 0) none,
    .openRecordset none 0 (some 0) (some [7]),
    .closeRecordset 0]

theorem handles_closed_once_answered :
    (∀ action ∈ answeredIndexRun, action.IndexAnswered) ∧
      let session := freshSession.run answeredIndexRun
      let closed := Database.destroy none (session.sys.withHandles
        (session.recordsets.foldl (fun handles recordset => recordset.destroy handles)
          session.sys.engine.handles))
      closed.handles.closes.Perm ((List.range closed.handles.fresh).map some) := by
  have answered : ∀ action ∈ answeredIndexRun, action.IndexAnswered := by
    simp [answeredIndexRun, Action.IndexAnswered]
  exact ⟨answered, handles_closed_once none answered⟩

end Bdb
