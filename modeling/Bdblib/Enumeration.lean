import Bdblib.Recordset
import Bdblib.Table

/-!
# Enumerating a recordset

`fetch` and `rewind` on a recordset of a table, of an index, or of one key of an index follow
one law. The `n`-th successful `fetch` since the recordset was built or rewound returns the
`n`-th element of a list, and once the list is exhausted `fetch` returns `false` until the next
`rewind`. The list is the table's records in key order. For an index it is the primary key and
data of each entry, in (index key, primary key) order, and for one key it is those of the
entries of an equal key.

A cursor walks the positions of the engine's records, and `m_isset` tells whether it stands
before the walk or on an entry of it. The walk of a table or an index takes every entry from the
first (`DB_FIRST`, `DB_NEXT`). The walk of one key takes entries from the first equal one for as
long as they stay equal (`DB_SET`, `DB_NEXT_DUP`). In records sorted by key those are exactly
the entries of an equal key.
-/

namespace Bdb

/-! ## Walks over records -/

namespace Records

/-- The walk from the first entry `accept` holds of, going on while it holds. -/
def walk (accept : Bytes × Bytes → Bool) (records : Records) : Records :=
  (records.dropWhile fun entry => !accept entry).takeWhile accept

theorem takeWhile_drop (accept : Bytes × Bytes → Bool) (records : Records) (position : Nat) :
    (records.drop position).takeWhile accept =
      match records[position]? with
      | some entry =>
        if accept entry then entry :: (records.drop (position + 1)).takeWhile accept else []
      | none => [] := by
  cases found : records[position]? with
  | none => rw [List.drop_eq_nil_of_le (List.getElem?_eq_none_iff.mp found), List.takeWhile_nil]
  | some entry =>
    obtain ⟨inside, rfl⟩ := List.getElem?_eq_some_iff.mp found
    rw [List.drop_eq_getElem_cons inside, List.takeWhile_cons]

theorem walk_eq (accept : Bytes × Bytes → Bool) (records : Records) :
    walk accept records =
      match records.findIdx? accept with
      | some start => (records.drop start).takeWhile accept
      | none => [] := by
  induction records with
  | nil => rfl
  | cons entry rest induction =>
    by_cases accepted : accept entry
    · simp [walk, accepted]
    · rw [show walk accept (entry :: rest) = walk accept rest by simp [walk, accepted], induction]
      cases found : rest.findIdx? accept <;> simp [accepted, found]

theorem walk_true (records : Records) : walk (fun _ => true) records = records := by
  rw [walk, List.takeWhile_eq_self_iff.mpr fun _ _ => rfl]
  cases records <;> rfl

section Sorted

variable (order : Bytes → Bytes → Ordering) [Batteries.TransCmp order] (key : Bytes)

theorem filter_eq_takeWhile {records : Records}
    (sorted : records.Pairwise fun one other => order one.1 other.1 ≠ .gt)
    (after : ∀ entry ∈ records, order key entry.1 ≠ .gt) :
    records.filter (fun entry => order key entry.1 = .eq) =
      records.takeWhile fun entry => order key entry.1 = .eq := by
  induction records with
  | nil => rfl
  | cons entry rest induction =>
    obtain ⟨above, sortedRest⟩ := List.pairwise_cons.mp sorted
    by_cases equal : order key entry.1 = .eq
    · simp [equal, induction sortedRest fun other member => after other (List.mem_cons_of_mem _ member)]
    · have below : order key entry.1 = .lt := by
        have := after entry (List.mem_cons_self _ _)
        cases ordered : order key entry.1 <;> simp_all
      have later : ∀ other ∈ rest, ¬order key other.1 = .eq := fun other member => by
        rw [Batteries.TransCmp.lt_le_trans below (above other member)]
        exact nofun
      rw [List.filter_cons_of_neg (by simpa using equal), List.takeWhile_cons_of_neg (by simpa using equal),
        List.filter_eq_nil_iff.mpr fun other member => by simpa using later other member]

theorem filter_eq_walk {records : Records}
    (sorted : records.Pairwise fun one other => order one.1 other.1 ≠ .gt) :
    records.filter (fun entry => order key entry.1 = .eq) =
      walk (fun entry => order key entry.1 = .eq) records := by
  induction records with
  | nil => rfl
  | cons entry rest induction =>
    obtain ⟨above, sortedRest⟩ := List.pairwise_cons.mp sorted
    by_cases equal : order key entry.1 = .eq
    · have after : ∀ other ∈ rest, order key other.1 ≠ .gt := fun other member =>
        Batteries.TransCmp.le_trans (by rw [equal]; exact nofun) (above other member)
      simp [walk, equal, filter_eq_takeWhile order key sortedRest after]
    · simp [walk, equal] at induction ⊢
      exact induction sortedRest

end Sorted

end Records

/-! ## Where a cursor stands -/

/-- The entries a recordset's walk takes: all, or those of a key equal to its own. -/
def Recordset.accepts (order : Bytes → Bytes → Ordering) (kind : RecordsetKind)
    (key : Option Bytes) (entry : Bytes × Bytes) : Bool :=
  match kind with
  | .unique => order (key.getD []) entry.1 = .eq
  | _ => true

@[simp]
theorem Recordset.accepts_table (order : Bytes → Bytes → Ordering) (key : Option Bytes) :
    Recordset.accepts order .table key = fun _ => true := rfl

@[simp]
theorem Recordset.accepts_duplicates (order : Bytes → Bytes → Ordering) (key : Option Bytes) :
    Recordset.accepts order .duplicates key = fun _ => true := rfl

@[simp]
theorem Recordset.accepts_unique (order : Bytes → Bytes → Ordering) (key : Option Bytes) :
    Recordset.accepts order .unique key = fun entry : Bytes × Bytes =>
      order (key.getD []) entry.1 = .eq := rfl

/-- Where a cursor at `position` stands in a walk with `rest` to come: before it, or on an entry. -/
def Stands (accept : Bytes × Bytes → Bool) (records : Records) (position : Option Nat) :
    Bool → Records → Prop
  | false, rest => rest = Records.walk accept records
  | true, rest => ∃ current entry, position = some current ∧ records[current]? = some entry ∧
      accept entry ∧ rest = (records.drop (current + 1)).takeWhile accept

/-- The movement `fetch` asks for goes to the walk's next entry, or fails at its end. -/
theorem target_stands {order : Bytes → Bytes → Ordering} [Batteries.TransCmp order]
    {recordset : Recordset} (notJoin : recordset.kind ≠ .join) {records : Records}
    {position : Option Nat} {rest : Records}
    (stands : Stands (Recordset.accepts order recordset.kind recordset.key) records position
      recordset.isset rest) :
    (rest = [] ∧ ∃ code, recordset.move.target order records position = .error code) ∨
      ∃ entry more next, rest = entry :: more ∧
        recordset.move.target order records position = .ok next ∧ records[next]? = some entry ∧
        Stands (Recordset.accepts order recordset.kind recordset.key) records (some next) true more := by
  obtain ⟨cursor, key, kind, isset⟩ := recordset
  cases isset with
  | false =>
    simp only [Stands] at stands
    subst stands
    cases kind with
    | join => exact absurd rfl notJoin
    | unique =>
      simp only [Recordset.accepts_unique, Recordset.move, Move.target, Records.walk_eq]
      cases start : records.findIdx? fun entry => order (key.getD []) entry.1 = .eq with
      | none => exact .inl ⟨rfl, .notFound, rfl⟩
      | some first =>
        obtain ⟨inside, accepted, -⟩ := List.findIdx?_eq_some_iff_getElem.mp start
        dsimp only
        rw [Records.takeWhile_drop, List.getElem?_eq_getElem inside]
        simp only [accepted, if_true]
        exact .inr ⟨_, _, first, rfl, rfl, List.getElem?_eq_getElem inside, first, _, rfl,
          List.getElem?_eq_getElem inside, accepted, rfl⟩
    | table | duplicates =>
      simp only [Recordset.accepts_table, Recordset.accepts_duplicates, Records.walk_true,
        Recordset.move, Move.target]
      cases records with
      | nil => exact .inl ⟨rfl, .notFound, rfl⟩
      | cons entry more =>
        exact .inr ⟨entry, more, 0, rfl, rfl, by simp, 0, entry, rfl, by simp, rfl,
          (List.takeWhile_eq_self_iff.mpr fun _ _ => rfl).symm⟩
  | true =>
    obtain ⟨current, entry, rfl, here, accepted, rfl⟩ := stands
    rw [Records.takeWhile_drop]
    cases there : records[current + 1]? with
    | none =>
      refine .inl ⟨rfl, .notFound, ?_⟩
      cases kind with
      | join => exact absurd rfl notJoin
      | unique => simp [Recordset.move, Move.target, here, there]
      | table | duplicates =>
        have : ¬current + 1 < records.length := by simpa using there
        simp [Recordset.move, Move.target, this]
    | some following =>
      have inside : current + 1 < records.length := (List.getElem?_eq_some_iff.mp there).1
      cases kind with
      | join => exact absurd rfl notJoin
      | unique =>
        have same : order entry.1 following.1 = order (key.getD []) following.1 :=
          (Batteries.TransCmp.cmp_congr_left (by simpa [Recordset.accepts] using accepted)).symm
        by_cases equal : order (key.getD []) following.1 = .eq
        · have taken : Recordset.accepts order .unique key following := by
            simpa [Recordset.accepts] using equal
          simp only [taken, if_true]
          exact .inr ⟨_, _, current + 1, rfl,
            by simp [Recordset.move, Move.target, here, there, same, equal], there, current + 1,
            following, rfl, there, taken, rfl⟩
        · have dropped : Recordset.accepts order .unique key following = false := by
            simpa [Recordset.accepts] using equal
          simp only [dropped]
          exact .inl ⟨rfl, .notFound, by simp [Recordset.move, Move.target, here, there, same, equal]⟩
      | table | duplicates =>
        exact .inr ⟨_, _, current + 1, rfl, by simp [Recordset.move, Move.target, inside], there,
          current + 1, following, rfl, there, rfl, rfl⟩

/-! ## A fetch as a step of the walk -/

/-- What `fetch` makes of an entry: a record, or an index entry's primary key and data. -/
def System.entryOutput (sys : System Store) (db : Nat) (txn : Option Nat) (kind : RecordsetKind)
    (entry : Bytes × Bytes) : Option (Bytes × Bytes) :=
  match kind with
  | .table => some entry
  | _ => (sys.primaryData db txn entry.2).toOption.map fun data => (entry.2, data)

/-- A fetch moves the cursor to its target and returns what it gives, or changes nothing. -/
theorem Recordset.fetch_eq {Message : Type} (codec : Codec Message) {recordset : Recordset}
    {sys : System Store} {cursor db : Nat} {txn position : Option Nat} {handle : DbHandle}
    (placed : recordset.cursor = some cursor)
    (state : sys.engine.handles.heap cursor = some (.cursor ⟨db, txn, position⟩))
    (found : sys.engine.handles.dbHandle db = some handle) (notJoin : recordset.kind ≠ .join) :
    recordset.fetch codec none sys =
      match (recordset.move.target handle.keyOrder ((sys.engine.txn.view txn).records handle)
          position).toOption.bind fun next =>
          ((((sys.engine.txn.view txn).records handle)[next]?).bind
            (sys.entryOutput db txn recordset.kind)).map (next, ·) with
      | some (next, key, data) =>
        (some (codec.parse key, codec.parse data), { recordset with isset := true },
          sys.withHandles (sys.engine.handles.set cursor (.cursor ⟨db, txn, some next⟩)))
      | none => (none, recordset, sys) := by
  obtain ⟨_, key, kind, isset⟩ := recordset
  simp only at placed notJoin
  subst placed
  unfold Recordset.fetch Recordset.read
  cases kind with
  | join => exact absurd rfl notJoin
  | table =>
    simp only [System.cursorGet, state, found]
    cases (Recordset.move ⟨some cursor, key, .table, isset⟩).target handle.keyOrder
      ((sys.engine.txn.view txn).records handle) position with
    | error code => rfl
    | ok next =>
      cases entry : ((sys.engine.txn.view txn).records handle)[next]? <;>
        simp [entry, Except.toOption, System.entryOutput]
  | duplicates | unique =>
    simp only [System.cursorPget, System.cursorGet, state, found]
    cases (Recordset.move ⟨some cursor, key, _, isset⟩).target handle.keyOrder
      ((sys.engine.txn.view txn).records handle) position with
    | error code => rfl
    | ok next =>
      cases entry : ((sys.engine.txn.view txn).records handle)[next]? with
      | none => simp [entry, Except.toOption]
      | some entry' =>
        cases data : sys.primaryData db txn entry'.2 <;>
          simp [entry, data, Except.toOption, System.entryOutput]

theorem Handles.dbHandle_set_cursor {handles : Handles} {cursor : Nat} {state state' : Cursor}
    (was : handles.heap cursor = some (.cursor state)) :
    (handles.set cursor (.cursor state')).dbHandle = handles.dbHandle := by
  funext handle
  by_cases here : handle = cursor
  · subst here; simp [Handles.dbHandle, Handles.set, was]
  · simp [Handles.dbHandle, Handles.set, Function.update_noteq here]

theorem System.entryOutput_withHandles (sys : System Store) {handles : Handles}
    (same : handles.dbHandle = sys.engine.handles.dbHandle) :
    (sys.withHandles handles).entryOutput = sys.entryOutput := by
  have get : Access.get handles = Access.get sys.engine.handles := by
    funext db key store
    simp only [Access.get, same]
  funext db txn kind entry
  simp only [System.entryOutput, System.primaryData, System.withHandles_handles, same, get]
  rfl

/-! ## Runs of `fetch` and `rewind` -/

/-- A call on a recordset. -/
inductive RecordsetCall where
  /-- `recordset::fetch`. -/
  | fetch
  /-- `recordset::rewind`. -/
  | rewind

/-- The law over `list`: after `count` elements, `fetch` returns the next, if there is one. -/
def enumerate {α : Type} (list : List α) : Nat → List RecordsetCall → List (Option α)
  | _, [] => []
  | count, .fetch :: rest =>
    list[count]? :: enumerate list (if count < list.length then count + 1 else count) rest
  | _, .rewind :: rest => enumerate list 0 rest

/-- A run of calls on a recordset, the engine answering every call: what each `fetch` returns. -/
def Recordset.run {Message : Type} (codec : Codec Message) :
    Recordset → System Store → List RecordsetCall → List (Option (Message × Message))
  | _, _, [] => []
  | recordset, sys, .fetch :: rest =>
    (recordset.fetch codec none sys).1 ::
      Recordset.run codec (recordset.fetch codec none sys).2.1 (recordset.fetch codec none sys).2.2
        rest
  | recordset, sys, .rewind :: rest =>
    match recordset.rewind with
    | .ok rewound => Recordset.run codec rewound sys rest
    | .error _ => Recordset.run codec recordset sys rest

/-- A recordset at `position` in the walk of `handle`, after `count` of `list`, `rest` to come. -/
structure Walking (db : Nat) (handle : DbHandle) (txn : Option Nat) (list : List (Bytes × Bytes))
    (recordset : Recordset) (sys : System Store) (position : Option Nat) (rest : Records)
    (count : Nat) : Prop where
  /-- The recordset reads a table, an index, or one key of an index. -/
  notJoin : recordset.kind ≠ .join
  /-- Its cursor is at `position` in the database `db`. -/
  placed : ∃ cursor, recordset.cursor = some cursor ∧
    sys.engine.handles.heap cursor = some (.cursor ⟨db, txn, position⟩)
  /-- The database is open. -/
  found : sys.engine.handles.dbHandle db = some handle
  /-- Where the cursor stands in the walk. -/
  stands : Stands (Recordset.accepts handle.keyOrder recordset.kind recordset.key)
    ((sys.engine.txn.view txn).records handle) position recordset.isset rest
  /-- The list is what the whole walk gives. -/
  whole : list = (Records.walk (Recordset.accepts handle.keyOrder recordset.kind recordset.key)
    ((sys.engine.txn.view txn).records handle)).filterMap (sys.entryOutput db txn recordset.kind)
  /-- What is left of the list is what the rest of the walk gives. -/
  remaining : list.drop count = rest.filterMap (sys.entryOutput db txn recordset.kind)
  /-- A recordset not positioned has handed out nothing. -/
  before : recordset.isset = false → count = 0
  /-- Every entry gives an output: the primary record of each index entry is there. -/
  consistent : ∀ entry ∈ (sys.engine.txn.view txn).records handle,
    (sys.entryOutput db txn recordset.kind entry).isSome

namespace Walking

variable {db : Nat} {handle : DbHandle} {txn : Option Nat} {list : List (Bytes × Bytes)}
  {recordset : Recordset} {sys : System Store} {position : Option Nat} {rest : Records}
  {count : Nat}

/-- A fetch returns the element at `count` and moves on, or `false` at the end of the list. -/
theorem fetch {Message : Type} (codec : Codec Message)
    (walking : Walking db handle txn list recordset sys position rest count) :
    (recordset.fetch codec none sys).1 =
        list[count]?.map (fun pair => (codec.parse pair.1, codec.parse pair.2)) ∧
      ∃ position' rest', Walking db handle txn list (recordset.fetch codec none sys).2.1
        (recordset.fetch codec none sys).2.2 position' rest'
        (if count < list.length then count + 1 else count) := by
  obtain ⟨cursor, placed, state⟩ := walking.placed
  have fetched := Recordset.fetch_eq codec placed state walking.found walking.notJoin
  rcases target_stands walking.notJoin walking.stands with
    ⟨rfl, code, failed⟩ | ⟨entry, more, next, rfl, moved, here, stands⟩
  · have ended : list.length ≤ count := List.drop_eq_nil_iff.mp (by simpa using walking.remaining)
    simp only [failed, Except.toOption, Option.none_bind] at fetched
    rw [fetched, if_neg (Nat.not_lt.mpr ended)]
    exact ⟨by simp [List.getElem?_eq_none_iff.mpr ended], position, [], walking⟩
  · obtain ⟨pair, output⟩ :=
      Option.isSome_iff_exists.mp (walking.consistent entry (List.getElem?_mem here))
    have listed : list.drop count = pair :: more.filterMap (sys.entryOutput db txn recordset.kind) := by
      rw [walking.remaining, List.filterMap_cons, output]
    have inside : count < list.length := by
      by_contra outside
      rw [List.drop_eq_nil_of_le (Nat.not_lt.mp outside)] at listed
      exact List.noConfusion listed
    have element : list[count]? = some pair := by
      rw [← List.head?_drop, listed]
      rfl
    have same := @Handles.dbHandle_set_cursor _ cursor _ ⟨db, txn, some next⟩ state
    simp only [moved, here, output, Except.toOption, Option.some_bind, Option.map_some'] at fetched
    rw [fetched, if_pos inside, element]
    refine ⟨rfl, some next, more, ⟨walking.notJoin, ⟨cursor, placed, by simp [Handles.set]⟩,
      by rw [System.withHandles_handles, same]; exact walking.found, stands, ?_, ?_, nofun, ?_⟩⟩
    all_goals rw [System.entryOutput_withHandles _ same]
    · exact walking.whole
    · rw [← List.drop_drop, listed]
      rfl
    · exact walking.consistent

theorem rewind (walking : Walking db handle txn list recordset sys position rest count) :
    recordset.rewind = .ok { recordset with isset := false } ∧
      Walking db handle txn list { recordset with isset := false } sys position
        (Records.walk (Recordset.accepts handle.keyOrder recordset.kind recordset.key)
          ((sys.engine.txn.view txn).records handle)) 0 :=
  ⟨by simp [Recordset.rewind, walking.notJoin],
    ⟨walking.notJoin, walking.placed, walking.found, rfl, walking.whole, walking.whole, fun _ => rfl,
      walking.consistent⟩⟩

end Walking

/-- A walking recordset follows the law of its list, whatever the calls. -/
theorem Walking.run {Message : Type} (codec : Codec Message) {db : Nat} {handle : DbHandle}
    {txn : Option Nat} {list : List (Bytes × Bytes)} :
    ∀ (calls : List RecordsetCall) {recordset : Recordset} {sys : System Store}
      {position : Option Nat} {rest : Records} {count : Nat},
      Walking db handle txn list recordset sys position rest count →
      recordset.run codec sys calls =
        enumerate (list.map fun pair => (codec.parse pair.1, codec.parse pair.2)) count calls
  | [], _, _, _, _, _, _ => rfl
  | .fetch :: more, _, _, _, _, count, walking => by
    obtain ⟨fetched, position', rest', next⟩ := walking.fetch codec
    simp only [Recordset.run, enumerate, fetched, List.getElem?_map, List.length_map]
    rw [Walking.run codec more next]
  | .rewind :: more, _, _, _, _, _, walking => by
    obtain ⟨rewound, next⟩ := walking.rewind
    simp only [Recordset.run, enumerate, rewound]
    exact Walking.run codec more next

/-! ## The law of a recordset -/

/-- The list a recordset enumerates: a table's records in key order; for an index, the primary key
and data of its entries in index-key order, ties by primary key; for one key, those of the entries
equal to it. -/
def Recordset.expected (handle : DbHandle) (data : Bytes → Option Bytes) (kind : RecordsetKind)
    (key : Option Bytes) (records : Records) : List (Bytes × Bytes) :=
  let byIndex := records.mergeSort fun one other =>
    (Records.pairOrder handle.keyOrder handle.dupOrder one other).isLE
  let withData (entries : Records) := entries.filterMap fun entry => (data entry.2).map (entry.2, ·)
  match kind with
  | .table => records.mergeSort fun one other => (handle.keyOrder one.1 other.1).isLE
  | .duplicates => withData byIndex
  | .unique => withData (byIndex.filter fun entry => handle.keyOrder (key.getD []) entry.1 = .eq)
  | .join => []

theorem Ordering.isLE_iff_ne_gt (ordering : Ordering) : ordering.isLE ↔ ordering ≠ .gt := by
  cases ordering <;> decide

theorem Records.keyOrder_ne_gt_of_pairOrder {order dupOrder : Bytes → Bytes → Ordering}
    {one other : Bytes × Bytes} (ordered : (pairOrder order dupOrder one other).isLE) :
    order one.1 other.1 ≠ .gt := fun greater =>
  (Ordering.isLE_iff_ne_gt _).mp ordered (Ordering.then_eq_gt.mpr (.inl greater))

@[simp]
theorem System.entryOutput_table (sys : System Store) (db : Nat) (txn : Option Nat) :
    sys.entryOutput db txn .table = some := rfl

theorem Recordset.walk_expected {sys : System Store} {db : Nat} {txn : Option Nat}
    {handle : DbHandle} {kind : RecordsetKind} (notJoin : kind ≠ .join) (key : Option Bytes)
    {records : Records}
    (sorted : records.Pairwise fun one other =>
      (Records.pairOrder handle.keyOrder handle.dupOrder one other).isLE) :
    (Records.walk (Recordset.accepts handle.keyOrder kind key) records).filterMap
        (sys.entryOutput db txn kind) =
      Recordset.expected handle (fun primaryKey => (sys.primaryData db txn primaryKey).toOption)
        kind key records := by
  have byKey := sorted.imp Records.keyOrder_ne_gt_of_pairOrder
  have ordered := List.mergeSort_of_sorted sorted
  cases kind with
  | join => exact absurd rfl notJoin
  | table =>
    simp only [Recordset.accepts_table, Records.walk_true, System.entryOutput_table, expected,
      List.filterMap_some]
    exact (List.mergeSort_of_sorted (byKey.imp (Ordering.isLE_iff_ne_gt _).mpr)).symm
  | duplicates =>
    simp only [Recordset.accepts_duplicates, Records.walk_true, expected, ordered]
    rfl
  | unique =>
    simp only [Recordset.accepts_unique, expected, ordered,
      ← Records.filter_eq_walk handle.keyOrder (key.getD []) byKey]
    rfl

/-- Every sequence of `fetch` and `rewind` on a recordset follows the law of its list, over records
in B-tree order whose index entries all have their primary record. -/
theorem recordset_fetch_rewind {Message : Type} (codec : Codec Message)
    {sys opened : System Store} {db : Nat} {handle : DbHandle} {kind : RecordsetKind}
    {key : Option Bytes} {recordset : Recordset} (notJoin : kind ≠ .join)
    (created : Recordset.new none db kind key sys = (.ok recordset, opened))
    (found : opened.engine.handles.dbHandle db = some handle)
    (sorted : ((opened.engine.txn.view opened.database.txns.head?).records handle).Pairwise
      fun one other => (Records.pairOrder handle.keyOrder handle.dupOrder one other).isLE)
    (consistent : kind ≠ .table →
      ∀ entry ∈ (opened.engine.txn.view opened.database.txns.head?).records handle,
        (opened.primaryData db opened.database.txns.head? entry.2).toOption.isSome)
    (calls : List RecordsetCall) :
    recordset.run codec opened calls =
      enumerate ((Recordset.expected handle
        (fun primaryKey => (opened.primaryData db opened.database.txns.head? primaryKey).toOption)
        kind key ((opened.engine.txn.view opened.database.txns.head?).records handle)).map
          fun pair => (codec.parse pair.1, codec.parse pair.2)) 0 calls := by
  simp only [Recordset.new, Prod.mk.injEq, Except.ok.injEq] at created
  obtain ⟨rfl, rfl⟩ := created
  rw [← Recordset.walk_expected notJoin key sorted]
  refine @Walking.run Message codec db handle sys.database.txns.head? _ calls _ _ none _ 0
    ⟨notJoin, ⟨_, rfl, by simp [Handles.alloc]⟩, found, rfl, rfl, rfl, fun _ => rfl,
      fun entry _ => ?_⟩
  cases kind with
  | table => rfl
  | duplicates | unique =>
    simpa [System.entryOutput] using consistent nofun entry ‹_›
  | join => exact absurd rfl notJoin

/-- The callback of an index of the join example: the byte `byte` of the data. -/
def joinExampleCallback (byte : Nat) : IndexCallback := fun _ data => data[byte]?.map ([·])

/-- An index of the join example on the byte `byte` of the data, open on `file`. -/
def joinExampleIndex (file : String) (byte : Nat) : DbHandle :=
  { dupSort := true, file := some file, primary := some (0, joinExampleCallback byte) }

/-- The records of the join example's table. -/
def joinExampleRecords : Records := [([1], [7, 8]), ([2], [7, 9]), ([3], [6, 8])]

/-- The entries `DB->associate` builds in an index of the join example. -/
def joinExampleEntries (file : String) (byte : Nat) : Records :=
  buildSecondary (joinExampleIndex file byte) (joinExampleCallback byte) joinExampleRecords []

/-- The files of the join example: the table, and indexes on the data's first and second byte. -/
def joinExampleStore : Store :=
  ⟨fun file => if file = "t.db" then some joinExampleRecords
    else if file = "a.ix" then some (joinExampleEntries "a.ix" 0)
    else if file = "b.ix" then some (joinExampleEntries "b.ix" 1)
    else none, fun _ => none⟩

/-- The table of the join example, with its two indexes. -/
def joinExampleTable : DbHandle := { file := some "t.db", secondaries := [1, 2] }

/-- The join example: the table on `0`, its indexes on `1` and `2`, recordsets on `3` and `4`. -/
def joinExample : System Store :=
  ⟨⟨none, none, [], [], []⟩, ⟨TxnTable.empty joinExampleStore, ⟨5, fun
    | 0 => some (.db joinExampleTable)
    | 1 => some (.db (joinExampleIndex "a.ix" 0))
    | 2 => some (.db (joinExampleIndex "b.ix" 1))
    | 3 => some (.cursor ⟨1, none, none⟩)
    | 4 => some (.cursor ⟨2, none, none⟩)
    | _ => none, []⟩⟩⟩

theorem recordset_fetch_rewind_table_index :
    let sys := ((System.fresh.addTable (fun _ => none) "t" none true).2.tableRun Codec.bytes
      Codec.bytes (fun _ => none) 2 [.insert [2] [20], .insert [1] [10]]).2
    (Recordset.new none 2 .table none sys =
        (.ok ⟨some 3, none, .table, false⟩, (Recordset.new none 2 .table none sys).2) ∧
      (⟨some 3, none, .table, false⟩ : Recordset).run Codec.bytes
          (Recordset.new none 2 .table none sys).2 [.fetch, .fetch, .fetch, .rewind, .fetch] =
        [some ([1], [10]), some ([2], [20]), none, some ([1], [10])]) ∧
    Recordset.new none 1 .unique (some [7]) joinExample =
        (.ok ⟨some 5, some [7], .unique, false⟩,
          (Recordset.new none 1 .unique (some [7]) joinExample).2) ∧
      (⟨some 5, some [7], .unique, false⟩ : Recordset).run Codec.bytes
          (Recordset.new none 1 .unique (some [7]) joinExample).2
          [.fetch, .fetch, .fetch, .rewind, .fetch] =
        [some ([1], [7, 8]), some ([2], [7, 9]), none, some ([1], [7, 8])] := by
  intro sys
  have sortedTable : List.Pairwise (fun one other => (defaultCompare one.1 other.1).isLE)
      [(([1] : Bytes), ([10] : Bytes)), ([2], [20])] := by decide
  have sortedIndex : (joinExampleEntries "a.ix" 0).Pairwise fun one other =>
      (Records.pairOrder defaultCompare defaultCompare one other).isLE := by decide
  refine ⟨⟨rfl, (@recordset_fetch_rewind Bytes Codec.bytes sys _ 2 { file := some "t.db" } .table
    none _ nofun rfl rfl (by decide) (fun table => absurd rfl table) _).trans ?_⟩, rfl,
    (@recordset_fetch_rewind Bytes Codec.bytes joinExample _ 1 (joinExampleIndex "a.ix" 0) .unique
      (some [7]) _ nofun rfl rfl sortedIndex (fun _ => by decide) _).trans ?_⟩
  · rw [Recordset.expected, List.mergeSort_of_sorted]
    exacts [by decide, sortedTable]
  · rw [Recordset.expected]
    dsimp only
    rw [List.mergeSort_of_sorted]
    exacts [by decide, sortedIndex]

end Bdb
