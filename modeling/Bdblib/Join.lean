import Bdblib.Enumeration
import Bdblib.Indexing

/-!
# Joins

`recordset(table, list)` positions each single-key recordset of its list on its key (`DB_SET`)
and opens a join cursor over their cursors. The join cursor walks the duplicate set of one
constituent, the one with the fewest entries, and hands out the primary record of each entry
whose primary key every other constituent holds; the join's `m_isset` is cleared when some
constituent has no entry of its key, and `fetch` then reads nothing. So the fetches of a join
give, each once, exactly the records of the table that every constituent holds under its key.
-/

namespace Bdb

theorem Except.eq_ok_of_toOption {ε α : Type} {result : Except ε α} {value : α}
    (some : result.toOption = some value) : result = .ok value := by
  cases result with
  | error => cases some
  | ok => cases some; rfl

/-! ## The walk of a join cursor -/

section Walk

variable (order : Bytes → Bytes → Ordering) (member : Bytes → Bool) (key : Bytes)

/-- The entries a join walk hands out: those of `key` at the start of `records` `member` accepts. -/
def joinAccepted (records : Records) : Records :=
  (records.takeWhile fun entry => order key entry.1 = .eq).filter fun entry => member entry.2

variable {order member key}

theorem joinNext_none : ∀ {records : Records} {position : Nat},
    joinNext order member key position records = none → joinAccepted order member key records = []
  | [], _, _ => rfl
  | entry :: rest, position, nothing => by
    unfold joinNext at nothing
    by_cases equal : order key entry.1 = .eq
    · by_cases accepted : member entry.2 = true
      · simp [equal, accepted] at nothing
      · simp only [equal, accepted, ne_eq, not_true_eq_false, if_false, Bool.false_eq_true]
          at nothing
        simpa [joinAccepted, equal, accepted] using joinNext_none nothing
    · simp [joinAccepted, equal]

theorem joinNext_some : ∀ {records : Records} {position found : Nat} {primaryKey : Bytes},
    joinNext order member key position records = some (found, primaryKey) →
    ∃ offset entry, found = position + offset ∧ records[offset]? = some entry ∧
      entry.2 = primaryKey ∧
      joinAccepted order member key records =
        entry :: joinAccepted order member key (records.drop (offset + 1))
  | [], _, _, _, walked => by cases walked
  | entry :: rest, position, found, primaryKey, walked => by
    unfold joinNext at walked
    by_cases equal : order key entry.1 = .eq
    · by_cases accepted : member entry.2 = true
      · simp only [equal, accepted, ne_eq, not_true_eq_false, if_false, if_true,
          Option.some.injEq, Prod.mk.injEq] at walked
        obtain ⟨rfl, rfl⟩ := walked
        exact ⟨0, entry, rfl, by simp, rfl, by simp [joinAccepted, equal, accepted]⟩
      · simp only [equal, accepted, ne_eq, not_true_eq_false, if_false, Bool.false_eq_true]
          at walked
        obtain ⟨offset, entry', rfl, here, named, rest'⟩ := joinNext_some walked
        refine ⟨offset + 1, entry', by omega, by simpa using here, named, ?_⟩
        simpa [joinAccepted, equal, accepted] using rest'
    · simp [equal] at walked

/-- On sorted records, a walk from the first entry of the key accepts those `member` accepts. -/
theorem joinAccepted_drop [Batteries.TransCmp order] {records : Records} {start : Nat}
    (sorted : records.Pairwise fun one other => order one.1 other.1 ≠ .gt)
    (starts : records.findIdx? (fun entry => order key entry.1 = .eq) = some start) :
    joinAccepted order member key (records.drop start) =
      (records.filter fun entry => order key entry.1 = .eq).filter fun entry => member entry.2 := by
  rw [Records.filter_eq_walk order key sorted, Records.walk_eq, starts]
  rfl

end Walk

/-! ## What a join cursor hands out -/

theorem Handles.dbHandle_set_join {handles : Handles} {cursor : Nat} {state state' : JoinCursor}
    (was : handles.heap cursor = some (.join state)) :
    (handles.set cursor (.join state')).dbHandle = handles.dbHandle := by
  funext handle
  by_cases here : handle = cursor
  · subst here; simp [Handles.dbHandle, Handles.set, was]
  · exact Handles.dbHandle_set_of_ne _ here _

namespace System

variable (sys : System Store)

/-- What a join cursor in `state` still hands out: what its walk accepts from `state.next` on. -/
def joinRemaining (state : JoinCursor) : List (Bytes × Bytes) :=
  match state.cursors with
  | [] => []
  | (index, key) :: others =>
    match sys.engine.handles.dbHandle index with
    | none => []
    | some handle =>
      (joinAccepted handle.keyOrder (fun key' => others.all (sys.joinHolds state.txn key')) key
          (((sys.engine.txn.view state.txn).records handle).drop state.next)).filterMap
        fun entry => (Access.get sys.engine.handles state.db entry.2
          (sys.engine.txn.view state.txn)).toOption.map (entry.2, ·)

variable {sys}

theorem joinRemaining_withHandles {handles : Handles}
    (same : handles.dbHandle = sys.engine.handles.dbHandle) :
    (sys.withHandles handles).joinRemaining = sys.joinRemaining := by
  have holds : (sys.withHandles handles).joinHolds = sys.joinHolds := by
    funext txn key constituent
    simp only [joinHolds, withHandles_handles, same]
    rfl
  funext state
  simp only [joinRemaining, withHandles_handles, same, Access.get_congr _ same, holds]
  rfl

/-- A join cursor hands out the next record of its walk and moves past it, or fails at the end. -/
theorem joinGet_eq {cursor : Nat} {state : JoinCursor} {index : Nat} {key : Bytes}
    {others : List (Nat × Bytes)} {handle : DbHandle}
    (joined : sys.engine.handles.heap cursor = some (.join state))
    (walked : state.cursors = (index, key) :: others)
    (found : sys.engine.handles.dbHandle index = some handle)
    (consistent : ∀ entry ∈ (sys.engine.txn.view state.txn).records handle,
      (Access.get sys.engine.handles state.db entry.2 (sys.engine.txn.view state.txn)).toOption.isSome) :
    (sys.joinRemaining state = [] ∧ ∃ code, sys.joinGet cursor = (.error code, sys)) ∨
      ∃ pair next, sys.joinGet cursor =
          (.ok pair, sys.withHandles (sys.engine.handles.set cursor (.join { state with next }))) ∧
        sys.joinRemaining state = pair :: sys.joinRemaining { state with next } := by
  have remaining : sys.joinRemaining state = (joinAccepted handle.keyOrder
      (fun key' => others.all (sys.joinHolds state.txn key')) key
        (((sys.engine.txn.view state.txn).records handle).drop state.next)).filterMap
      fun entry => (Access.get sys.engine.handles state.db entry.2
        (sys.engine.txn.view state.txn)).toOption.map (entry.2, ·) := by
    simp only [joinRemaining, walked, found]
  simp only [joinGet, joined, walked, found]
  cases walk : joinNext handle.keyOrder (fun key' => others.all (sys.joinHolds state.txn key'))
      key state.next (((sys.engine.txn.view state.txn).records handle).drop state.next) with
  | none => exact .inl ⟨by rw [remaining, joinNext_none walk]; rfl, .notFound, rfl⟩
  | some candidate =>
    obtain ⟨position, primaryKey⟩ := candidate
    obtain ⟨offset, entry, rfl, here, named, accepted⟩ := joinNext_some walk
    obtain ⟨data, got⟩ := Option.isSome_iff_exists.mp
      (consistent entry (List.mem_of_mem_drop (List.getElem?_mem here)))
    rw [named] at got
    have fetched := Except.eq_ok_of_toOption got
    refine .inr ⟨(primaryKey, data), state.next + offset + 1, by simp only [fetched], ?_⟩
    rw [remaining, accepted, List.filterMap_cons, named, got]
    simp only [joinRemaining, walked, found, List.drop_drop, Option.map_some', ← Nat.add_assoc]

end System

/-- A join recordset that hands out `list` and has handed out `count` of it. -/
def JoinWalking (list : List (Bytes × Bytes)) (recordset : Recordset) (sys : System Store)
    (count : Nat) : Prop :=
  recordset.kind = .join ∧ ∃ cursor state, recordset.cursor = some cursor ∧
    sys.engine.handles.heap cursor = some (.join state) ∧
    (recordset.isset = false → list = []) ∧
    (recordset.isset = true → ∃ index key others handle, state.cursors = (index, key) :: others ∧
      sys.engine.handles.dbHandle index = some handle ∧
      (∀ entry ∈ (sys.engine.txn.view state.txn).records handle,
        (Access.get sys.engine.handles state.db entry.2 (sys.engine.txn.view state.txn)).toOption.isSome) ∧
      list.drop count = sys.joinRemaining state)

namespace JoinWalking

variable {list : List (Bytes × Bytes)} {recordset : Recordset} {sys : System Store} {count : Nat}

theorem fetch {Message : Type} (codec : Codec Message)
    (walking : JoinWalking list recordset sys count) :
    (recordset.fetch codec none sys).1 =
        list[count]?.map (fun pair => (codec.parse pair.1, codec.parse pair.2)) ∧
      JoinWalking list (recordset.fetch codec none sys).2.1 (recordset.fetch codec none sys).2.2
        (count + 1) := by
  obtain ⟨kind, cursor, state, placed, joined, unset, walks⟩ := walking
  obtain ⟨recordsetCursor, key, _, isset⟩ := recordset
  simp only at kind placed unset walks
  subst kind placed
  cases isset with
  | false =>
    rw [unset rfl]
    exact ⟨rfl, rfl, cursor, state, rfl, joined, fun _ => rfl, nofun⟩
  | true =>
    obtain ⟨index, key', others, handle, walked, found, consistent, remaining⟩ := walks rfl
    have read : (⟨some cursor, key, .join, true⟩ : Recordset).read sys = sys.joinGet cursor := rfl
    rcases System.joinGet_eq joined walked found consistent with
      ⟨ended, code, failed⟩ | ⟨pair, next, moved, step⟩
    · have past : list.drop count = [] := remaining.trans ended
      simp only [Recordset.fetch, read, failed]
      refine ⟨by simp [List.getElem?_eq_none_iff.mpr (List.drop_eq_nil_iff.mp past)], rfl,
        cursor, state, rfl, joined, nofun, fun _ => ⟨index, key', others, handle, walked, found,
          consistent, ?_⟩⟩
      rw [← List.drop_drop, past, List.drop_nil, ← remaining, past]
    · have element : list[count]? = some pair := by
        rw [← List.head?_drop, remaining, step]
        rfl
      have same := @Handles.dbHandle_set_join _ cursor state { state with next } joined
      have fetched : (⟨some cursor, key, .join, true⟩ : Recordset).fetch codec none sys =
          (some (codec.parse pair.1, codec.parse pair.2), ⟨some cursor, key, .join, true⟩,
            sys.withHandles (sys.engine.handles.set cursor (.join { state with next }))) := by
        simp only [Recordset.fetch, read, moved]
      rw [fetched, element]
      refine ⟨rfl, rfl, cursor, { state with next }, rfl, by simp [Handles.set], nofun,
        fun _ => ⟨index, key', others, handle, walked, by simpa [same] using found, ?_, ?_⟩⟩
      · simpa [same, Access.get] using consistent
      · rw [System.joinRemaining_withHandles same, ← List.drop_drop, remaining, step]
        rfl

/-- The `n`-th fetch of a run on a join returns the element at `count + n`, or `false`. -/
theorem run {Message : Type} (codec : Codec Message) :
    ∀ (fetches : Nat) {recordset : Recordset} {sys : System Store} {count : Nat},
      JoinWalking list recordset sys count →
      recordset.run codec sys (List.replicate fetches .fetch) =
        (List.range fetches).map fun n =>
          list[count + n]?.map fun pair => (codec.parse pair.1, codec.parse pair.2)
  | 0, _, _, _, _ => rfl
  | fetches + 1, _, _, count, walking => by
    obtain ⟨fetched, next⟩ := walking.fetch codec
    rw [List.replicate_succ, Recordset.run, run codec fetches next, List.range_succ_eq_map,
      List.map_cons, List.map_map, fetched]
    refine congrArg _ (List.map_congr_left fun n _ => ?_)
    rw [Function.comp_apply, show count + 1 + n = count + (n + 1) by omega]

end JoinWalking

/-! ## Positioning the constituents -/

namespace System

variable (sys : System Store)

/-- Whether the index `member.1` holds an entry of a key equal to `member.2`, as `txn` reads it. -/
def hasKey (txn : Option Nat) (member : Nat × Bytes) : Bool :=
  match sys.engine.handles.dbHandle member.1 with
  | some index => (((sys.engine.txn.view txn).records index).findIdx? fun entry =>
      index.keyOrder member.2 entry.1 = .eq).isSome
  | none => false

variable {sys}

/-- `DB_SET` with `pget` moves a cursor to the first entry of its key, or changes nothing. -/
theorem cursorPget_set {cursor i s : Nat} {txn position : Option Nat} {index : DbHandle}
    (state : sys.engine.handles.heap cursor = some (.cursor ⟨i, txn, position⟩))
    (found : sys.engine.handles.dbHandle i = some index)
    (primary : index.primary.map Prod.fst = some s)
    (consistent : ∀ entry ∈ (sys.engine.txn.view txn).records index,
      (Access.get sys.engine.handles s entry.2 (sys.engine.txn.view txn)).toOption.isSome)
    (key : Bytes) :
    match ((sys.engine.txn.view txn).records index).findIdx?
        (fun entry => index.keyOrder key entry.1 = .eq) with
    | some first => ∃ result, sys.cursorPget cursor (.set key) =
        (.ok result, sys.withHandles (sys.engine.handles.set cursor (.cursor ⟨i, txn, some first⟩)))
    | none => ∃ code, sys.cursorPget cursor (.set key) = (.error code, sys) := by
  obtain ⟨⟨db, callback⟩, attached, named⟩ := Option.map_eq_some'.mp primary
  subst named
  simp only [cursorPget, cursorGet, state, found, Move.target]
  cases first : ((sys.engine.txn.view txn).records index).findIdx?
      (fun entry => index.keyOrder key entry.1 = .eq) with
  | none => exact ⟨.notFound, rfl⟩
  | some first' =>
    obtain ⟨inside, -, -⟩ := List.findIdx?_eq_some_iff_getElem.mp first
    have entry := List.getElem?_eq_getElem inside
    obtain ⟨data, got⟩ := Option.isSome_iff_exists.mp (consistent _ (List.getElem_mem inside))
    have read : sys.primaryData i txn ((sys.engine.txn.view txn).records index)[first'].2 =
        .ok data := by
      simp only [primaryData, found, attached]
      exact Except.eq_ok_of_toOption got
    simp only [entry, List.get_eq_getElem, read]
    exact ⟨_, rfl⟩

end System

/-- A `recordset(index, key)` on the index `i` of `s`, as `fetch` and `rewind` leave it. -/
def JoinMember (sys : System Store) (s : Nat) (txn : Option Nat) (recordset : Recordset)
    (member : Nat × Bytes) : Prop :=
  recordset.key = some member.2 ∧ ∃ index cursor position,
    sys.engine.handles.dbHandle member.1 = some index ∧ index.primary.map Prod.fst = some s ∧
    recordset.cursor = some cursor ∧
    sys.engine.handles.heap cursor = some (.cursor ⟨member.1, txn, position⟩) ∧
    ∀ current ∈ position, ∃ entry, ((sys.engine.txn.view txn).records index)[current]? = some entry ∧
      index.keyOrder member.2 entry.1 = .eq

/-- A constituent `DB_SET` has put on the first entry of its key, or nowhere if there is none. -/
def JoinPlaced (sys : System Store) (txn : Option Nat) (recordset : Recordset)
    (member : Nat × Bytes) : Prop :=
  ∃ index cursor, sys.engine.handles.dbHandle member.1 = some index ∧
    recordset.cursor = some cursor ∧
    sys.engine.handles.heap cursor = some (.cursor ⟨member.1, txn,
      ((sys.engine.txn.view txn).records index).findIdx? fun entry =>
        index.keyOrder member.2 entry.1 = .eq⟩)

/-- Whether the primary record of each entry of the index `i` is in the table open on `s`. -/
def PrimaryRecords (sys : System Store) (s : Nat) (txn : Option Nat) (i : Nat) : Prop :=
  ∀ index, sys.engine.handles.dbHandle i = some index →
    ∀ entry ∈ (sys.engine.txn.view txn).records index,
      (Access.get sys.engine.handles s entry.2 (sys.engine.txn.view txn)).toOption.isSome

theorem List.Forall₂.exists_of_mem_left {α β : Type} {R : α → β → Prop} :
    ∀ {left : List α} {right : List β}, List.Forall₂ R left right → ∀ {a}, a ∈ left →
      ∃ b ∈ right, R a b
  | _, _, .cons related _, _, .head _ => ⟨_, List.mem_cons_self _ _, related⟩
  | _, _, .cons _ rest, _, .tail _ member =>
    let ⟨b, member', related⟩ := List.Forall₂.exists_of_mem_left rest member
    ⟨b, List.mem_cons_of_mem _ member', related⟩

theorem List.Forall₂.exists_of_mem_right {α β : Type} {R : α → β → Prop} :
    ∀ {left : List α} {right : List β}, List.Forall₂ R left right → ∀ {b}, b ∈ right →
      ∃ a ∈ left, R a b
  | _, _, .cons related _, _, .head _ => ⟨_, List.mem_cons_self _ _, related⟩
  | _, _, .cons _ rest, _, .tail _ member =>
    let ⟨a, member', related⟩ := List.Forall₂.exists_of_mem_right rest member
    ⟨a, List.mem_cons_of_mem _ member', related⟩

theorem JoinMember.unique {sys : System Store} {s : Nat} {txn : Option Nat} {recordset : Recordset}
    {member member' : Nat × Bytes} (joining : JoinMember sys s txn recordset member)
    (joining' : JoinMember sys s txn recordset member') : member = member' := by
  obtain ⟨searched, _, cursor, _, _, _, placed, state, _⟩ := joining
  obtain ⟨searched', _, cursor', _, _, _, placed', state', _⟩ := joining'
  obtain rfl : cursor = cursor' := Option.some.inj (placed.symm.trans placed')
  rw [state] at state'
  simp only [Option.some.injEq, HandleState.cursor.injEq, Cursor.mk.injEq] at state'
  exact Prod.ext state'.1 (Option.some.inj (searched.symm.trans searched'))

theorem JoinPlaced.member {sys sys' : System Store} {s : Nat} {txn : Option Nat}
    {recordset : Recordset} {member : Nat × Bytes} (placed : JoinPlaced sys' txn recordset member)
    (joining : JoinMember sys s txn recordset member)
    (same : sys'.engine.handles.dbHandle = sys.engine.handles.dbHandle) :
    JoinMember sys' s txn recordset member := by
  obtain ⟨searched, index', _, _, found', primary, _⟩ := joining
  obtain ⟨index, cursor, found, owned, state⟩ := placed
  obtain rfl : index = index' := Option.some.inj (found.symm.trans (same ▸ found'))
  refine ⟨searched, index, cursor, _, found, primary, owned, state, fun current start => ?_⟩
  obtain ⟨inside, equal, -⟩ := List.findIdx?_eq_some_iff_getElem.mp start
  exact ⟨_, List.getElem?_eq_getElem inside, by simpa using equal⟩

section Frames

variable {sys : System Store} {handles : Handles} (same : handles.dbHandle = sys.engine.handles.dbHandle)
include same

theorem System.hasKey_withHandles : (sys.withHandles handles).hasKey = sys.hasKey := by
  funext txn member
  simp only [System.hasKey, System.withHandles_handles, same]
  rfl

theorem PrimaryRecords.withHandles {s : Nat} {txn : Option Nat} {i : Nat}
    (primary : PrimaryRecords sys s txn i) : PrimaryRecords (sys.withHandles handles) s txn i := by
  intro index found
  rw [System.withHandles_handles, same] at found
  simpa [System.withHandles_handles, Access.get_congr _ same] using primary index found

theorem JoinMember.withHandles {s : Nat} {txn : Option Nat} {recordset : Recordset}
    {member : Nat × Bytes} (joining : JoinMember sys s txn recordset member)
    (kept : ∀ cursor, recordset.cursor = some cursor →
      handles.heap cursor = sys.engine.handles.heap cursor) :
    JoinMember (sys.withHandles handles) s txn recordset member := by
  obtain ⟨searched, index, cursor, position, found, primary, placed, state, standing⟩ := joining
  exact ⟨searched, index, cursor, position, by rwa [System.withHandles_handles, same], primary,
    placed, by rw [System.withHandles_handles, kept cursor placed]; exact state, standing⟩

theorem JoinPlaced.withHandles {txn : Option Nat} {recordset : Recordset}
    {member : Nat × Bytes} (placed : JoinPlaced sys txn recordset member)
    (kept : ∀ cursor, recordset.cursor = some cursor →
      handles.heap cursor = sys.engine.handles.heap cursor) :
    JoinPlaced (sys.withHandles handles) txn recordset member := by
  obtain ⟨index, cursor, found, owned, state⟩ := placed
  exact ⟨index, cursor, by rwa [System.withHandles_handles, same], owned,
    by rw [System.withHandles_handles, kept cursor owned]; exact state⟩

end Frames

/-! ## Recordsets for a join -/

/-- `recordset(index, key)` opens no `DB` and moves no cursor; its own cursor stands nowhere. -/
theorem Recordset.new_withHandles {db : Nat} {kind : RecordsetKind} {key : Option Bytes}
    {sys sys' : System Store} {recordset : Recordset}
    (unused : sys.engine.handles.heap sys.engine.handles.fresh = none)
    (made : Recordset.new none db kind key sys = (.ok recordset, sys')) :
    ∃ handles, sys' = sys.withHandles handles ∧ handles.dbHandle = sys.engine.handles.dbHandle ∧
      (∀ other ≠ sys.engine.handles.fresh, handles.heap other = sys.engine.handles.heap other) ∧
      recordset = ⟨some sys.engine.handles.fresh, key, kind, false⟩ ∧
      handles.heap sys.engine.handles.fresh =
        some (.cursor ⟨db, sys.database.txns.head?, none⟩) := by
  simp only [Recordset.new, Handles.alloc, Prod.mk.injEq, Except.ok.injEq] at made
  obtain ⟨rfl, rfl⟩ := made
  refine ⟨_, rfl, funext fun handle => ?_, fun other different => Function.update_noteq different _ _,
    rfl, Function.update_same _ _ _⟩
  by_cases here : handle = sys.engine.handles.fresh
  · subst here; simp [Handles.dbHandle, unused]
  · exact Handles.dbHandle_alloc_of_ne _ here _

/-- A `recordset(index, key)` on an index of the table stands for `(index, key)` in a join on it. -/
theorem Recordset.new_joinMember {i s : Nat} {key : Bytes} {index : DbHandle}
    {sys sys' : System Store} {recordset : Recordset}
    (found : sys.engine.handles.dbHandle i = some index) (primary : index.primary.map Prod.fst = some s)
    (unused : sys.engine.handles.heap sys.engine.handles.fresh = none)
    (made : Recordset.new none i .unique (some key) sys = (.ok recordset, sys')) :
    JoinMember sys' s sys.database.txns.head? recordset (i, key) := by
  obtain ⟨handles, rfl, same, -, rfl, cursor⟩ := Recordset.new_withHandles unused made
  exact ⟨rfl, index, _, none, by rwa [System.withHandles_handles, same], primary, rfl, cursor, nofun⟩

theorem JoinMember.cursor_ne_fresh {s : Nat} {txn : Option Nat} {recordset : Recordset}
    {member : Nat × Bytes} {sys : System Store} (joining : JoinMember sys s txn recordset member)
    (unused : sys.engine.handles.heap sys.engine.handles.fresh = none) :
    recordset.cursor ≠ some sys.engine.handles.fresh := fun placed => by
  obtain ⟨_, _, cursor, _, _, _, placed', state, _⟩ := joining
  rw [placed, Option.some_inj] at placed'
  rw [← placed', unused] at state
  cases state

theorem JoinMember.new {s : Nat} {txn : Option Nat} {recordset made : Recordset}
    {member : Nat × Bytes} {db : Nat} {kind : RecordsetKind} {key : Option Bytes}
    {sys sys' : System Store} (joining : JoinMember sys s txn recordset member)
    (unused : sys.engine.handles.heap sys.engine.handles.fresh = none)
    (making : Recordset.new none db kind key sys = (.ok made, sys')) :
    JoinMember sys' s txn recordset member := by
  obtain ⟨handles, rfl, same, kept, -⟩ := Recordset.new_withHandles unused making
  exact joining.withHandles same fun cursor placed =>
    kept cursor fun fresh => joining.cursor_ne_fresh unused (fresh ▸ placed)

/-- One more `recordset(index, key)` extends a list of recordsets standing for their members. -/
theorem JoinMember.new_append {i s : Nat} {key : Bytes} {index : DbHandle}
    {sys sys' : System Store} {list : List Recordset} {members : List (Nat × Bytes)}
    {made : Recordset} (found : sys.engine.handles.dbHandle i = some index)
    (primary : index.primary.map Prod.fst = some s)
    (unused : sys.engine.handles.heap sys.engine.handles.fresh = none)
    (joining : List.Forall₂ (JoinMember sys s sys.database.txns.head?) list members)
    (identity : ∀ recordset ∈ list, ∀ recordset' ∈ list,
      recordset.cursor = recordset'.cursor → recordset = recordset')
    (making : Recordset.new none i .unique (some key) sys = (.ok made, sys')) :
    List.Forall₂ (JoinMember sys' s sys.database.txns.head?) (list ++ [made]) (members ++ [(i, key)]) ∧
      ∀ recordset ∈ list ++ [made], ∀ recordset' ∈ list ++ [made],
        recordset.cursor = recordset'.cursor → recordset = recordset' := by
  have member := Recordset.new_joinMember found primary unused making
  have older : ∀ recordset ∈ list, recordset.cursor ≠ some sys.engine.handles.fresh :=
    fun _ inList =>
      let ⟨_, _, joining'⟩ := List.Forall₂.exists_of_mem_left joining inList
      joining'.cursor_ne_fresh unused
  refine ⟨List.rel_append (joining.imp fun _ _ joining' => joining'.new unused making)
    (.cons member .nil), fun one inOne other inOther same => ?_⟩
  obtain ⟨-, -, -, -, rfl, -⟩ := Recordset.new_withHandles unused making
  rcases List.mem_append.mp inOne with inList | isNew <;>
    rcases List.mem_append.mp inOther with inList' | isNew'
  · exact identity one inList other inList' same
  · rw [List.mem_singleton.mp isNew'] at same; exact absurd same (older one inList)
  · rw [List.mem_singleton.mp isNew] at same; exact absurd same.symm (older other inList')
  · rw [List.mem_singleton.mp isNew, List.mem_singleton.mp isNew']

/-- One round of the positioning loop: `DB_SET` on the first element, then the rest. -/
theorem Recordset.positionAll_cons {faults : Faults} {index : Nat} {recordset : Recordset}
    {rest : List Recordset} {sys : System Store} {isset : Bool} {key : Bytes} {cursor : Nat}
    (searched : recordset.key = some key) (placed : recordset.cursor = some cursor) :
    ∃ found stepped,
      ((∃ code, faults index = some code) ∧ found = false ∧ stepped = sys ∨
        faults index = none ∧ ∃ result, sys.cursorPget cursor (.set key) = (result, stepped) ∧
          found = result.toBool) ∧
      Recordset.positionAll faults index (recordset :: rest) sys isset =
        ((Recordset.positionAll faults (index + 1) rest stepped (isset && found)).1.map
            fun (flag, cursors) => (flag, cursor :: cursors),
          (if found then { recordset with isset := true } else recordset) ::
            (Recordset.positionAll faults (index + 1) rest stepped (isset && found)).2.1,
          (Recordset.positionAll faults (index + 1) rest stepped (isset && found)).2.2) := by
  have shape : ∀ (found : Bool) (stepped : System Store),
      (match Recordset.positionAll faults (index + 1) rest stepped (isset && found) with
        | (.ok (isset, cursors), rest, sys) =>
          ((.ok (isset, cursor :: cursors) : Except Exception (Bool × List Nat)),
            (if found then { recordset with isset := true } else recordset) :: rest, sys)
        | (.error error, rest, sys) =>
          (.error error, (if found then { recordset with isset := true } else recordset) :: rest, sys)) =
        ((Recordset.positionAll faults (index + 1) rest stepped (isset && found)).1.map
            fun (flag, cursors) => (flag, cursor :: cursors),
          (if found then { recordset with isset := true } else recordset) ::
            (Recordset.positionAll faults (index + 1) rest stepped (isset && found)).2.1,
          (Recordset.positionAll faults (index + 1) rest stepped (isset && found)).2.2) := by
    intro found stepped
    split <;> rename_i positioned <;> simp [positioned, Except.map]
  obtain ⟨cursor', key', kind, marked⟩ := recordset
  simp only at searched placed
  subst searched placed
  simp only [Recordset.positionAll]
  cases fault : faults index with
  | some code => exact ⟨false, sys, .inl ⟨⟨code, rfl⟩, rfl, rfl⟩, shape false sys⟩
  | none =>
    cases pget : sys.cursorPget cursor (.set key) with
    | mk result stepped =>
      cases result with
      | error code => exact ⟨false, stepped, .inr ⟨rfl, _, rfl, rfl⟩, shape false stepped⟩
      | ok found => exact ⟨true, stepped, .inr ⟨rfl, _, rfl, rfl⟩, shape true stepped⟩

/-- The positioning loop, the engine answering, puts each cursor on its key's first entry. -/
theorem positionAll_members {s : Nat} {txn : Option Nat} :
    ∀ {list : List Recordset} {members : List (Nat × Bytes)} {position : Nat}
      {sys : System Store} {isset : Bool},
      List.Forall₂ (JoinMember sys s txn) list members →
      (∀ recordset ∈ list, ∀ recordset' ∈ list,
        recordset.cursor = recordset'.cursor → recordset = recordset') →
      (∀ member ∈ members, PrimaryRecords sys s txn member.1) →
      ∃ handles list', Recordset.positionAll (fun _ => none) position list sys isset =
          (.ok (isset && members.all (sys.hasKey txn), list.filterMap Recordset.cursor), list',
            sys.withHandles handles) ∧
        handles.fresh = sys.engine.handles.fresh ∧ handles.dbHandle = sys.engine.handles.dbHandle ∧
        (∀ cursor, some cursor ∉ list.map Recordset.cursor →
          handles.heap cursor = sys.engine.handles.heap cursor) ∧
        List.Forall₂ (JoinPlaced (sys.withHandles handles) txn) list members
  | [], [], _, sys, isset, .nil, _, _ =>
    ⟨sys.engine.handles, [], by simp [Recordset.positionAll]; rfl, rfl, rfl, fun _ _ => rfl, .nil⟩
  | recordset :: rest, member :: members, position, sys, isset, .cons joining joinings,
      identity, primaries => by
    have head := joining
    obtain ⟨searched, index, cursor, standing, found, primary, placed, state, onKey⟩ := joining
    -- the step on the first recordset: where `DB_SET` puts its cursor, and whether it succeeds
    obtain ⟨handles, pget, kept, frame, same, first⟩ : ∃ handles,
        ((∃ result, sys.hasKey txn member = true ∧
            sys.cursorPget cursor (.set member.2) = (.ok result, sys.withHandles handles)) ∨
          ∃ code, sys.hasKey txn member = false ∧
            sys.cursorPget cursor (.set member.2) = (.error code, sys.withHandles handles)) ∧
        handles.fresh = sys.engine.handles.fresh ∧
        (∀ other, other ≠ cursor → handles.heap other = sys.engine.handles.heap other) ∧
        handles.dbHandle = sys.engine.handles.dbHandle ∧
        JoinPlaced (sys.withHandles handles) txn recordset member := by
      have moved := System.cursorPget_set state found primary
        (primaries member (List.mem_cons_self _ _) index found) member.2
      simp only [System.hasKey, found]
      cases starts : ((sys.engine.txn.view txn).records index).findIdx?
          (fun entry => index.keyOrder member.2 entry.1 = .eq) with
      | none =>
        rw [starts] at moved
        obtain ⟨code, failed⟩ := moved
        have nowhere : standing = none := by
          cases standing with
          | none => rfl
          | some current =>
            obtain ⟨entry, at', equal⟩ := onKey current rfl
            have := List.findIdx?_eq_none_iff.mp starts entry (List.getElem?_mem at')
            simp [equal] at this
        subst nowhere
        exact ⟨sys.engine.handles, .inr ⟨code, rfl, failed⟩, rfl, fun _ _ => rfl, rfl,
          index, cursor, found, placed, by simp only [System.withHandles_handles,
            System.withHandles_txn, state, starts]⟩
      | some start =>
        rw [starts] at moved
        obtain ⟨result, succeeded⟩ := moved
        refine ⟨_, .inl ⟨result, rfl, succeeded⟩, rfl, fun other different => ?_,
          Handles.dbHandle_set_cursor state, index, cursor,
          by rw [System.withHandles_handles, Handles.dbHandle_set_cursor state]; exact found,
          placed, by simp [Handles.set, starts]⟩
        simp [Handles.set, Function.update_noteq different]
    -- the others still stand for their members: their cursors have not moved, or are this one
    have rests : List.Forall₂ (JoinMember (sys.withHandles handles) s txn) rest members :=
      ((List.forall₂_and_left _ _).mpr ⟨fun _ member => member, joinings⟩).imp
        fun other member' ⟨inRest, joining'⟩ => by
          by_cases owned : other.cursor = some cursor
          · obtain rfl := identity other (List.mem_cons_of_mem _ inRest) recordset
              (List.mem_cons_self _ _) (owned.trans placed.symm)
            rw [← head.unique joining']
            exact first.member head same
          · exact joining'.withHandles same fun cursor' named =>
              frame cursor' fun equal => owned (equal ▸ named)
    obtain ⟨handles', list', positioned, kept', same', frame', placed'⟩ :=
      @positionAll_members s txn rest members (position + 1) (sys.withHandles handles)
        (isset && sys.hasKey txn member) rests
        (fun one member one' member' =>
          identity one (List.mem_cons_of_mem _ member) one' (List.mem_cons_of_mem _ member'))
        fun member' inMembers => (primaries member' (List.mem_cons_of_mem _ inMembers)).withHandles same
    rw [System.withHandles_withHandles] at positioned placed'
    -- the first cursor is where its own `DB_SET` left it, or where a later one of itself did
    have last : JoinPlaced (sys.withHandles handles') txn recordset member := by
      by_cases again : some cursor ∈ rest.map Recordset.cursor
      · obtain ⟨other, inRest, owned⟩ := List.mem_map.mp again
        obtain rfl := identity other (List.mem_cons_of_mem _ inRest) recordset
          (List.mem_cons_self _ _) (owned.trans placed.symm)
        obtain ⟨member', -, joining', placed''⟩ := List.Forall₂.exists_of_mem_left
          (joinings.mp (fun _ _ => And.intro) placed') inRest
        rwa [head.unique joining']
      · exact first.withHandles same' fun owned named => frame' owned (named ▸ placed ▸ again)
    refine ⟨handles', (if sys.hasKey txn member then { recordset with isset := true } else recordset)
      :: list', ?_, kept'.trans kept, same'.trans same, fun other outside => ?_, .cons last placed'⟩
    · rcases pget with ⟨_, known, pget⟩ | ⟨_, known, pget⟩ <;>
        simp only [known, Bool.and_true, Bool.and_false, Bool.false_and] at positioned <;>
        simp [Recordset.positionAll, searched, placed, pget, known, positioned,
          System.hasKey_withHandles same]
    · rw [List.map_cons, List.mem_cons, not_or, placed] at outside
      rw [frame' other outside.2, System.withHandles_handles,
        frame other fun equal => outside.1 (equal ▸ rfl)]

/-! ## Opening the join -/

/-- A constituent `(index, key')` `DB->join` reads off a placed cursor stands for `(index, key)`. -/
def JoinKey (sys : System Store) (txn : Option Nat) (constituent member : Nat × Bytes) : Prop :=
  constituent.1 = member.1 ∧ ∃ index, sys.engine.handles.dbHandle member.1 = some index ∧
    index.keyOrder member.2 constituent.2 = .eq ∧
    ∃ entry ∈ (sys.engine.txn.view txn).records index, entry.1 = constituent.2

namespace System

variable {sys : System Store}

/-- `DBC->count` and the key of each placed cursor: each constituent stands for its member. -/
theorem mapM_joinConstituent {txn : Option Nat} : ∀ {list : List Recordset}
    {members : List (Nat × Bytes)}, List.Forall₂ (JoinPlaced sys txn) list members →
    (members.all (sys.hasKey txn) = true → ∃ constituents,
      (list.filterMap Recordset.cursor).mapM sys.joinConstituent = .ok constituents ∧
      List.Forall₂ (fun constituent => JoinKey sys txn constituent.1) constituents members) ∧
    (members.all (sys.hasKey txn) = false →
      ∃ code, (list.filterMap Recordset.cursor).mapM sys.joinConstituent = .error code)
  | [], [], .nil => ⟨fun _ => ⟨[], rfl, .nil⟩, nofun⟩
  | recordset :: rest, member :: members, .cons placed placings => by
    obtain ⟨index, cursor, found, owned, state⟩ := placed
    obtain ⟨present, missing⟩ := mapM_joinConstituent placings
    simp only [List.filterMap_cons, owned, List.mapM_cons, List.all_cons, hasKey, found]
    cases starts : ((sys.engine.txn.view txn).records index).findIdx?
        (fun entry => index.keyOrder member.2 entry.1 = .eq) with
    | none =>
      rw [starts] at state
      exact ⟨nofun, fun _ => ⟨.einval, by simp only [joinConstituent, state]; rfl⟩⟩
    | some start =>
      rw [starts] at state
      obtain ⟨inside, equal, -⟩ := List.findIdx?_eq_some_iff_getElem.mp starts
      have constituent : sys.joinConstituent cursor =
          .ok ((member.1, ((sys.engine.txn.view txn).records index)[start].1),
            (Records.dups index.keyOrder ((sys.engine.txn.view txn).records index)[start].1
              ((sys.engine.txn.view txn).records index)).length) := by
        simp only [joinConstituent, state, found, List.getElem?_eq_getElem inside]
      rw [constituent]
      refine ⟨fun present' => ?_, fun missing' => ?_⟩
      · obtain ⟨constituents, mapped, related⟩ := present present'
        exact ⟨_, by rw [mapped]; rfl, .cons ⟨rfl, index, found, by simpa using equal,
          _, List.getElem_mem inside, rfl⟩ related⟩
      · obtain ⟨code, failed⟩ := missing missing'
        exact ⟨code, by rw [failed]; rfl⟩

/-- The cursors `DB_SET` has placed for a join all read in its transaction. -/
theorem cursorTxn_placed {txn : Option Nat} : ∀ {list : List Recordset}
    {members : List (Nat × Bytes)}, List.Forall₂ (JoinPlaced sys txn) list members →
    ((list.filterMap Recordset.cursor).any fun cursor => sys.cursorTxn cursor != some txn) = false
  | [], [], .nil => rfl
  | _ :: _, _ :: _, .cons ⟨_, cursor, _, owned, state⟩ placings => by
    have own : sys.cursorTxn cursor = some txn := by simp only [cursorTxn, state]
    simp only [List.filterMap_cons, owned, List.any_cons, own, bne_self_eq_false, Bool.false_or,
      cursorTxn_placed placings]

/-- `DB->join` over placed cursors walks one constituent and checks the others. -/
theorem openJoin_placed {db : Nat} {txn : Option Nat} {list : List Recordset}
    {members : List (Nat × Bytes)} (placed : List.Forall₂ (JoinPlaced sys txn) list members)
    (nonempty : list ≠ []) :
    (members.all (sys.hasKey txn) = false →
      sys.openJoin db (list.filterMap Recordset.cursor) = .ok ⟨db, txn, [], 0⟩) ∧
    (members.all (sys.hasKey txn) = true → ∃ index key others handle next constituents,
      sys.openJoin db (list.filterMap Recordset.cursor) =
        .ok ⟨db, txn, (index, key) :: others, next⟩ ∧
      sys.engine.handles.dbHandle index = some handle ∧
      ((sys.engine.txn.view txn).records handle).findIdx?
        (fun entry => handle.keyOrder key entry.1 = .eq) = some next ∧
      ((index, key) :: others).Perm constituents ∧
      List.Forall₂ (JoinKey sys txn) constituents members) := by
  obtain ⟨recordset, rest, rfl⟩ := List.exists_cons_of_ne_nil nonempty
  obtain ⟨present, missing⟩ := mapM_joinConstituent placed
  have shared := cursorTxn_placed placed
  cases placed with
  | cons first placings =>
  obtain ⟨_, cursor, _, owned, state⟩ := first
  refine ⟨fun missing' => ?_, fun present' => ?_⟩
  · obtain ⟨code, failed⟩ := missing missing'
    rw [openJoin, failed]
    simp only [List.filterMap_cons, owned] at shared
    simp only [List.filterMap_cons, owned, List.head?_cons, state, shared, Bool.false_eq_true,
      if_false]
  · obtain ⟨constituents, mapped, related⟩ := present present'
    have sorted := (List.mergeSort_perm constituents fun one other => one.2 ≤ other.2).map Prod.fst
    have filled : (constituents.mergeSort fun one other => one.2 ≤ other.2).map Prod.fst ≠ [] :=
      fun empty => absurd (sorted.length_eq.trans ((List.length_map _ _).trans related.length_eq))
        (by rw [empty]; simp)
    obtain ⟨⟨index, key⟩, others, shape⟩ := List.exists_cons_of_ne_nil filled
    rw [shape] at sorted
    obtain ⟨constituent, inConstituents, named⟩ := List.mem_map.mp (sorted.subset (List.mem_cons_self _ _))
    obtain ⟨member, -, joinKey⟩ := List.Forall₂.exists_of_mem_left related inConstituents
    rw [named] at joinKey
    obtain ⟨rfl, handle, found, -, entry, inRecords, rfl⟩ := joinKey
    obtain ⟨next, starts⟩ : ∃ next, ((sys.engine.txn.view txn).records handle).findIdx?
        (fun entry' => handle.keyOrder entry.1 entry'.1 = .eq) = some next :=
      Option.isSome_iff_exists.mp (by
        rw [List.findIdx?_isSome, List.any_eq_true]
        exact ⟨entry, inRecords, by simp [Batteries.OrientedCmp.cmp_refl]⟩)
    refine ⟨member.1, entry.1, others, handle, next, _, ?_, found, starts, sorted,
      List.forall₂_map_left_iff.mpr related⟩
    rw [openJoin, mapped]
    simp only [List.filterMap_cons, owned] at shared
    simp only [List.filterMap_cons, owned, List.head?_cons, state, shared, shape, found, starts,
      Bool.false_eq_true, if_false]

end System

/-! ## What a join hands out -/

namespace System

variable (sys : System Store)

/-- Whether the index `member.1` holds an entry equal to `member.2` for the primary key `key`. -/
def HoldsEntry (txn : Option Nat) (key : Bytes) (member : Nat × Bytes) : Prop :=
  ∃ index, sys.engine.handles.dbHandle member.1 = some index ∧
    ∃ entry ∈ (sys.engine.txn.view txn).records index,
      index.keyOrder member.2 entry.1 = .eq ∧ entry.2 = key

variable {sys}

theorem HoldsEntry.hasKey {txn : Option Nat} {key : Bytes} {member : Nat × Bytes}
    (holds : sys.HoldsEntry txn key member) : sys.hasKey txn member = true := by
  obtain ⟨index, found, entry, inRecords, equal, -⟩ := holds
  simp only [System.hasKey, found, List.findIdx?_isSome, List.any_eq_true, decide_eq_true_eq]
  exact ⟨entry, inRecords, equal⟩

/-- `joinHolds` asks whether a constituent holds an entry of its key for a primary key. -/
theorem joinHolds_iff {txn : Option Nat} {key : Bytes} {constituent : Nat × Bytes}
    (separates : ∀ index, sys.engine.handles.dbHandle constituent.1 = some index →
      Separates index.dupOrder) :
    sys.joinHolds txn key constituent = true ↔ sys.HoldsEntry txn key constituent := by
  unfold joinHolds HoldsEntry
  cases found : sys.engine.handles.dbHandle constituent.1 with
  | none => simp
  | some index =>
    have equal : ∀ other, index.dupOrder key other = .eq ↔ other = key := fun other =>
      ⟨fun same => (separates index found key other same).symm,
        fun same => same ▸ Batteries.OrientedCmp.cmp_refl⟩
    simp [Records.dups, equal, and_assoc]

/-- At the start of its walk, a join cursor hands out each record every constituent holds. -/
theorem mem_joinRemaining {db : Nat} {txn : Option Nat} {index : Nat} {key : Bytes}
    {others : List (Nat × Bytes)} {next : Nat} {handle : DbHandle}
    (found : sys.engine.handles.dbHandle index = some handle)
    (starts : ((sys.engine.txn.view txn).records handle).findIdx?
      (fun entry => handle.keyOrder key entry.1 = .eq) = some next)
    (sorted : ((sys.engine.txn.view txn).records handle).Pairwise fun one other =>
      handle.keyOrder one.1 other.1 ≠ .gt)
    (separates : ∀ constituent ∈ others, ∀ index,
      sys.engine.handles.dbHandle constituent.1 = some index → Separates index.dupOrder)
    {primaryKey data : Bytes} :
    (primaryKey, data) ∈ sys.joinRemaining ⟨db, txn, (index, key) :: others, next⟩ ↔
      Access.get sys.engine.handles db primaryKey (sys.engine.txn.view txn) = .ok data ∧
      ∀ constituent ∈ (index, key) :: others, sys.HoldsEntry txn primaryKey constituent := by
  have holds : ∀ key', (∀ constituent ∈ others, sys.joinHolds txn key' constituent = true) ↔
      ∀ constituent ∈ others, sys.HoldsEntry txn key' constituent := fun _ =>
    forall₂_congr fun constituent member => joinHolds_iff (separates constituent member)
  simp only [joinRemaining, found, joinAccepted_drop sorted starts, List.mem_filterMap,
    List.mem_filter, List.all_eq_true, holds, List.forall_mem_cons]
  constructor
  · rintro ⟨entry, ⟨⟨inRecords, equal⟩, held⟩, got⟩
    obtain ⟨data', got', named⟩ := Option.map_eq_some'.mp got
    obtain ⟨rfl, rfl⟩ := Prod.mk.inj named
    exact ⟨Except.eq_ok_of_toOption got',
      ⟨handle, found, entry, inRecords, of_decide_eq_true equal, rfl⟩, held⟩
  · rintro ⟨got, ⟨handle', found', entry, inRecords, equal, rfl⟩, held⟩
    obtain rfl := Option.some.inj (found.symm.trans found')
    exact ⟨entry, ⟨⟨inRecords, decide_eq_true equal⟩, held⟩, by rw [got]; rfl⟩

/-- A join cursor walking an index of distinct primary keys hands out no record twice. -/
theorem joinRemaining_nodup {state : JoinCursor} {index : Nat} {key : Bytes}
    {others : List (Nat × Bytes)} {handle : DbHandle}
    (walked : state.cursors = (index, key) :: others)
    (found : sys.engine.handles.dbHandle index = some handle)
    (distinct : (((sys.engine.txn.view state.txn).records handle).map Prod.snd).Nodup) :
    (sys.joinRemaining state).Nodup := by
  simp only [joinRemaining, walked, found]
  refine List.Pairwise.filterMap _
    (fun one other different pair inOne pair' inOther same => different ?_)
    ((List.pairwise_map.mp distinct).sublist
      ((List.filter_sublist _).trans ((List.takeWhile_sublist _).trans (List.drop_sublist _ _))))
  obtain ⟨_, -, rfl⟩ := Option.mem_map.mp inOne
  obtain ⟨_, -, rfl⟩ := Option.mem_map.mp inOther
  exact congrArg Prod.fst same

end System

theorem JoinKey.holdsEntry_iff {sys : System Store} {txn : Option Nat}
    {constituent member : Nat × Bytes} (standing : JoinKey sys txn constituent member)
    {key : Bytes} : sys.HoldsEntry txn key constituent ↔ sys.HoldsEntry txn key member := by
  obtain ⟨same, index, found, equal, -⟩ := standing
  simp only [System.HoldsEntry, same, found, Option.some.injEq, exists_eq_left',
    Batteries.TransCmp.cmp_congr_left' equal]

/-! ## The join constructor -/

theorem Handles.dbHandle_alloc_join {handles : Handles} (unused : handles.heap handles.fresh = none)
    (state : JoinCursor) : (handles.alloc (.join state)).2.dbHandle = handles.dbHandle := by
  funext handle
  by_cases here : handle = handles.fresh
  · subst here; simp [Handles.dbHandle, Handles.alloc, unused]
  · exact Handles.dbHandle_alloc_of_ne _ here _

theorem joinKey_withHandles {sys : System Store} {handles : Handles}
    (same : handles.dbHandle = sys.engine.handles.dbHandle) :
    JoinKey (sys.withHandles handles) = JoinKey sys := by
  funext txn constituent member
  simp only [JoinKey, System.withHandles_handles, System.withHandles_txn, same]

/-- The join constructor over single-key recordsets, the engine answering, opens a walking join. -/
theorem Recordset.join_members {table : Table} {s : Nat} {txn : Option Nat}
    {list : List Recordset} {members : List (Nat × Bytes)} {sys : System Store}
    (opened : table.db = some s) (unused : sys.engine.handles.heap sys.engine.handles.fresh = none)
    (joining : List.Forall₂ (JoinMember sys s txn) list members)
    (identity : ∀ recordset ∈ list, ∀ recordset' ∈ list,
      recordset.cursor = recordset'.cursor → recordset = recordset')
    (primaries : ∀ member ∈ members, PrimaryRecords sys s txn member.1) (nonempty : list ≠ []) :
    ∃ joined list' sys' remaining,
      Recordset.join (fun _ => none) table list sys = (.ok joined, list', sys') ∧
      JoinWalking remaining joined sys' 0 ∧
      ((members.all (sys.hasKey txn) = false ∧ remaining = []) ∨
        ∃ index key others handle next constituents,
          remaining = sys.joinRemaining ⟨s, txn, (index, key) :: others, next⟩ ∧
          sys.engine.handles.dbHandle index = some handle ∧
          ((sys.engine.txn.view txn).records handle).findIdx?
            (fun entry => handle.keyOrder key entry.1 = .eq) = some next ∧
          ((index, key) :: others).Perm constituents ∧
          List.Forall₂ (JoinKey sys txn) constituents members) := by
  obtain ⟨handles, list', positioned, kept, same, frame, placed⟩ :=
    @positionAll_members s txn list members 0 sys true joining identity primaries
  obtain ⟨missing, present⟩ :=
    @System.openJoin_placed (sys.withHandles handles) s txn list members placed nonempty
  rw [System.hasKey_withHandles same] at missing present
  -- the join cursor goes on a handle that no cursor of the list holds
  have free : handles.heap handles.fresh = none := by
    rw [kept, frame _ fun named => ?_, unused]
    obtain ⟨recordset, inList, owned⟩ := List.mem_map.mp named
    obtain ⟨member, -, -, _, cursor, _, -, -, placed', state, -⟩ :=
      List.Forall₂.exists_of_mem_left joining inList
    obtain rfl := Option.some.inj (placed'.symm.trans owned)
    rw [unused] at state
    cases state
  have allocated := Handles.dbHandle_alloc_join free
  simp only [Recordset.join, positioned, opened, Option.getD_some, Bool.true_and]
  cases flag : members.all (sys.hasKey txn) with
  | false =>
    rw [missing flag]
    exact ⟨_, _, _, [], rfl, ⟨rfl, handles.fresh, ⟨s, txn, [], 0⟩, rfl, by simp [Handles.alloc],
      fun _ => rfl, nofun⟩, .inl ⟨rfl, rfl⟩⟩
  | true =>
    obtain ⟨index, key, others, handle, next, constituents, opens, found, starts, perm, related⟩ :=
      present flag
    rw [joinKey_withHandles same] at related
    rw [System.withHandles_handles, same] at found
    rw [opens]
    refine ⟨_, _, _, sys.joinRemaining ⟨s, txn, (index, key) :: others, next⟩, rfl,
      ⟨rfl, handles.fresh, ⟨s, txn, (index, key) :: others, next⟩, rfl, by simp [Handles.alloc],
        nofun, fun _ => ⟨index, key, others, handle, rfl, ?_, ?_, ?_⟩⟩,
      .inr ⟨index, key, others, handle, next, constituents, rfl, found, starts, perm, related⟩⟩
    · simp only [System.withHandles_withHandles, System.withHandles_handles, allocated, same, found]
    · obtain ⟨member, inMembers, walked, -⟩ :=
        List.Forall₂.exists_of_mem_left related (perm.subset (List.mem_cons_self _ _))
      simp only [System.withHandles_withHandles, System.withHandles_handles, System.withHandles_txn,
        Access.get_congr _ ((allocated _).trans same)]
      exact primaries member inMembers handle (walked ▸ found)
    · simp only [List.drop_zero, System.withHandles_withHandles, System.withHandles_handles,
        System.joinRemaining_withHandles ((allocated _).trans same)]

/-- The positioning loop throws `Unknown` at an element without a search key. -/
theorem Recordset.positionAll_unkeyed (faults : Faults) : ∀ {list : List Recordset} {index : Nat}
    {sys : System Store} {isset : Bool}, (∃ recordset ∈ list, recordset.key = none) →
    (Recordset.positionAll faults index list sys isset).1 = .error .unknown
  | [], _, _, _, ⟨_, absurd, _⟩ => nomatch absurd
  | recordset :: rest, index, sys, isset, ⟨bad, inList, unkeyed⟩ => by
    cases searched : recordset.key with
    | none => simp [Recordset.positionAll, searched]
    | some key =>
      cases placed : recordset.cursor with
      | none => simp [Recordset.positionAll, searched, placed]
      | some cursor =>
        have later : ∃ recordset ∈ rest, recordset.key = none := by
          rcases List.mem_cons.mp inList with rfl | inRest
          · rw [searched] at unkeyed; cases unkeyed
          · exact ⟨bad, inRest, unkeyed⟩
        obtain ⟨_, _, -, unfolded⟩ :=
          @Recordset.positionAll_cons faults index recordset rest sys isset key cursor searched placed
        rw [unfolded, positionAll_unkeyed faults later]
        rfl

/-- The join constructor throws `Unknown` when an element has no search key. -/
theorem Recordset.join_unkeyed (faults : Faults) (table : Table) {list : List Recordset}
    {sys : System Store} (unkeyed : ∃ recordset ∈ list, recordset.key = none) :
    (Recordset.join faults table list sys).1 = .error .unknown := by
  unfold Recordset.join
  split <;> rename_i positioned <;>
    have thrown := (congrArg Prod.fst positioned).symm.trans
      (Recordset.positionAll_unkeyed faults unkeyed)
  · cases thrown; rfl
  · cases thrown

namespace System

variable {sys : System Store}

theorem cursorTxn_cursorGet (cursor : Nat) (move : Move) (other : Nat) :
    (sys.cursorGet cursor move).2.cursorTxn other = sys.cursorTxn other := by
  unfold cursorGet
  split
  · rename_i state found
    split
    · rfl
    · dsimp only
      split
      · rfl
      · split
        · rfl
        · by_cases same : other = cursor
          · subst same; simp [cursorTxn, Handles.set, found]
          · simp [cursorTxn, Handles.set, Function.update_noteq same]
  · rfl

theorem cursorTxn_cursorPget (cursor : Nat) (move : Move) (other : Nat) :
    (sys.cursorPget cursor move).2.cursorTxn other = sys.cursorTxn other := by
  unfold cursorPget
  split
  · split
    · rename_i got
      split
      · have moved := @cursorTxn_cursorGet sys cursor move other
        rwa [got] at moved
      · rfl
    · rfl
  · rfl

theorem openJoin_mixed {db : Nat} {cursors : List Nat} {cursor cursor' : Nat}
    (inCursors : cursor ∈ cursors) (inCursors' : cursor' ∈ cursors)
    (differ : sys.cursorTxn cursor ≠ sys.cursorTxn cursor') :
    sys.openJoin db cursors = .error .einval := by
  unfold openJoin
  split
  · rfl
  · split
    · rename_i txn _ _
      have refused : (cursors.any fun cursor => sys.cursorTxn cursor != some txn) = true := by
        by_cases first : sys.cursorTxn cursor = some txn
        · exact List.any_eq_true.mpr ⟨cursor', inCursors', by simpa [← first] using differ.symm⟩
        · exact List.any_eq_true.mpr ⟨cursor, inCursors, by simpa using first⟩
      rw [if_pos refused]
    · rfl

end System

/-- The positioning loop keeps each cursor's transaction, and hands the join its list's cursors. -/
theorem Recordset.positionAll_txns (faults : Faults) : ∀ (list : List Recordset) (index : Nat)
    (sys : System Store) (isset : Bool),
    let positioned := Recordset.positionAll faults index list sys isset
    (∀ cursor, positioned.2.2.cursorTxn cursor = sys.cursorTxn cursor) ∧
      ((∃ isset', positioned.1 = .ok (isset', list.filterMap Recordset.cursor)) ∨
        positioned.1 = .error .unknown)
  | [], _, _, _ => ⟨fun _ => rfl, .inl ⟨_, rfl⟩⟩
  | recordset :: rest, index, sys, isset => by
    cases searched : recordset.key with
    | none => simp [Recordset.positionAll, searched]
    | some key =>
      cases placed : recordset.cursor with
      | none => simp [Recordset.positionAll, searched, placed]
      | some cursor =>
        obtain ⟨found, stepped, step, unfolded⟩ :=
          @Recordset.positionAll_cons faults index recordset rest sys isset key cursor searched placed
        have moved : ∀ other, stepped.cursorTxn other = sys.cursorTxn other := by
          rcases step with ⟨-, -, rfl⟩ | ⟨-, result, pget, -⟩
          · exact fun _ => rfl
          · intro other
            have moved := @System.cursorTxn_cursorPget sys cursor (.set key) other
            rwa [pget] at moved
        obtain ⟨kept, outcome⟩ := Recordset.positionAll_txns faults rest (index + 1) stepped
          (isset && found)
        rw [unfolded]
        refine ⟨fun other => (kept other).trans (moved other), ?_⟩
        rcases outcome with ⟨isset', ok⟩ | failed
        · exact .inl ⟨isset', by simp [ok, List.filterMap_cons, placed, Except.map]⟩
        · exact .inr (by simp [failed, Except.map])

/-- The join constructor throws `Unknown` on cursors of different transactions. -/
theorem Recordset.join_mixed (faults : Faults) (table : Table) {list : List Recordset}
    {sys : System Store} {one other : Recordset} {cursor cursor' : Nat} (inList : one ∈ list)
    (inList' : other ∈ list) (owned : one.cursor = some cursor) (owned' : other.cursor = some cursor')
    (differ : sys.cursorTxn cursor ≠ sys.cursorTxn cursor') :
    (Recordset.join faults table list sys).1 = .error .unknown := by
  obtain ⟨kept, outcome⟩ := Recordset.positionAll_txns faults list 0 sys true
  unfold Recordset.join
  generalize Recordset.positionAll faults 0 list sys true = positioned at kept outcome
  obtain ⟨result, list', positioned⟩ := positioned
  rcases outcome with ⟨isset', ok⟩ | failed
  · dsimp only at ok kept
    subst ok
    dsimp only
    rw [System.openJoin_mixed (List.mem_filterMap.mpr ⟨one, inList, owned⟩)
      (List.mem_filterMap.mpr ⟨other, inList', owned'⟩) (by rwa [kept, kept])]
    cases faults list'.length <;> rfl
  · dsimp only at failed
    subst failed
    rfl

/-! ## The join law -/

theorem Indexed.primaryRecords {sys : System Store} {s : Nat} {primary : DbHandle}
    {txn : Option Nat} (found : sys.engine.handles.dbHandle s = some primary)
    (layout : Layout sys.engine.handles primary)
    (indexed : Indexed sys.engine.handles primary (sys.engine.txn.view txn))
    {i : Nat} (secondary : i ∈ primary.secondaries) : PrimaryRecords sys s txn i := by
  intro index foundIndex entry inRecords
  obtain ⟨data, -, inTable, -⟩ :=
    (indexed.mirrors i secondary index foundIndex).mem_entry layout.separates inRecords
  rw [(Access.get_eq_ok_iff found).mpr
    ((indexed.keyed.lookup_eq_some_iff layout.separates).mpr inTable)]
  rfl

theorem holdsEntry_constituents_iff {sys : System Store} {txn : Option Nat} {key : Bytes}
    {cursors constituents members : List (Nat × Bytes)} (perm : cursors.Perm constituents)
    (related : List.Forall₂ (JoinKey sys txn) constituents members) :
    (∀ constituent ∈ cursors, sys.HoldsEntry txn key constituent) ↔
      ∀ member ∈ members, sys.HoldsEntry txn key member :=
  ⟨fun holds _ inMembers =>
    let ⟨constituent, inConstituents, standing⟩ :=
      List.Forall₂.exists_of_mem_right related inMembers
    standing.holdsEntry_iff.mp (holds constituent (perm.mem_iff.mpr inConstituents)),
  fun holds _ inCursors =>
    let ⟨member, inMembers, standing⟩ :=
      List.Forall₂.exists_of_mem_left related (perm.mem_iff.mp inCursors)
    standing.holdsEntry_iff.mpr (holds member inMembers)⟩

theorem joinExample_separates (file : String) (byte : Nat) :
    Separates (joinExampleIndex file byte).dupOrder := defaultCompare_separates

theorem joinExample_mirrors (file : String) (byte : Nat) :
    Mirrors joinExampleTable (joinExampleIndex file byte) joinExampleRecords
      (joinExampleEntries file byte) :=
  @Mirrors.buildSecondary joinExampleTable { joinExampleIndex file byte with primary := none } _ 0
    defaultCompare_separates defaultCompare_separates [] joinExampleRecords []
    (by unfold Records.Keyed; decide) nofun
    ⟨fun _ => rfl, fun _ => .nil⟩

end Bdb
