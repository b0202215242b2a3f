import Bdblib.Join

/-!
# What the library makes of engine errors

`recordset::fetch`, the positioning loop of the join constructor and the existence probe of
`table::update` each ask only whether an engine call returned `0`. So every failure of those
calls, a deadlock as much as `DB_NOTFOUND`, reads as absence: `fetch` returns `false` with records
left to hand out, the join opens with its flag cleared and hands out nothing, and `update`
throws `NotFound` for a key that is there. The join constructor moves and marks each element it
positions before it looks at the next one's key, so a join that throws at a later element leaves
the earlier ones moved.
-/

namespace Bdb

/-! ## `fetch` -/

/-- A `fetch` whose cursor call fails returns `false` and changes nothing, elements left or not. -/
theorem Walking.fetch_failed {Message : Type} (codec : Codec Message) {db : Nat}
    {handle : DbHandle} {txn : Option Nat} {list : List (Bytes × Bytes)} {recordset : Recordset}
    {sys : System Store} {position : Option Nat} {rest : Records} {count : Nat}
    (walking : Walking db handle txn list recordset sys position rest count) (code : DbError)
    (left : count < list.length) :
    recordset.fetch codec (some code) sys = (none, recordset, sys) ∧
      (recordset.fetch codec none sys).1 =
        some (codec.parse list[count].1, codec.parse list[count].2) := by
  refine ⟨rfl, ?_⟩
  rw [(walking.fetch codec).1, List.getElem?_eq_getElem left]
  rfl

/-! ## The join constructor -/

/-- A join cursor whose flag is cleared reads nothing: `fetch` returns `false`. -/
theorem Recordset.fetch_cleared_join {Message : Type} (codec : Codec Message)
    (fault : Option DbError) {recordset : Recordset} (joined : recordset.kind = .join)
    (cleared : recordset.isset = false) (sys : System Store) :
    recordset.fetch codec fault sys = (none, recordset, sys) := by
  obtain ⟨cursor, key, kind, isset⟩ := recordset
  subst joined cleared
  cases fault <;> cases cursor <;> rfl

theorem Recordset.run_cleared_join {Message : Type} (codec : Codec Message)
    {recordset : Recordset} (joined : recordset.kind = .join) (cleared : recordset.isset = false)
    (sys : System Store) :
    ∀ (calls : List RecordsetCall), ∀ output ∈ recordset.run codec sys calls, output = none
  | [] => nofun
  | .fetch :: calls => by
    simp only [Recordset.run, Recordset.fetch_cleared_join codec none joined cleared,
      List.mem_cons, forall_eq_or_imp, true_and]
    exact Recordset.run_cleared_join codec joined cleared sys calls
  | .rewind :: calls => by
    simp only [Recordset.run, Recordset.rewind, joined, if_true]
    exact Recordset.run_cleared_join codec joined cleared sys calls

/-- The positioning loop's flag stays set only when no `DB_SET` of the loop failed. -/
theorem Recordset.positionAll_flag (faults : Faults) :
    ∀ {list : List Recordset} {index : Nat} {sys : System Store} {isset flag : Bool}
      {cursors : List Nat} {list' : List Recordset} {sys' : System Store},
      Recordset.positionAll faults index list sys isset = (.ok (flag, cursors), list', sys') →
      flag = true → isset = true ∧ ∀ j < list.length, faults (index + j) = none
  | [], _, _, _, _, _, _, _, positioned, set => by
    simp only [Recordset.positionAll, Prod.mk.injEq, Except.ok.injEq] at positioned
    exact ⟨positioned.1.1 ▸ set, nofun⟩
  | recordset :: rest, index, sys, isset, flag, cursors, list', sys', positioned, set => by
    cases searched : recordset.key with
    | none => simp [Recordset.positionAll, searched] at positioned
    | some key =>
      cases placed : recordset.cursor with
      | none => simp [Recordset.positionAll, searched, placed] at positioned
      | some cursor =>
        simp only [Recordset.positionAll, searched, placed] at positioned
        split at positioned
        · rename_i recursive
          simp only [Prod.mk.injEq, Except.ok.injEq] at positioned
          obtain ⟨⟨rfl, -⟩, -⟩ := positioned
          obtain ⟨both, later⟩ := Recordset.positionAll_flag faults recursive set
          obtain ⟨kept, found⟩ := Bool.and_eq_true_iff.mp both
          refine ⟨kept, fun j inside => ?_⟩
          cases j with
          | zero => cases fault : faults index <;> simp_all
          | succ j =>
            rw [show index + (j + 1) = index + 1 + j by omega]
            exact later j (by simpa using inside)
        · simp at positioned

/-- The join constructor opens a join with its flag cleared when a `DB_SET` of its loop fails. -/
theorem Recordset.join_positioning_failed {faults : Faults} {table : Table}
    {list : List Recordset} {sys : System Store} {joined : Recordset} {list' : List Recordset}
    {sys' : System Store} (joins : Recordset.join faults table list sys = (.ok joined, list', sys'))
    (failed : ∃ j < list.length, faults j ≠ none) : joined.kind = .join ∧ joined.isset = false := by
  unfold Recordset.join at joins
  split at joins
  · simp at joins
  · rename_i flag cursors list'' sys'' positioned
    split at joins
    · simp at joins
    · simp at joins
    · simp only [Prod.mk.injEq, Except.ok.injEq] at joins
      obtain ⟨rfl, -⟩ := joins
      refine ⟨rfl, Bool.eq_false_iff.mpr fun set => ?_⟩
      obtain ⟨j, inside, fault⟩ := failed
      exact fault (by simpa using (Recordset.positionAll_flag faults positioned set).2 j inside)

/-! ## A join that throws -/

namespace System

variable {sys : System Store}

theorem cursorGet_frame (cursor : Nat) (move : Move) :
    ∃ handles, (sys.cursorGet cursor move).2 = sys.withHandles handles ∧
      ∀ other ≠ cursor, handles.heap other = sys.engine.handles.heap other := by
  unfold cursorGet
  split
  · split
    · exact ⟨_, rfl, fun _ _ => rfl⟩
    · dsimp only
      split
      · exact ⟨_, rfl, fun _ _ => rfl⟩
      · split
        · exact ⟨_, rfl, fun _ _ => rfl⟩
        · exact ⟨_, rfl, fun other different => by simp [Handles.set, Function.update_noteq different]⟩
  · exact ⟨_, rfl, fun _ _ => rfl⟩

theorem cursorPget_frame (cursor : Nat) (move : Move) :
    ∃ handles, (sys.cursorPget cursor move).2 = sys.withHandles handles ∧
      ∀ other ≠ cursor, handles.heap other = sys.engine.handles.heap other := by
  obtain ⟨handles, moved, frame⟩ := sys.cursorGet_frame cursor move
  unfold cursorPget
  split
  · split
    · rename_i got
      split
      · exact ⟨handles, by rw [← moved, got], frame⟩
      · exact ⟨_, rfl, fun _ _ => rfl⟩
    · exact ⟨_, rfl, fun _ _ => rfl⟩
  · exact ⟨_, rfl, fun _ _ => rfl⟩

end System

theorem Recordset.positionAll_frame (faults : Faults) :
    ∀ {list : List Recordset} {index : Nat} {sys : System Store} {isset : Bool} {other : Nat},
      some other ∉ list.map Recordset.cursor →
      ∃ handles, (Recordset.positionAll faults index list sys isset).2.2 = sys.withHandles handles ∧
        handles.heap other = sys.engine.handles.heap other
  | [], _, sys, _, _, _ => ⟨sys.engine.handles, rfl, rfl⟩
  | recordset :: rest, index, sys, isset, other, outside => by
    rw [List.map_cons, List.mem_cons, not_or] at outside
    cases searched : recordset.key with
    | none => exact ⟨sys.engine.handles, by simp [Recordset.positionAll, searched]; rfl, rfl⟩
    | some key =>
      cases placed : recordset.cursor with
      | none =>
        exact ⟨sys.engine.handles, by simp [Recordset.positionAll, searched, placed]; rfl, rfl⟩
      | some cursor =>
        obtain ⟨found, stepped, step, unfolded⟩ :=
          @Recordset.positionAll_cons faults index recordset rest sys isset key cursor searched placed
        -- the first `DB_SET` moves its own cursor only
        obtain ⟨handles, rfl, frame⟩ : ∃ handles, stepped = sys.withHandles handles ∧
            handles.heap other = sys.engine.handles.heap other := by
          rcases step with ⟨-, -, same⟩ | ⟨-, result, pget, -⟩
          · exact ⟨sys.engine.handles, same, rfl⟩
          · obtain ⟨handles, moved, frame⟩ := sys.cursorPget_frame cursor (.set key)
            rw [pget] at moved
            exact ⟨handles, moved, frame other fun same => outside.1 (by rw [placed, same])⟩
        obtain ⟨handles', looped, frame'⟩ := @Recordset.positionAll_frame faults rest (index + 1)
          (sys.withHandles handles) (isset && found) other outside.2
        rw [unfolded]
        exact ⟨handles', looped, frame'.trans frame⟩

/-- A join that throws at an element without a key has moved the elements before it. -/
theorem Recordset.join_unkeyed_moved {faults : Faults} {table : Table} {recordset : Recordset}
    {rest : List Recordset} {sys moved : System Store} {key : Bytes} {cursor : Nat}
    {result : Bytes × Bytes × Bytes} (searched : recordset.key = some key)
    (placed : recordset.cursor = some cursor) (answered : faults 0 = none)
    (succeeded : sys.cursorPget cursor (.set key) = (.ok result, moved))
    (apart : some cursor ∉ rest.map Recordset.cursor) (unkeyed : ∃ bad ∈ rest, bad.key = none) :
    ∃ rest' sys', Recordset.join faults table (recordset :: rest) sys =
        (.error .unknown, { recordset with isset := true } :: rest', sys') ∧
      sys'.engine.handles.heap cursor = moved.engine.handles.heap cursor := by
  obtain ⟨found, stepped, step, unfolded⟩ :=
    @Recordset.positionAll_cons faults 0 recordset rest sys true key cursor searched placed
  obtain ⟨rfl, rfl⟩ : found = true ∧ stepped = moved := by
    rcases step with ⟨⟨code, fault⟩, -, -⟩ | ⟨-, result', pget, rfl⟩
    · rw [answered] at fault; cases fault
    · rw [succeeded] at pget
      cases pget
      exact ⟨rfl, rfl⟩
  obtain ⟨handles, looped, frame⟩ :=
    @Recordset.positionAll_frame faults rest 1 stepped true cursor apart
  have thrown := @Recordset.positionAll_unkeyed faults rest 1 stepped true unkeyed
  refine ⟨(Recordset.positionAll faults 1 rest stepped true).2.1,
    (Recordset.positionAll faults 1 rest stepped true).2.2, ?_, by rw [looped]; exact frame⟩
  simp only [Recordset.join, unfolded, Nat.zero_add, Bool.and_true, thrown, Except.map, if_true]

/-- The join example with a second element without key: the join throws, but the first element's
next `fetch` hands out the second record of its key. -/
theorem join_throws_with_elements_moved :
    ∃ rest' sys', Recordset.join (fun _ => none) ⟨"t", some 0, none, []⟩
        [⟨some 3, some [7], .unique, false⟩, ⟨some 4, none, .duplicates, false⟩] joinExample =
      (.error .unknown, ⟨some 3, some [7], .unique, true⟩ :: rest', sys') ∧
      sys'.engine.handles.heap 3 = some (.cursor ⟨1, none, some 1⟩) ∧
      ((⟨some 3, some [7], .unique, false⟩ : Recordset).fetch Codec.bytes none joinExample).1 =
        some ([1], [7, 8]) ∧
      ((⟨some 3, some [7], .unique, true⟩ : Recordset).fetch Codec.bytes none sys').1 =
        some ([2], [7, 9]) :=
  ⟨_, _, rfl, rfl, rfl, rfl⟩

/-! ## `update` -/

/-- `update` of a present key throws `NotFound` exactly when its existence probe fails. -/
theorem TableCall.update_notFound_iff {Key Data : Type} (keys : Codec Key) (values : Codec Data)
    (faults : Faults) {handles : Handles} {db : Nat} {table : DbHandle}
    (found : handles.dbHandle db = some table) {key : Key} {data : Data} {store : Store}
    (present : (Records.lookup table.keyOrder (keys.serialize key) (store.records table)).isSome) :
    (TableCall.perform keys values faults handles db (.update key data) store).1 =
        .error .notFound ↔ faults 0 ≠ none := by
  obtain ⟨stored, looked⟩ := Option.isSome_iff_exists.mp present
  cases fault : faults 0 with
  | some code => simp [TableCall.perform, fault]
  | none =>
    simp only [TableCall.perform, fault, Access.exists, Access.get_of_dbHandle found, looked,
      ne_eq, not_true_eq_false, iff_false]
    cases Access.putSteps handles (fun step => faults (step + 1)) db (keys.serialize key)
        (values.serialize data) false store with
    | mk result stored' =>
      cases result with
      | none => simp
      | some code => cases code <;> simp [updateError]

/-- The join example's runs with a deadlock: `fetch` returns `false`, the join opens with its flag
cleared, and `update` throws `NotFound`, though the records are there. -/
theorem engine_errors_read_as_absence :
    (⟨some 3, some [7], .unique, false⟩ : Recordset).fetch Codec.bytes (some lockDeadlock)
        joinExample = (none, ⟨some 3, some [7], .unique, false⟩, joinExample) ∧
      ((⟨some 3, some [7], .unique, false⟩ : Recordset).fetch Codec.bytes none joinExample).1 =
        some ([1], [7, 8]) ∧
      (∃ list' sys', Recordset.join (fun call => if call = 0 then some lockDeadlock else none)
          ⟨"t", some 0, none, []⟩
          [⟨some 3, some [7], .unique, false⟩, ⟨some 4, some [8], .unique, false⟩] joinExample =
        (.ok ⟨some 5, none, .join, false⟩, list', sys') ∧
        ((⟨some 5, none, .join, false⟩ : Recordset).fetch Codec.bytes none sys').1 = none) ∧
      joinExample.HoldsEntry none [1] (1, [7]) ∧ joinExample.HoldsEntry none [1] (2, [8]) ∧
      (TableCall.perform Codec.bytes Codec.bytes
          (fun call => if call = 0 then some lockDeadlock else none) joinExample.engine.handles 0
          (.update [1] [7, 7]) (joinExample.engine.txn.view none)).1 = .error .notFound ∧
      (TableCall.perform Codec.bytes Codec.bytes (fun _ => none) joinExample.engine.handles 0
          (.select [1]) (joinExample.engine.txn.view none)).1 = .ok (.found [7, 8]) :=
  ⟨rfl, rfl, ⟨_, _, rfl, rfl⟩, ⟨_, rfl, ([7], [1]), by decide, rfl, rfl⟩,
    ⟨_, rfl, ([8], [1]), by decide, rfl, rfl⟩, rfl, rfl⟩

end Bdb
