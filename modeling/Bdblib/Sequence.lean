import Bdblib.Nested
import Bdblib.Objects

/-!
# Sequence identifiers under nested transactions

`sequence::id` asks the engine for the next value of its sequence record with
`DB_SEQUENCE->get` under `m_txns.top()`. The constructor set no cache (`set_cachesize(0)`), so
every call reads the record and writes it back advanced by one inside the top transaction, and
that write shares the fate of the transaction. A nested transaction that is rolled back takes
back the values handed out inside it, and the next call returns them again.

Seen from one sequence, the reference semantics of nested transactions is a `Counter`: the
value the top transaction sees, and the value saved at each `begin_transaction` not matched yet.
`begin_transaction` saves the value, `commit_transaction` drops the saved one,
`rollback_transaction` restores it, and `id` returns the value and advances it. The destructor
makes durable the value of the top-level transaction once the nested ones are rolled back.
-/

namespace Bdb

/-- The record key of an open `DB_SEQUENCE` handle. -/
def Handles.sequenceKey (handles : Handles) (handle : Nat) : Option Bytes :=
  match handles.heap handle with
  | some (.sequence key) => some key
  | _ => none

/-- `DB_SEQUENCE->get` of one value without a cache: the record's value, written back plus one. -/
def Sequence.get (fault : Option DbError) (key : Bytes) (store : Store) :
    Except DbError Int × Store :=
  match fault, store.sequences key with
  | some code, _ => (.error code, store)
  | none, some value =>
    (.ok value, { store with sequences := Function.update store.sequences key (some (value + 1)) })
  | none, none => (.error .notFound, store)

/-- `sequence::id`: `DB_SEQUENCE->get` under `m_txns.top()`; any error is `BDB_ERROR_UNKNOWN`. -/
def Sequence.id (fault : Option DbError) (sequence : Sequence) (sys : System Store) :
    Except Exception Int × System Store :=
  match sequence.seq.bind sys.engine.handles.sequenceKey with
  | none => (.error .unknown, sys)
  | some key =>
    match sys.performTop (Sequence.get fault key) with
    | (.ok value, sys) => (.ok value, sys)
    | (.error _, sys) => (.error .unknown, sys)

/-! ## Runs on one sequence -/

/-- A call of a run on one sequence. -/
inductive SequenceCall where
  /-- `database::begin_transaction`. -/
  | beginTransaction
  /-- `database::commit_transaction`. -/
  | commitTransaction
  /-- `database::rollback_transaction`. -/
  | rollbackTransaction
  /-- `sequence::id`. -/
  | id
  deriving DecidableEq

/-- What a call of a run on a sequence reports: an exception, or the value `id` returned. -/
abbrev IdReport := Except Exception (Option Int)

/-- One call of a run on `sequence`, the engine answering every call. -/
def System.sequenceStep (sequence : Sequence) (sys : System Store) :
    SequenceCall → IdReport × System Store
  | .beginTransaction =>
    ((sys.beginTransaction .ok).1.map fun _ => none, (sys.beginTransaction .ok).2)
  | .commitTransaction =>
    ((sys.commitTransaction none).1.map fun _ => none, (sys.commitTransaction none).2)
  | .rollbackTransaction =>
    ((sys.rollbackTransaction none).1.map fun _ => none, (sys.rollbackTransaction none).2)
  | .id => ((Sequence.id none sequence sys).1.map some, (Sequence.id none sequence sys).2)

/-- A run on `sequence`: what each call reports, and the database after it. -/
def System.sequenceRun (sequence : Sequence) :
    System Store → List SequenceCall → List IdReport × System Store
  | sys, [] => ([], sys)
  | sys, call :: rest =>
    ((sys.sequenceStep sequence call).1 :: ((sys.sequenceStep sequence call).2.sequenceRun
      sequence rest).1, ((sys.sequenceStep sequence call).2.sequenceRun sequence rest).2)

/-- The values `id` returned in a run. -/
def returnedIds (reports : List IdReport) : List Int :=
  reports.filterMap fun report => match report with
    | .ok (some value) => some value
    | _ => none

/-- The call as a call of the nested transactions: `id` is an engine operation on `key`. -/
def SequenceCall.toStep (key : Bytes) : SequenceCall → Step Store (Except DbError Int)
  | .beginTransaction => .beginTransaction
  | .commitTransaction => .commitTransaction
  | .rollbackTransaction => .rollbackTransaction
  | .id => .operate (Sequence.get none key)

/-- What a report of the nested transactions says to the user of a sequence. -/
def idReport : Report (Except DbError Int) → IdReport
  | .ok (some (.ok value)) => .ok (some value)
  | .ok (some (.error _)) => .error .unknown
  | .ok none => .ok none
  | .error error => .error error

@[simp]
theorem idReport_map (report : Except Exception Unit) :
    idReport (report.map fun _ => none) = report.map fun _ => none := by
  cases report <;> rfl

theorem System.sequenceStep_eq {sequence : Sequence} {sys : System Store} {key : Bytes}
    (found : sequence.seq.bind sys.engine.handles.sequenceKey = some key) (call : SequenceCall) :
    sys.sequenceStep sequence call =
      (idReport (sys.step (call.toStep key)).1, (sys.step (call.toStep key)).2) := by
  cases call with
  | beginTransaction => rfl
  | commitTransaction => simp [System.sequenceStep, System.step, SequenceCall.toStep]
  | rollbackTransaction => simp [System.sequenceStep, System.step, SequenceCall.toStep]
  | id =>
    simp only [System.sequenceStep, Sequence.id, found, System.step, SequenceCall.toStep]
    split <;> next value stepped => simp [stepped, idReport, Except.map]

/-! ## The counter a sequence is -/

/-- A sequence record as the nested transactions show it. -/
structure Counter where
  /-- The value the top transaction sees; `none` when it sees no record. -/
  value : Option Int
  /-- The value saved at each `begin_transaction` not matched yet, most recent first. -/
  saved : List (Option Int)

namespace Counter

variable (counter : Counter)

/-- One call. -/
def step : SequenceCall → IdReport × Counter
  | .beginTransaction => (.ok none, ⟨counter.value, counter.value :: counter.saved⟩)
  | .commitTransaction =>
    match counter.saved with
    | [] => (.error .notFound, counter)
    | _ :: rest => (.ok none, ⟨counter.value, rest⟩)
  | .rollbackTransaction =>
    match counter.saved with
    | [] => (.error .notFound, counter)
    | value :: rest => (.ok none, ⟨value, rest⟩)
  | .id =>
    match counter.value with
    | some value => (.ok (some value), ⟨some (value + 1), counter.saved⟩)
    | none => (.error .unknown, counter)

/-- The value closing keeps: the one saved by the outermost begin not matched yet. -/
def close : Option Int := counter.saved.getLast?.getD counter.value

end Counter

/-- A run of calls on a counter. -/
def Counter.run : Counter → List SequenceCall → List IdReport × Counter
  | counter, [] => ([], counter)
  | counter, call :: rest =>
    ((counter.step call).1 :: ((counter.step call).2.run rest).1,
      ((counter.step call).2.run rest).2)

/-- Without a rollback, a counter holding `first` hands out `first`, `first + 1`, and so on. -/
theorem Counter.run_consecutive :
    ∀ (calls : List SequenceCall) {counter : Counter} {first : Int},
      SequenceCall.rollbackTransaction ∉ calls → counter.value = some first →
      returnedIds (counter.run calls).1 =
        (List.range (calls.count .id)).map fun offset : Nat => first + offset
  | [], _, _, _, _ => rfl
  | call :: rest, counter, first, noRollback, holds => by
    have later := List.not_mem_of_not_mem_cons noRollback
    cases call with
    | beginTransaction => exact run_consecutive rest later holds
    | commitTransaction =>
      cases saved : counter.saved with
      | nil =>
        simp only [run, step, saved]
        exact run_consecutive rest later holds
      | cons _ tail =>
        simp only [run, step, saved]
        exact run_consecutive rest later (show (⟨counter.value, tail⟩ : Counter).value = _ from holds)
    | rollbackTransaction => simp at noRollback
    | id =>
      have next := run_consecutive rest later
        (show (⟨some (first + 1), counter.saved⟩ : Counter).value = some (first + 1) from rfl)
      simp only [run, step, holds]
      show first :: returnedIds _ = _
      rw [next, List.count_cons_self, List.range_succ_eq_map, List.map_cons, List.map_map]
      congr 1
      · omega
      · exact List.map_congr_left fun offset _ => by simp only [Function.comp]; omega

/-- The counter of the record `key` in a reference state. -/
def Reference.counter (key : Bytes) (ref : Reference Store) : Counter :=
  ⟨ref.current.sequences key,
    ref.marks.map fun mark => (replay (ref.log.take mark) ref.base).sequences key⟩

namespace Reference

variable {ref : Reference Store} (key : Bytes)

theorem counter_saved_append (short : ∀ mark ∈ ref.marks, mark ≤ ref.log.length)
    (writes : List (Store → Store)) :
    (ref.marks.map fun mark => (replay ((ref.log ++ writes).take mark) ref.base).sequences key) =
      (ref.counter key).saved :=
  List.map_congr_left fun mark member => by rw [List.take_append_of_le_length (short mark member)]

/-- Each call on a sequence does to its counter what the reference semantics does to the store. -/
theorem counter_step (nested : ref.Nested) (call : SequenceCall) :
    idReport (ref.step (call.toStep key)).1 = ((ref.counter key).step call).1 ∧
      (ref.step (call.toStep key)).2.counter key = ((ref.counter key).step call).2 := by
  have ⟨short, marked⟩ := List.sorted_cons.mp nested
  cases call with
  | beginTransaction => simp [step, SequenceCall.toStep, counter, Counter.step, idReport, current]
  | commitTransaction =>
    cases marks : ref.marks <;> simp [step, SequenceCall.toStep, marks, counter, Counter.step, idReport]
  | rollbackTransaction =>
    cases marks : ref.marks with
    | nil => simp [step, SequenceCall.toStep, marks, counter, Counter.step, idReport]
    | cons mark rest =>
      rw [marks] at marked
      have below := (List.sorted_cons.mp marked).1
      simp only [step, SequenceCall.toStep, marks, counter, Counter.step, idReport, current,
        List.map_cons, Counter.mk.injEq, true_and]
      exact List.map_congr_left fun other member => by
        rw [List.take_take, Nat.min_eq_left (below other member)]
  | id =>
    have saved := counter_saved_append key short
    cases value : ref.current.sequences key <;>
      simp [step, SequenceCall.toStep, counter, Counter.step, idReport, Sequence.get, value, saved]

theorem counter_close : ref.close.sequences key = (ref.counter key).close := by
  cases last : ref.marks.getLast? <;> simp [close, Counter.close, counter, last, current]

end Reference

/-- A run on a sequence open on `key` reports and leaves what the counter of `key` does. -/
theorem StackInv.sequenceRun_refines {root : Nat} {key : Bytes} {sequence : Sequence}
    {sys : System Store} (inv : StackInv root sys)
    (found : sequence.seq.bind sys.engine.handles.sequenceKey = some key) (calls : List SequenceCall) :
    (sys.sequenceRun sequence calls).1 = ((sys.abstract.counter key).run calls).1 ∧
      (sys.sequenceRun sequence calls).2.abstract.counter key =
        ((sys.abstract.counter key).run calls).2 ∧
      StackInv root (sys.sequenceRun sequence calls).2 := by
  induction calls generalizing sys with
  | nil => exact ⟨rfl, rfl, inv⟩
  | cons call rest induction =>
    obtain ⟨report, state⟩ := inv.step_refines (call.toStep key)
    obtain ⟨counted, counter⟩ := Reference.counter_step key sys.abstract_nested call
    have kept : ((sys.step (call.toStep key)).2.engine.handles.sequenceKey) =
        sys.engine.handles.sequenceKey := by rw [System.step_handles]
    obtain ⟨reports, final, invariant⟩ := induction (inv.step (call.toStep key)) (kept ▸ found)
    simp only [System.sequenceRun, Counter.run, System.sequenceStep_eq found, reports, final,
      invariant, state, report, counted, counter, and_self]

/-- `sequence::id` hands out a counter the nested transactions checkpoint: `begin_transaction` saves
it, `rollback_transaction` restores it, and the destructor keeps the top-level value. -/
theorem sequence_ids {root : Nat} {key : Bytes} {sequence : Sequence} {sys : System Store}
    (inv : StackInv root sys) (found : sequence.seq.bind sys.engine.handles.sequenceKey = some key)
    (calls : List SequenceCall) :
    (sys.sequenceRun sequence calls).1 = ((sys.abstract.counter key).run calls).1 ∧
      (Database.destroy none (sys.sequenceRun sequence calls).2).txn.durable.sequences key =
        ((sys.abstract.counter key).run calls).2.close ∧
      (∀ faults database engine, Database.new faults
          (Database.destroy none (sys.sequenceRun sequence calls).2) = (.ok database, engine) →
        (System.mk database engine).abstract.counter key =
          ⟨((sys.abstract.counter key).run calls).2.close, []⟩) ∧
      (SequenceCall.rollbackTransaction ∉ calls → ∀ first,
        sys.abstract.current.sequences key = some first →
        returnedIds (sys.sequenceRun sequence calls).1 =
          (List.range (calls.count .id)).map fun offset : Nat => first + offset) := by
  obtain ⟨reports, final, kept⟩ := inv.sequenceRun_refines found calls
  have closed : (Database.destroy none (sys.sequenceRun sequence calls).2).txn.durable.sequences
      key = ((sys.abstract.counter key).run calls).2.close := by
    rw [kept.destroy_refines, Reference.counter_close, final]
  refine ⟨reports, closed, fun faults database engine opened => ?_, fun noRollback first holds => ?_⟩
  · rw [System.abstract_new opened, ← closed]
    rfl
  · rw [reports]
    exact Counter.run_consecutive calls noRollback holds

theorem sequence_ids_fresh :
    let sys := (System.fresh.addSequence (fun _ => none) [115] true).2
    StackInv 0 sys ∧ (⟨some 2⟩ : Sequence).seq.bind sys.engine.handles.sequenceKey = some [115] ∧
      returnedIds (sys.sequenceRun ⟨some 2⟩ [.id, .beginTransaction, .id, .commitTransaction, .id]).1 =
        [1, 2, 3] := by
  intro sys
  have ⟨txns, parents, fresh, finalized⟩ :=
    System.addSequence_transparent (fun _ => none) [115] true System.fresh
  have added : StackInv 0 sys := System.fresh_stackInv.congr txns parents fresh finalized
  exact ⟨added, rfl, ((@sequence_ids 0 [115] ⟨some 2⟩ sys added rfl _).2.2.2 (by decide) 1 rfl).trans rfl⟩

/-- A value handed out inside a nested transaction that is rolled back is handed out again. -/
theorem sequence_id_repeats_after_rollback :
    let sys := (System.fresh.addSequence (fun _ => none) [115] true).2
    sys.database.sequences = [⟨some 2⟩] ∧
      (sys.sequenceRun ⟨some 2⟩ [.beginTransaction, .id, .rollbackTransaction, .id]).1 =
        [.ok none, .ok (some 1), .ok none, .ok (some 1)] :=
  ⟨rfl, rfl⟩

end Bdb
