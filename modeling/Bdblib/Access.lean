import Bdblib.Records
import Bdblib.Handles

/-!
# Access methods of the engine

The engine operations the library calls on `DB` handles, over the engine's data. A put on a
primary keeps its secondaries up to date. In order, from the most recently associated one, it
computes each secondary key, checks it against the foreign master of the secondary, checks
uniqueness, and inserts the entry. Then it removes the stale entries of an overwritten record,
and last it writes the record itself. A delete on a foreign master first applies each foreign
key that references it, most recent first: an abort refuses, a cascade deletes the referencing
records, a nullify rewrites them. Then it removes the record's own secondary entries and the
record. Neither undoes what it has done when a later step fails: that is left to the
transaction the call runs in.
-/

namespace Bdb

/-- What the engine stores: databases by file, and each sequence's next value in `__seq.db`. -/
structure Store where
  /-- The records of each database file. -/
  files : String → Option Records
  /-- The sequence records. -/
  sequences : Bytes → Option Int

namespace DbHandle

variable (handle : DbHandle)

/-- The key order of a database. -/
def keyOrder : Bytes → Bytes → Ordering := Comparator.orDefault handle.compare

/-- The order of sorted duplicates. -/
def dupOrder : Bytes → Bytes → Ordering := Comparator.orDefault handle.dupCompare

instance keyOrder_trans : Batteries.TransCmp handle.keyOrder := (handle.compare.getD .default).trans

instance dupOrder_trans : Batteries.TransCmp handle.dupOrder :=
  (handle.dupCompare.getD .default).trans

/-- The key a secondary gives a primary record through its `associate` callback. -/
def secondaryKey (key data : Bytes) : Option Bytes :=
  handle.primary.bind fun association => association.2 key data

end DbHandle

/-- An environment home with no files. -/
def Store.empty : Store := ⟨fun _ => none, fun _ => none⟩

namespace Store

variable (store : Store)

/-- The records of the file a handle is open on. -/
def records (handle : DbHandle) : Records := (handle.file.bind store.files).getD []

/-- Replace the records of the file a handle is open on. -/
def setRecords (handle : DbHandle) (records : Records) : Store :=
  match handle.file with
  | some file => { store with files := Function.update store.files file (some records) }
  | none => store

theorem records_setRecords {handle : DbHandle} {file : String} (opened : handle.file = some file)
    (records : Records) : (store.setRecords handle records).records handle = records := by
  simp [Store.setRecords, Store.records, opened]

end Store

namespace Access

variable (handles : Handles)

/-- `DB->get`: the data under a key, or `DB_NOTFOUND`. -/
def get (db : Nat) (key : Bytes) (store : Store) : Except DbError Bytes :=
  match handles.dbHandle db with
  | none => .error .einval
  | some table =>
    match Records.lookup table.keyOrder key (store.records table) with
    | some data => .ok data
    | none => .error .notFound

/-- `DB->exists`: `0` when a record of the key is there, else `DB_NOTFOUND`. -/
def «exists» (db : Nat) (key : Bytes) (store : Store) : Option DbError :=
  match get handles db key store with
  | .ok _ => none
  | .error code => some code

/-- Insert a secondary's entry for a new record: foreign check, uniqueness (`EINVAL`), then put. -/
def insertSecondary (key data : Bytes) (secondary : Nat) (store : Store) : Option DbError × Store :=
  match handles.dbHandle secondary with
  | none => (none, store)
  | some index =>
    match index.secondaryKey key data with
    | none => (none, store)
    | some indexKey =>
      let referenced := match index.master.bind handles.dbHandle with
        | some master => (Records.find master.keyOrder indexKey (store.records master)).isSome
        | none => true
      if !referenced then (some .foreignConflict, store)
      else if index.dupSort then
        match Records.putDup index.keyOrder index.dupOrder indexKey key (store.records index) with
        | some records => (none, store.setRecords index records)
        | none => (none, store)
      else
        match Records.find index.keyOrder indexKey (store.records index) with
        | some (_, owner) => if owner = key then (none, store) else (some .einval, store)
        | none =>
          (none, store.setRecords index
            (Records.put index.keyOrder indexKey key (store.records index)))

/-- The secondaries of a primary, in order, until one fails. -/
def insertSecondaries (key data : Bytes) : List Nat → Store → Option DbError × Store
  | [], store => (none, store)
  | secondary :: rest, store =>
    match insertSecondary handles key data secondary store with
    | (none, store) => insertSecondaries key data rest store
    | failed => failed

/-- Remove a secondary's entry for an overwritten record's old data, unless its key is unchanged. -/
def eraseStale (key oldData data : Bytes) (store : Store) (secondary : Nat) : Store :=
  match handles.dbHandle secondary with
  | none => store
  | some index =>
    match index.secondaryKey key oldData with
    | none => store
    | some oldKey =>
      if (index.secondaryKey key data).any fun newKey => index.keyOrder oldKey newKey = .eq then
        store
      else
        store.setRecords index
          (Records.erasePair index.keyOrder index.dupOrder oldKey key (store.records index))

/-- `DB->put` on a primary, `DB_NOOVERWRITE` or not. -/
def put (db : Nat) (key data : Bytes) (noOverwrite : Bool) (store : Store) :
    Option DbError × Store :=
  match handles.dbHandle db with
  | none => (some .einval, store)
  | some table =>
    let old := Records.lookup table.keyOrder key (store.records table)
    if noOverwrite && old.isSome then (some .keyExist, store)
    else
      match insertSecondaries handles key data table.secondaries store with
      | (some code, store) => (some code, store)
      | (none, store) =>
        let store := match old with
          | some oldData => table.secondaries.foldl (eraseStale handles key oldData data) store
          | none => store
        (none, store.setRecords table (Records.put table.keyOrder key data (store.records table)))

/-- Remove the entry a secondary holds for a deleted primary record. -/
def eraseEntry (key data : Bytes) (store : Store) (secondary : Nat) : Store :=
  match handles.dbHandle secondary with
  | none => store
  | some index =>
    match index.secondaryKey key data with
    | none => store
    | some indexKey =>
      store.setRecords index
        (Records.erasePair index.keyOrder index.dupOrder indexKey key (store.records index))

/-- Rewrite the referencing records of a nullify foreign key, one primary key after another. -/
def nullifyAll (callback : NullifyCallback) (db : Nat) (foreignKey : Bytes) :
    List Bytes → Store → Option DbError × Store
  | [], store => (none, store)
  | key :: rest, store =>
    match get handles db key store with
    | .error code => (some code, store)
    | .ok data =>
      match callback key data foreignKey with
      | .error code => (some (.other code), store)
      | .ok (_, false) => nullifyAll callback db foreignKey rest store
      | .ok (newData, true) =>
        match put handles db key newData false store with
        | (none, store) => nullifyAll callback db foreignKey rest store
        | failed => failed

/-- Delete the referencing records of a cascade foreign key with `delete`. -/
def cascadeAll (delete : Nat → Bytes → Store → Option DbError × Store) (db : Nat) :
    List Bytes → Store → Option DbError × Store
  | [], store => (none, store)
  | key :: rest, store =>
    match delete db key store with
    | (none, store) => cascadeAll delete db rest store
    | failed => failed

/-- The foreign keys on a master whose record of key `foreignKey` goes, most recent first. -/
def applyForeign (delete : Nat → Bytes → Store → Option DbError × Store) (foreignKey : Bytes) :
    List (Nat × ForeignMode) → Store → Option DbError × Store
  | [], store => (none, store)
  | (secondary, mode) :: rest, store =>
    match handles.dbHandle secondary with
    | none => applyForeign delete foreignKey rest store
    | some index =>
      let referencing :=
        (Records.dups index.keyOrder foreignKey (store.records index)).map Prod.snd
      if referencing = [] then applyForeign delete foreignKey rest store
      else
        let db := (index.primary.map Prod.fst).getD secondary
        let applied := match mode with
          | .abort => (some .foreignConflict, store)
          | .cascade => cascadeAll delete db referencing store
          | .nullify callback => nullifyAll handles callback db foreignKey referencing store
        match applied with
        | (none, store) => applyForeign delete foreignKey rest store
        | failed => failed

/-- `DB->del` on a primary; `fuel` bounds the depth of cascading deletes. -/
def del : Nat → Nat → Bytes → Store → Option DbError × Store
  | 0, _, _, store => (some .einval, store)
  | fuel + 1, db, key, store =>
    match handles.dbHandle db with
    | none => (some .einval, store)
    | some table =>
      match Records.find table.keyOrder key (store.records table) with
      | none => (some .notFound, store)
      | some (storedKey, data) =>
        match applyForeign handles (del fuel) storedKey table.foreign store with
        | (some code, store) => (some code, store)
        | (none, store) =>
          let store := table.secondaries.foldl (eraseEntry handles storedKey data) store
          (none, store.setRecords table (Records.erase table.keyOrder key (store.records table)))

/-- `DB->put` on a primary, `faults` answering the steps a lock or I/O error can stop: the
`DB_NOOVERWRITE` check (`0`), the read of the old record after the new secondary entries (`1`), the
write of the record after the stale entries go (`2`). -/
def putSteps (faults : Faults) (db : Nat) (key data : Bytes) (noOverwrite : Bool) (store : Store) :
    Option DbError × Store :=
  match faults 0 with
  | some code => (some code, store)
  | none =>
    match handles.dbHandle db with
    | none => (some .einval, store)
    | some table =>
      let old := Records.lookup table.keyOrder key (store.records table)
      if noOverwrite && old.isSome then (some .keyExist, store)
      else
        match insertSecondaries handles key data table.secondaries store with
        | (some code, store) => (some code, store)
        | (none, store) =>
          match faults 1 with
          | some code => (some code, store)
          | none =>
            let store := match old with
              | some oldData => table.secondaries.foldl (eraseStale handles key oldData data) store
              | none => store
            match faults 2 with
            | some code => (some code, store)
            | none =>
              (none, store.setRecords table (Records.put table.keyOrder key data (store.records table)))

/-- `DB->del` on a primary, `faults` answering the steps a lock or I/O error can stop: finding the
record (`0`), erasing its secondary entries after the foreign keys (`1`), removing it after that
(`2`). -/
def delSteps (faults : Faults) (fuel db : Nat) (key : Bytes) (store : Store) :
    Option DbError × Store :=
  match faults 0, fuel with
  | some code, _ => (some code, store)
  | none, 0 => (some .einval, store)
  | none, fuel + 1 =>
    match handles.dbHandle db with
    | none => (some .einval, store)
    | some table =>
      match Records.find table.keyOrder key (store.records table) with
      | none => (some .notFound, store)
      | some (storedKey, data) =>
        match applyForeign handles (del handles fuel) storedKey table.foreign store with
        | (some code, store) => (some code, store)
        | (none, store) =>
          match faults 1 with
          | some code => (some code, store)
          | none =>
            let store := table.secondaries.foldl (eraseEntry handles storedKey data) store
            match faults 2 with
            | some code => (some code, store)
            | none =>
              (none, store.setRecords table (Records.erase table.keyOrder key (store.records table)))

theorem get_congr {handles' : Handles} (same : handles'.dbHandle = handles.dbHandle) :
    get handles' = get handles := by
  funext db key store
  simp only [get, same]

/-! ## Engine faults inside a put or a delete -/

theorem putSteps_answered : putSteps handles (fun _ => none) = put handles := by
  funext db key data noOverwrite store
  simp only [putSteps, put]

theorem delSteps_answered : delSteps handles (fun _ => none) = del handles := by
  funext fuel db key store
  cases fuel <;> simp only [delSteps, del]

theorem putSteps_succeeded {faults : Faults} {db : Nat} {key data : Bytes} {noOverwrite : Bool}
    {store store' : Store}
    (succeeded : putSteps handles faults db key data noOverwrite store = (none, store')) :
    put handles db key data noOverwrite store = (none, store') := by
  rw [← putSteps_answered]
  cases first : faults 0 with
  | some => simp [putSteps, first] at succeeded
  | none =>
    cases found : handles.dbHandle db with
    | none => simp [putSteps, first, found] at succeeded
    | some table =>
      simp only [putSteps, first, found] at succeeded ⊢
      split at succeeded
      · cases succeeded
      · rw [if_neg ‹_›]
        cases inserted : insertSecondaries handles key data table.secondaries store with
        | mk code stored =>
          cases code with
          | some => simp [inserted] at succeeded
          | none =>
            cases read : faults 1 <;> cases written : faults 2 <;>
              simp_all only [Prod.mk.injEq, reduceCtorEq, false_and]

theorem delSteps_succeeded {faults : Faults} {fuel db : Nat} {key : Bytes} {store store' : Store}
    (succeeded : delSteps handles faults fuel db key store = (none, store')) :
    del handles fuel db key store = (none, store') := by
  rw [← delSteps_answered]
  cases first : faults 0 with
  | some => simp [delSteps, first] at succeeded
  | none =>
    cases fuel with
    | zero => simp [delSteps, first] at succeeded
    | succ fuel =>
      cases found : handles.dbHandle db with
      | none => simp [delSteps, first, found] at succeeded
      | some table =>
        simp only [delSteps, first, found] at succeeded ⊢
        cases present : Records.find table.keyOrder key (store.records table) with
        | none => simp [present] at succeeded
        | some record =>
          simp only [present] at succeeded ⊢
          cases applied : applyForeign handles (del handles fuel) record.1 table.foreign store with
          | mk code stored =>
            cases code with
            | some => simp [applied] at succeeded
            | none =>
              cases erased : faults 1 <;> cases removed : faults 2 <;>
                simp_all only [Prod.mk.injEq, reduceCtorEq, false_and]

/-! ## A database without secondaries and foreign keys -/

theorem insertSecondaries_cons (key data : Bytes) (first : Nat) (rest : List Nat) (store : Store) :
    (∃ code, (insertSecondary handles key data first store).1 = some code ∧
        insertSecondaries handles key data (first :: rest) store =
          insertSecondary handles key data first store) ∨
      (insertSecondary handles key data first store).1 = none ∧
        insertSecondaries handles key data (first :: rest) store =
          insertSecondaries handles key data rest (insertSecondary handles key data first store).2 := by
  simp only [insertSecondaries]
  cases insertSecondary handles key data first store with
  | mk code stored =>
    cases code with
    | some code => exact .inl ⟨code, rfl, rfl⟩
    | none => exact .inr ⟨rfl, rfl⟩

theorem cascadeAll_cons (delete : Nat → Bytes → Store → Option DbError × Store) (db : Nat)
    (key : Bytes) (rest : List Bytes) (store : Store) :
    (∃ code, (delete db key store).1 = some code ∧
        cascadeAll delete db (key :: rest) store = delete db key store) ∨
      (delete db key store).1 = none ∧
        cascadeAll delete db (key :: rest) store = cascadeAll delete db rest (delete db key store).2 := by
  simp only [cascadeAll]
  cases delete db key store with
  | mk code stored =>
    cases code with
    | some code => exact .inl ⟨code, rfl, rfl⟩
    | none => exact .inr ⟨rfl, rfl⟩

section Plain

variable {handles : Handles} {db : Nat} {table : DbHandle} (found : handles.dbHandle db = some table)
  (noSecondaries : table.secondaries = []) (noForeign : table.foreign = [])
include found

theorem get_of_dbHandle (key : Bytes) (store : Store) :
    get handles db key store =
      match Records.lookup table.keyOrder key (store.records table) with
      | some data => .ok data
      | none => .error .notFound := by
  simp [get, found]

theorem get_eq_ok_iff {key data : Bytes} {store : Store} :
    get handles db key store = .ok data ↔
      Records.lookup table.keyOrder key (store.records table) = some data := by
  rw [get_of_dbHandle found]
  cases Records.lookup table.keyOrder key (store.records table) <;> simp

include noSecondaries

/-- A put without secondaries refuses a key there under `DB_NOOVERWRITE`, or writes the record. -/
theorem put_plain (key data : Bytes) (noOverwrite : Bool) (store : Store) :
    put handles db key data noOverwrite store =
      if noOverwrite && (Records.lookup table.keyOrder key (store.records table)).isSome then
        (some .keyExist, store)
      else
        (none, store.setRecords table (Records.put table.keyOrder key data (store.records table))) := by
  simp only [put, found]
  split
  · rfl
  · simp only [noSecondaries, insertSecondaries, List.foldl_nil]
    split <;> rfl

include noForeign

/-- A delete on a database without secondaries or foreign keys removes the record, or finds none. -/
theorem del_plain (fuel : Nat) (key : Bytes) (store : Store) :
    del handles (fuel + 1) db key store =
      if (Records.find table.keyOrder key (store.records table)).isSome then
        (none, store.setRecords table (Records.erase table.keyOrder key (store.records table)))
      else (some .notFound, store) := by
  simp only [del, found]
  split
  · next absent => simp [absent]
  · next present => simp [present, noForeign, noSecondaries, applyForeign]

end Plain

end Access

end Bdb
