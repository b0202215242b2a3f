import Bdblib.Table

/-!
# Failed table calls

`insert`, `update` and `remove` run one `DB->put` or `DB->del` directly in `m_txns.top()`, with
no transaction of their own around it, and the engine does not undo what such a call has written
when a later step of it fails. A put on a primary writes the entry of each index before it
checks the next one, and reads the old record only once the new entries are in; a lock or an
I/O error there leaves them. A delete on a master applies each foreign key before it meets the
next one, and a cascade or a nullify has already deleted or rewritten records by then; it removes
the record's index entries before the record. So a call that raises leaves the tables as they
were only when the failure comes before the first write: an insert of a key that is there, an
update or a remove of a key that is not, an insert or an update on a table without indexes, or
with one index when the engine fails no step of the put after that index's entry is in, and a
remove whose foreign keys all abort when the engine does not fail the delete after the record's
index entries are gone.
-/

namespace Bdb

namespace Access

variable (handles : Handles)

theorem insertSecondary_failed {key data : Bytes} {secondary : Nat} {store : Store} {code : DbError}
    (failed : (insertSecondary handles key data secondary store).1 = some code) :
    (insertSecondary handles key data secondary store).2 = store := by
  unfold insertSecondary at failed ⊢
  repeat' split
  all_goals simp_all
  all_goals split at failed <;> simp_all

theorem insertSecondaries_failed {key data : Bytes} {secondaries : List Nat} {store : Store}
    {code : DbError} (single : secondaries.length ≤ 1)
    (failed : (insertSecondaries handles key data secondaries store).1 = some code) :
    (insertSecondaries handles key data secondaries store).2 = store := by
  match secondaries, single with
  | [], _ => cases failed
  | [secondary], _ =>
    simp only [insertSecondaries] at failed ⊢
    split at failed
    · cases failed
    · exact insertSecondary_failed handles failed

/-- A put that fails at `DB_NOOVERWRITE`, or before any index entry stays, writes nothing. -/
theorem putSteps_failed {faults : Faults} {db : Nat} {table : DbHandle}
    (found : handles.dbHandle db = some table) {key data : Bytes} {noOverwrite : Bool}
    {store : Store} {code : DbError}
    (early : noOverwrite ∧ (Records.lookup table.keyOrder key (store.records table)).isSome ∨
      table.secondaries = [] ∨ table.secondaries.length ≤ 1 ∧ faults 1 = none ∧ faults 2 = none)
    (failed : (putSteps handles faults db key data noOverwrite store).1 = some code) :
    (putSteps handles faults db key data noOverwrite store).2 = store := by
  cases first : faults 0 with
  | some => simp [putSteps, first]
  | none =>
    simp only [putSteps, first, found] at failed ⊢
    split
    · rfl
    · next notThere =>
      rw [if_neg notThere] at failed
      have later : table.secondaries = [] ∨
          table.secondaries.length ≤ 1 ∧ faults 1 = none ∧ faults 2 = none :=
        early.resolve_left fun ⟨overwrite, there⟩ => notThere (by simp [overwrite, there])
      cases inserted : insertSecondaries handles key data table.secondaries store with
      | mk code' stored =>
        cases code' with
        | some code' =>
          have single : table.secondaries.length ≤ 1 :=
            later.elim (fun none => by simp [none]) (·.1)
          simpa [inserted] using
            insertSecondaries_failed handles single (show (insertSecondaries handles key data
              table.secondaries store).1 = some code' by rw [inserted])
        | none =>
          rcases later with none | ⟨-, read, written⟩
          · have kept : stored = store := by
              simpa [none, insertSecondaries] using (congrArg Prod.snd inserted).symm
            subst kept
            cases read : faults 1 <;> cases written : faults 2 <;> simp_all
            -- the stale entries of an old record: none, with no index
            split <;> rfl
          · simp [inserted, read, written] at failed

theorem applyForeign_abort (delete : Nat → Bytes → Store → Option DbError × Store)
    (foreignKey : Bytes) :
    ∀ {foreign : List (Nat × ForeignMode)} (store : Store), (∀ entry ∈ foreign, entry.2 = .abort) →
      (applyForeign handles delete foreignKey foreign store).2 = store
  | [], _, _ => rfl
  | (secondary, mode) :: rest, store, aborting => by
    have later : (applyForeign handles delete foreignKey rest store).2 = store :=
      applyForeign_abort delete foreignKey store fun entry member =>
        aborting entry (List.mem_cons_of_mem _ member)
    have abort : mode = .abort := aborting _ (List.mem_cons_self _ _)
    subst abort
    simp only [applyForeign]
    split
    · exact later
    · split
      · exact later
      · rfl

/-- A delete that fails on a missing key, or before its entries go, writes nothing. -/
theorem delSteps_failed {faults : Faults} {db : Nat} {table : DbHandle}
    (found : handles.dbHandle db = some table) {fuel : Nat} {key : Bytes} {store : Store}
    {code : DbError}
    (early : (Records.find table.keyOrder key (store.records table)).isNone ∨
      (∀ entry ∈ table.foreign, entry.2 = .abort) ∧ (table.secondaries = [] ∨ faults 2 = none))
    (failed : (delSteps handles faults fuel db key store).1 = some code) :
    (delSteps handles faults fuel db key store).2 = store := by
  cases first : faults 0 with
  | some => simp [delSteps, first]
  | none =>
    cases fuel with
    | zero => simp [delSteps, first]
    | succ fuel =>
      simp only [delSteps, first, found] at failed ⊢
      split
      · rfl
      · next stored data present =>
        obtain ⟨aborting, late⟩ := early.resolve_left (by simp [present])
        have kept := applyForeign_abort handles (del handles fuel) stored store aborting
        cases applied : applyForeign handles (del handles fuel) stored table.foreign store with
        | mk code' store' =>
          rw [applied] at kept
          subst kept
          cases code' with
          | some => simp [applied]
          | none =>
            rcases late with none | removed
            · cases erased : faults 1 <;> cases removed : faults 2 <;> simp_all
            · cases erased : faults 1 <;> simp_all

end Access

namespace TableCall

variable {Key Data : Type} (keys : Codec Key) (values : Codec Data) (faults : Faults)

/-- The failures of a call before its first write: an insert of a key that is there, an update or
remove of one that is not, any failure without indexes, one with one index before the put's later
steps, or of a remove whose foreign keys all abort before its entries go. -/
def FailsFirst (table : DbHandle) (store : Store) : TableCall Key Data → Prop
  | .insert key _ =>
    (Records.lookup table.keyOrder (keys.serialize key) (store.records table)).isSome ∨
      table.secondaries = [] ∨ table.secondaries.length ≤ 1 ∧ faults 1 = none ∧ faults 2 = none
  | .update key _ =>
    (Records.lookup table.keyOrder (keys.serialize key) (store.records table)).isNone ∨
      table.secondaries = [] ∨ table.secondaries.length ≤ 1 ∧ faults 2 = none ∧ faults 3 = none
  | .remove key =>
    (Records.find table.keyOrder (keys.serialize key) (store.records table)).isNone ∨
      (∀ entry ∈ table.foreign, entry.2 = .abort) ∧ (table.secondaries = [] ∨ faults 2 = none)
  | .exists _ | .select _ => True

/-- A call that raises on a failure before its first write leaves the store as it was. -/
theorem perform_failed {handles : Handles} {db : Nat} {table : DbHandle}
    (found : handles.dbHandle db = some table) {call : TableCall Key Data} {store : Store}
    {error : Exception} (early : call.FailsFirst keys faults table store)
    (failed : (call.perform keys values faults handles db store).1 = .error error) :
    (call.perform keys values faults handles db store).2 = store := by
  cases call with
  | «exists» key => simp only [perform]; split <;> rfl
  | select key => simp only [perform]; split <;> (try split) <;> rfl
  | insert key data =>
    simp only [perform] at failed ⊢
    split at failed <;> rename_i store' called
    · cases failed
    · simpa only [called] using Access.putSteps_failed handles found
        (by simpa [FailsFirst] using early) (congrArg Prod.fst called)
  | update key data =>
    simp only [perform] at failed ⊢
    cases fault : faults 0 with
    | some code => simp [fault]
    | none =>
      simp only [fault] at failed ⊢
      cases probe : Access.exists handles db (keys.serialize key) store with
      | some code => rfl
      | none =>
        have later : table.secondaries = [] ∨
            table.secondaries.length ≤ 1 ∧ faults 2 = none ∧ faults 3 = none :=
          (show _ ∨ _ from early).resolve_left fun absent => by
            simp [Access.exists, Access.get_of_dbHandle found, Option.isNone_iff_eq_none.mp absent]
              at probe
        simp only [probe] at failed ⊢
        split at failed <;> rename_i store' called
        · cases failed
        · simpa only [called] using Access.putSteps_failed handles found (.inr later)
            (congrArg Prod.fst called)
  | remove key =>
    simp only [perform] at failed ⊢
    split at failed <;> rename_i store' called
    · cases failed
    · simpa only [called] using Access.delSteps_failed handles found early (congrArg Prod.fst called)

end TableCall

/-- A table `t` with unique indexes on the first byte and on the data, holding `[1] ↦ [1, 1]`. -/
def twoUniqueIndexes : System Store :=
  let sys := (System.fresh.addTable (fun _ => none) "t" none true).2
  let sys := (sys.addIndex (fun _ => none) 0 ⟨"t", some 2, none, []⟩ "a"
    (fun _ data => some (data.take 1)) none true).2
  let sys := (sys.addIndex (fun _ => none) 0 ⟨"t", some 2, none, [⟨"a", some 3⟩]⟩ "b"
    (fun _ data => some data) none true).2
  (sys.tableCall Codec.bytes Codec.bytes (fun _ => none) 2 (.insert [1] [1, 1])).2

/-- A master `m` whose record `[1]` tables `s` and `r` reference by a cascade and an abort key. -/
def cascadeThenAbort : System Store :=
  let sys := (System.fresh.addTable (fun _ => none) "m" none true).2
  let sys := (sys.addTable (fun _ => none) "s" none true).2
  let sys := (sys.addTable (fun _ => none) "r" none true).2
  let sys := (sys.addIndex (fun _ => none) 1 ⟨"s", some 3, none, []⟩ "sm" (fun _ data => some data)
    none false).2
  let sys := (sys.addIndex (fun _ => none) 2 ⟨"r", some 4, none, []⟩ "rm" (fun _ data => some data)
    none false).2
  let sys := (Index.addForeign none ⟨"rm", some 6⟩ ⟨"m", some 2, none, []⟩ .abort sys).2
  let sys := (Index.addForeign none ⟨"sm", some 5⟩ ⟨"m", some 2, none, []⟩ .cascade sys).2
  (sys.tableRun Codec.bytes Codec.bytes (fun _ => none) 2 [.insert [1] [0]] |>.2.tableRun
    Codec.bytes Codec.bytes (fun _ => none) 3 [.insert [1] [1]] |>.2.tableRun Codec.bytes
      Codec.bytes (fun _ => none) 4 [.insert [1] [1]]).2

/-- A table `t` with an index `a` on its data, holding the record `[1] ↦ [1]`. -/
def oneIndex : System Store :=
  let sys := (System.fresh.addTable (fun _ => none) "t" none true).2
  let sys := (sys.addIndex (fun _ => none) 0 ⟨"t", some 2, none, []⟩ "a"
    (fun _ data => some data) none false).2
  (sys.tableCall Codec.bytes Codec.bytes (fun _ => none) 2 (.insert [1] [1])).2

end Bdb
