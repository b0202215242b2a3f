import Bdblib.Foreign

/-!
# What the calls of a foreign-key session answer

In a session whose foreign key `add_foreign` laid out (`Bdblib.Foreign`), `table::insert` and
`table::update` on the referencing table throw `ForeignKey` for a record whose projection is no
key of the master, unless another index without duplicates refuses the record first.
`table::remove` on the master throws `ForeignKey` exactly in abort mode, when an entry of the
index has a key equal to the removed one; a cascade deletes the referencing records, and a
nullify passes each of them through its callback and keeps it.
-/

namespace Bdb

/-! ## Writes that the foreign key refuses -/

namespace Access

variable {handles : Handles} {key data : Bytes}

theorem insertSecondary_error {j : Nat} {store : Store} {code : DbError}
    (failed : (insertSecondary handles key data j store).1 = some code) :
    code = .foreignConflict ∨
      code = .einval ∧ ∃ index, handles.dbHandle j = some index ∧ index.dupSort = false := by
  unfold insertSecondary at failed
  cases indexed : handles.dbHandle j with
  | none => simp [indexed] at failed
  | some index =>
    simp only [indexed] at failed
    split at failed
    · cases failed
    · split_ifs at failed with unreferenced dup
      · exact .inl (Option.some_inj.mp failed).symm
      · split at failed <;> cases failed
      · split at failed
        · split_ifs at failed
          exact .inr ⟨(Option.some_inj.mp failed).symm, index, rfl, by simpa using dup⟩
        · cases failed

variable {i m : Nat} {index master : DbHandle} (indexFound : handles.dbHandle i = some index)
  (references : index.master = some m) (masterFound : handles.dbHandle m = some master)
include indexFound references masterFound

/-- The secondaries refuse a record whose projection the master lacks, or a unique index first. -/
theorem insertSecondaries_refused {indexKey : Bytes}
    (projected : index.secondaryKey key data = some indexKey) :
    ∀ {secondaries : List Nat}, (∀ j ∈ secondaries, handles.fileOf j ≠ master.file) →
      i ∈ secondaries → ∀ {store : Store},
      Records.find master.keyOrder indexKey (store.records master) = none →
      ∃ code, (insertSecondaries handles key data secondaries store).1 = some code ∧
        (code = .foreignConflict ∨ code = .einval ∧ ∃ j ∈ secondaries, j ≠ i ∧
          ∃ other, handles.dbHandle j = some other ∧ other.dupSort = false)
  | first :: rest, apart, member, store, missing => by
    rcases insertSecondaries_cons handles key data first rest store with
      ⟨code, failed, looped⟩ | ⟨inserted, looped⟩
    · refine ⟨code, looped ▸ failed, ?_⟩
      by_cases here : first = i
      · subst here
        have checked : (insertSecondary handles key data first store).1 = some .foreignConflict := by
          simp [insertSecondary, indexFound, projected, references, masterFound, missing]
        exact .inl (Option.some_inj.mp (failed.symm.trans checked))
      · rcases insertSecondary_error failed with conflict | ⟨invalid, other, found, unique⟩
        · exact .inl conflict
        · exact .inr ⟨invalid, first, List.mem_cons_self _ _, here, other, found, unique⟩
    · by_cases here : first = i
      · subst here
        have checked := insertSecondary_referenced indexFound references masterFound projected inserted
        rw [missing] at checked
        cases checked
      · have kept := @insertSecondary_records_of_ne handles key data master first
          (apart first (List.mem_cons_self _ _)) store
        obtain ⟨code, failed, refused⟩ := insertSecondaries_refused projected
          (fun j later => apart j (List.mem_cons_of_mem _ later))
          (List.mem_of_ne_of_mem (Ne.symm here) member) (kept.symm ▸ missing)
        refine ⟨code, looped ▸ failed, refused.imp id fun ⟨invalid, j, later, other⟩ =>
          ⟨invalid, j, List.mem_cons_of_mem _ later, other⟩⟩

end Access

section Refused

variable {handles : Handles} {s m i : Nat} {table master index : DbHandle}
  (found : handles.dbHandle s = some table) (member : i ∈ table.secondaries)
  (indexFound : handles.dbHandle i = some index) (references : index.master = some m)
  (masterFound : handles.dbHandle m = some master)
  (apart : ∀ j ∈ table.secondaries, handles.fileOf j ≠ master.file)
  {key data indexKey : Bytes} (projected : index.secondaryKey key data = some indexKey)
  {store : Store} (missing : Records.find master.keyOrder indexKey (store.records master) = none)
include found member indexFound references masterFound apart projected missing

/-- A `DB->put` past the existing-key check refuses a projection the master lacks. -/
theorem Access.put_refused {noOverwrite : Bool}
    (passes : (noOverwrite && (Records.lookup table.keyOrder key (store.records table)).isSome) =
      false) :
    ∃ code, (Access.put handles s key data noOverwrite store).1 = some code ∧
      (code = .foreignConflict ∨ code = .einval ∧ ∃ j ∈ table.secondaries, j ≠ i ∧
        ∃ other, handles.dbHandle j = some other ∧ other.dupSort = false) := by
  obtain ⟨code, failed, refused⟩ := Access.insertSecondaries_refused indexFound references
    masterFound projected apart member missing
  refine ⟨code, ?_, refused⟩
  simp only [Access.put, found, passes, Bool.false_eq_true, if_false]
  cases inserted : Access.insertSecondaries handles key data table.secondaries store with
  | mk result stored =>
    rw [inserted] at failed
    cases failed
    rfl

end Refused


/-- An index of the table other than `i` without duplicates, which can refuse a record first. -/
def OtherUnique (handles : Handles) (table : DbHandle) (i : Nat) : Prop :=
  ∃ j ∈ table.secondaries, j ≠ i ∧ ∃ other, handles.dbHandle j = some other ∧ other.dupSort = false

section Refusals

variable {root s m i : Nat} {mode : ForeignMode} {table master index : DbHandle}
  {sys : System Store} (session : ForeignSession root s m i mode table master index sys)
  {Key Data : Type} (keys : Codec Key) (values : Codec Data) {key : Key} {data : Data}
  {indexKey : Bytes}
  (projected : index.secondaryKey (keys.serialize key) (values.serialize data) = some indexKey)
  (missing : Records.find master.keyOrder indexKey (sys.abstract.current.records master) = none)
include session projected missing

/-- An insert whose projection the master lacks throws `ForeignKey`, or `Exists` earlier. -/
theorem ForeignSession.insert_refused
    (absent : Records.lookup table.keyOrder (keys.serialize key)
      (sys.abstract.current.records table) = none) :
    (sys.tableCall keys values (fun _ => none) s (.insert key data)).1 = .error .foreignKey ∨
      (sys.tableCall keys values (fun _ => none) s (.insert key data)).1 = .error .exists ∧
        OtherUnique sys.engine.handles table i := by
  have foreign := session.layout
  obtain ⟨code, failed, refused⟩ := Access.put_refused foreign.found foreign.member
    foreign.indexFound foreign.references foreign.masterFound
    (Access.apart_secondaries foreign.masterApart) projected missing
    (show (true && (Records.lookup table.keyOrder (keys.serialize key)
      (sys.abstract.current.records table)).isSome) = false by simp [absent])
  rw [System.tableCall, (session.inv.operate_refines _).1]
  simp only [TableCall.perform, Access.putSteps_answered]
  cases put : Access.put sys.engine.handles s (keys.serialize key) (values.serialize data) true
      sys.abstract.current with
  | mk result stored =>
    rw [put] at failed
    cases failed
    rcases refused with rfl | ⟨rfl, unique⟩
    · exact .inl rfl
    · exact .inr ⟨rfl, unique⟩

/-- An update whose projection the master lacks throws `ForeignKey`, or `Unknown` earlier. -/
theorem ForeignSession.update_refused
    (present : (Records.lookup table.keyOrder (keys.serialize key)
      (sys.abstract.current.records table)).isSome) :
    (sys.tableCall keys values (fun _ => none) s (.update key data)).1 = .error .foreignKey ∨
      (sys.tableCall keys values (fun _ => none) s (.update key data)).1 = .error .unknown ∧
        OtherUnique sys.engine.handles table i := by
  have foreign := session.layout
  obtain ⟨code, failed, refused⟩ := Access.put_refused foreign.found foreign.member
    foreign.indexFound foreign.references foreign.masterFound
    (Access.apart_secondaries foreign.masterApart) projected missing
    (show (false && (Records.lookup table.keyOrder (keys.serialize key)
      (sys.abstract.current.records table)).isSome) = false from rfl)
  have probe : Access.exists sys.engine.handles s (keys.serialize key) sys.abstract.current =
      none := by
    obtain ⟨stored, looked⟩ := Option.isSome_iff_exists.mp present
    simp [Access.exists, Access.get, foreign.found, looked]
  rw [System.tableCall, (session.inv.operate_refines _).1]
  simp only [TableCall.perform, probe, Access.putSteps_answered]
  cases put : Access.put sys.engine.handles s (keys.serialize key) (values.serialize data) false
      sys.abstract.current with
  | mk result stored =>
    rw [put] at failed
    cases failed
    rcases refused with rfl | ⟨rfl, unique⟩
    · exact .inl rfl
    · exact .inr ⟨rfl, unique⟩

end Refusals

/-! ## The foreign conflicts of a write -/

theorem Access.insertSecondary_conflict {handles : Handles} {key data : Bytes} {j : Nat}
    {store : Store}
    (conflict : (Access.insertSecondary handles key data j store).1 = some .foreignConflict) :
    ∃ index master indexKey, handles.dbHandle j = some index ∧
      index.master.bind handles.dbHandle = some master ∧
      index.secondaryKey key data = some indexKey ∧
      Records.find master.keyOrder indexKey (store.records master) = none := by
  unfold Access.insertSecondary at conflict
  cases indexed : handles.dbHandle j with
  | none => simp [indexed] at conflict
  | some index =>
    cases projected : index.secondaryKey key data with
    | none => simp [indexed, projected] at conflict
    | some indexKey =>
      cases mastered : index.master.bind handles.dbHandle with
      | none =>
        simp only [indexed, projected, mastered] at conflict
        repeat' split at conflict
        all_goals simp_all
      | some master =>
        refine ⟨index, master, indexKey, rfl, mastered, projected, ?_⟩
        by_contra present
        simp only [indexed, projected, mastered, Option.isSome_iff_ne_none.mpr present] at conflict
        repeat' split at conflict
        all_goals simp_all

section Conflict

variable {handles : Handles} {i m : Nat} {index master : DbHandle}
  (indexFound : handles.dbHandle i = some index) (references : index.master = some m)
  (masterFound : handles.dbHandle m = some master) {key data : Bytes}
include indexFound references masterFound

theorem Access.insertSecondaries_conflict :
    ∀ {secondaries : List Nat},
      (∀ j ∈ secondaries, j ≠ i → (handles.dbHandle j).bind DbHandle.master = none) →
      (∀ j ∈ secondaries, handles.fileOf j ≠ master.file) → ∀ {store : Store},
      (Access.insertSecondaries handles key data secondaries store).1 = some .foreignConflict →
      ∃ indexKey, index.secondaryKey key data = some indexKey ∧
        Records.find master.keyOrder indexKey (store.records master) = none
  | first :: rest, alone, apart, store, conflict => by
    rcases Access.insertSecondaries_cons handles key data first rest store with
      ⟨_, -, looped⟩ | ⟨-, looped⟩ <;> rw [looped] at conflict
    · obtain ⟨other, otherMaster, indexKey, otherFound, mastered, projected, missing⟩ :=
        Access.insertSecondary_conflict conflict
      by_cases here : first = i
      · subst here
        rw [indexFound, Option.some_inj] at otherFound
        subst otherFound
        rw [references, Option.some_bind, masterFound, Option.some_inj] at mastered
        subst mastered
        exact ⟨indexKey, projected, missing⟩
      · have unmastered := alone first (List.mem_cons_self _ _) here
        rw [otherFound, Option.some_bind] at unmastered
        rw [unmastered] at mastered
        cases mastered
    · obtain ⟨indexKey, projected, missing⟩ := Access.insertSecondaries_conflict
        (fun j later => alone j (List.mem_cons_of_mem _ later))
        (fun j later => apart j (List.mem_cons_of_mem _ later)) conflict
      rw [Access.insertSecondary_records_of_ne handles (apart first (List.mem_cons_self _ _))] at missing
      exact ⟨indexKey, projected, missing⟩

variable {s : Nat} {table : DbHandle} (found : handles.dbHandle s = some table)
  (alone : ∀ j ∈ table.secondaries, j ≠ i → (handles.dbHandle j).bind DbHandle.master = none)
  (masterApart : master.file ∉ handles.filesOf table)
include found alone masterApart

/-- With no other index having a master, `DB->put` conflicts only on a projection it lacks. -/
theorem Access.put_conflict {noOverwrite : Bool} {store : Store}
    (conflict : (Access.put handles s key data noOverwrite store).1 = some .foreignConflict) :
    ∃ indexKey, index.secondaryKey key data = some indexKey ∧
      Records.find master.keyOrder indexKey (store.records master) = none := by
  simp only [Access.put, found] at conflict
  split_ifs at conflict
  · cases conflict
  · cases inserted : Access.insertSecondaries handles key data table.secondaries store with
    | mk code stored =>
      cases code with
      | none => simp [inserted] at conflict
      | some code =>
        simp only [inserted] at conflict
        exact Access.insertSecondaries_conflict indexFound references masterFound alone
          (Access.apart_secondaries masterApart) (by rw [inserted]; exact conflict)

end Conflict

/-- A nullify callback rewriting each record to a projection skipped or held by the master. -/
def RewritesInto (index master : DbHandle) (records : Records) (callback : NullifyCallback) :
    Prop :=
  ∀ key data foreignKey newData, callback key data foreignKey = .ok (newData, true) →
    ∀ indexKey ∈ index.secondaryKey key newData,
      (Records.find master.keyOrder indexKey records).isSome

/-- The callback of a nullify foreign key rewrites records into keys of the master. -/
def ForeignMode.RewritesInto (index master : DbHandle) (records : Records) : ForeignMode → Prop
  | .nullify callback => Bdb.RewritesInto index master records callback
  | _ => True

section NoConflict

variable {handles : Handles} {s m i : Nat} {table master index : DbHandle}
  (found : handles.dbHandle s = some table) (indexFound : handles.dbHandle i = some index)
  (references : index.master = some m) (masterFound : handles.dbHandle m = some master)
  (alone : ∀ j ∈ table.secondaries, j ≠ i → (handles.dbHandle j).bind DbHandle.master = none)
  (masterApart : master.file ∉ handles.filesOf table)
include found indexFound references masterFound alone masterApart

theorem nullifyAll_ne_conflict {callback : NullifyCallback} {foreignKey : Bytes}
    {records : Records} (into : RewritesInto index master records callback) :
    ∀ (rest : List Bytes) (store : Store), store.records master = records →
      (Access.nullifyAll handles callback s foreignKey rest store).1 ≠ some .foreignConflict
  | [], _, _ => by simp [Access.nullifyAll]
  | key :: rest, store, kept => by
    simp only [Access.nullifyAll, Access.get_of_dbHandle found]
    cases looked : Records.lookup table.keyOrder key (store.records table) with
    | none => simp
    | some data =>
      simp only
      cases called : callback key data foreignKey with
      | error code => simp [called]
      | ok result =>
        obtain ⟨newData, changed⟩ := result
        cases changed with
        | false => exact nullifyAll_ne_conflict into rest store kept
        | true =>
          simp only
          cases rewritten : Access.put handles s key newData false store with
          | mk code stored =>
            cases code with
            | none =>
              have masterKept := Access.put_records_of_not_mem found masterApart key newData false
                store
              rw [rewritten] at masterKept
              exact nullifyAll_ne_conflict into rest stored (masterKept.trans kept)
            | some code =>
              intro conflict
              obtain ⟨indexKey, projected, missing⟩ := Access.put_conflict indexFound references
                masterFound found alone masterApart (show (Access.put handles s key newData false
                  store).1 = some .foreignConflict by rw [rewritten]; exact conflict)
              have present := into key data foreignKey newData called indexKey projected
              rw [← kept, missing] at present
              cases present

end NoConflict

theorem Access.del_ne_conflict {handles : Handles} {s : Nat} {table : DbHandle}
    (found : handles.dbHandle s = some table) (noForeign : table.foreign = []) (fuel : Nat)
    (key : Bytes) (store : Store) :
    (Access.del handles fuel s key store).1 ≠ some .foreignConflict := by
  cases fuel with
  | zero => simp [Access.del]
  | succ fuel =>
    simp only [Access.del, found, noForeign, Access.applyForeign]
    split <;> simp

theorem Access.cascadeAll_ne_conflict {handles : Handles} {s : Nat} {table : DbHandle}
    (found : handles.dbHandle s = some table) (noForeign : table.foreign = []) (fuel : Nat) :
    ∀ (rest : List Bytes) (store : Store),
      (Access.cascadeAll (Access.del handles fuel) s rest store).1 ≠ some .foreignConflict
  | [], _ => by simp [Access.cascadeAll]
  | key :: rest, store => by
    rcases Access.cascadeAll_cons (Access.del handles fuel) s key rest store with
      ⟨_, -, looped⟩ | ⟨-, looped⟩ <;> rw [looped]
    · exact Access.del_ne_conflict found noForeign fuel key store
    · exact Access.cascadeAll_ne_conflict found noForeign fuel rest _

/-! ## The referencing records -/

section Referencing

variable {table index : DbHandle} {store : Store} {foreignKey : Bytes}
  (mirrors : Mirrors table index (store.records table) (store.records index))
include mirrors

theorem Mirrors.referencing_nodup :
    ((Records.dups index.keyOrder foreignKey (store.records index)).map Prod.snd).Nodup :=
  mirrors.keys_nodup.sublist ((List.filter_sublist _).map _)

theorem Mirrors.referencing_mem {key : Bytes}
    (referencing : key ∈ (Records.dups index.keyOrder foreignKey (store.records index)).map
      Prod.snd) :
    ∃ data, Records.lookup table.keyOrder key (store.records table) = some data ∧
      ∃ indexKey ∈ index.secondaryKey key data, index.keyOrder indexKey foreignKey = .eq := by
  obtain ⟨⟨entryKey, _⟩, entered, rfl⟩ := List.mem_map.mp referencing
  simp only [Records.dups, List.mem_filter, decide_eq_true_eq] at entered
  obtain ⟨data, looked, indexKey, projects, indexEqual⟩ := mirrors.projects_of_entry entered.1
  exact ⟨data, looked, indexKey, projects, (Batteries.TransCmp.cmp_congr_left indexEqual).trans
    (Batteries.OrientedCmp.cmp_eq_eq_symm.mp entered.2)⟩

theorem Mirrors.mem_referencing {key data indexKey : Bytes}
    (looked : Records.lookup table.keyOrder key (store.records table) = some data)
    (projected : indexKey ∈ index.secondaryKey key data)
    (equal : index.keyOrder indexKey foreignKey = .eq) :
    key ∈ (Records.dups index.keyOrder foreignKey (store.records index)).map Prod.snd := by
  obtain ⟨entryKey, stored, entryEqual⟩ := mirrors.entry_of_projects looked projected
  refine List.mem_map.mpr ⟨(entryKey, key), ?_, rfl⟩
  simp only [Records.dups, List.mem_filter, stored, true_and, decide_eq_true_eq]
  exact (Batteries.TransCmp.cmp_congr_left (Batteries.OrientedCmp.cmp_eq_eq_symm.mp equal)).trans
    entryEqual

end Referencing

theorem Records.dups_map_eq_nil_iff {order : Bytes → Bytes → Ordering} [Batteries.TransCmp order]
    {key foreignKey : Bytes} (equal : order key foreignKey = .eq) (records : Records) :
    (Records.dups order foreignKey records).map Prod.snd = [] ↔
      ¬∃ entry ∈ records, order key entry.1 = .eq := by
  simp only [List.map_eq_nil_iff, Records.dups, List.filter_eq_nil_iff, decide_eq_true_eq,
    not_exists, not_and, Batteries.TransCmp.cmp_congr_left equal]

section Loops

variable {handles : Handles} {s : Nat} {table : DbHandle} (found : handles.dbHandle s = some table)
  (layout : Layout handles table)
include found layout

theorem Access.del_present {fuel : Nat} {key : Bytes} {store : Store}
    (present : (Records.lookup table.keyOrder key (store.records table)).isSome) :
    (Access.del handles (fuel + 1) s key store).1 = none := by
  cases located : Records.find table.keyOrder key (store.records table) with
  | none => simp [Records.lookup, located] at present
  | some record => simp [Access.del, found, located, layout.noForeign, Access.applyForeign]

theorem Access.cascadeAll_present {fuel : Nat} :
    ∀ {rest : List Bytes} {store : Store}, rest.Nodup →
      (∀ key ∈ rest, (Records.lookup table.keyOrder key (store.records table)).isSome) →
      (Access.cascadeAll (Access.del handles (fuel + 1)) s rest store).1 = none
  | [], _, _, _ => rfl
  | key :: rest, store, distinct, present => by
    obtain ⟨file, opened⟩ := Option.isSome_iff_exists.mp layout.opened
    have deleted : (Access.del handles (fuel + 1) s key store).1 = none :=
      Access.del_present found layout (present key (List.mem_cons_self _ _))
    have erased := Access.del_records_own found opened layout.apart layout.noForeign deleted
    rcases Access.cascadeAll_cons (Access.del handles (fuel + 1)) s key rest store with
      ⟨_, failed, -⟩ | ⟨-, looped⟩
    · rw [deleted] at failed; cases failed
    rw [looped]
    refine Access.cascadeAll_present (List.nodup_cons.mp distinct).2 fun key' later => ?_
    rw [erased, Records.lookup_erase, if_neg fun equal =>
      (List.nodup_cons.mp distinct).1 (layout.separates key' key equal ▸ later)]
    exact present key' (List.mem_cons_of_mem _ later)

/-- What a nullify that returns did with its first key: read the record, rewrite it, put it back. -/
theorem Access.nullifyAll_cons {callback : NullifyCallback} {foreignKey key : Bytes}
    {rest : List Bytes} {store : Store}
    (ok : (Access.nullifyAll handles callback s foreignKey (key :: rest) store).1 = none) :
    ∃ data newData changed, Records.lookup table.keyOrder key (store.records table) = some data ∧
      callback key data foreignKey = .ok (newData, changed) ∧
      ∃ stored : Store, stored.records table = (if changed then
          Records.put table.keyOrder key newData (store.records table) else store.records table) ∧
        Access.nullifyAll handles callback s foreignKey (key :: rest) store =
          Access.nullifyAll handles callback s foreignKey rest stored := by
  simp only [Access.nullifyAll, Access.get_of_dbHandle found] at ok ⊢
  cases looked : Records.lookup table.keyOrder key (store.records table) with
  | none => simp [looked] at ok
  | some data =>
    simp only [looked] at ok ⊢
    cases called : callback key data foreignKey with
    | error code => simp [called] at ok
    | ok result =>
      obtain ⟨newData, changed⟩ := result
      simp only [called] at ok ⊢
      refine ⟨data, newData, changed, rfl, called, ?_⟩
      cases changed with
      | false => exact ⟨store, rfl, rfl⟩
      | true =>
        simp only
        rcases rewritten : Access.put handles s key newData false store with ⟨code, stored⟩
        cases code with
        | some code => simp [rewritten] at ok
        | none =>
          obtain ⟨file, opened⟩ := Option.isSome_iff_exists.mp layout.opened
          have own := Access.put_records_own found opened layout.apart
            (show (Access.put handles s key newData false store).1 = none by rw [rewritten])
          rw [rewritten] at own
          exact ⟨stored, own, rfl⟩

theorem Access.nullifyAll_lookup_of_not_mem {callback : NullifyCallback} {foreignKey key : Bytes} :
    ∀ {rest : List Bytes} {store : Store}, key ∉ rest →
      (Access.nullifyAll handles callback s foreignKey rest store).1 = none →
      Records.lookup table.keyOrder key
          ((Access.nullifyAll handles callback s foreignKey rest store).2.records table) =
        Records.lookup table.keyOrder key (store.records table)
  | [], _, _, _ => rfl
  | first :: rest, store, outside, ok => by
    obtain ⟨data, newData, changed, -, -, stored, records, unfolded⟩ :=
      Access.nullifyAll_cons found layout ok
    rw [unfolded] at ok ⊢
    rw [Access.nullifyAll_lookup_of_not_mem (fun later => outside (List.mem_cons_of_mem _ later))
      ok, records]
    cases changed with
    | false => rfl
    | true =>
      rw [if_pos rfl, Records.lookup_put, if_neg fun equal =>
        outside (layout.separates key first equal ▸ List.mem_cons_self _ _)]

/-- A nullify that returns has passed each of its keys' records through the callback and kept it. -/
theorem Access.nullifyAll_lookup {callback : NullifyCallback} {foreignKey key data : Bytes} :
    ∀ {rest : List Bytes} {store : Store}, rest.Nodup → key ∈ rest →
      Records.lookup table.keyOrder key (store.records table) = some data →
      (Access.nullifyAll handles callback s foreignKey rest store).1 = none →
      ∃ newData changed, callback key data foreignKey = .ok (newData, changed) ∧
        Records.lookup table.keyOrder key
          ((Access.nullifyAll handles callback s foreignKey rest store).2.records table) =
            some (if changed then newData else data)
  | first :: rest, store, distinct, member, looked, ok => by
    obtain ⟨data', newData, changed, looked', called, stored, records, unfolded⟩ :=
      Access.nullifyAll_cons found layout ok
    rw [unfolded] at ok ⊢
    rcases List.mem_cons.mp member with rfl | later
    · obtain rfl := Option.some_inj.mp (looked.symm.trans looked')
      refine ⟨newData, changed, called, ?_⟩
      rw [Access.nullifyAll_lookup_of_not_mem found layout (List.nodup_cons.mp distinct).1 ok,
        records]
      cases changed with
      | false => exact looked
      | true => rw [if_pos rfl, Records.lookup_put, if_pos Batteries.OrientedCmp.cmp_refl]; rfl
    · refine Access.nullifyAll_lookup (List.nodup_cons.mp distinct).2 later ?_ ok
      rw [records]
      cases changed with
      | false => exact looked
      | true =>
        rw [if_pos rfl, Records.lookup_put, if_neg fun equal =>
          (List.nodup_cons.mp distinct).1 (layout.separates key first equal ▸ later)]
        exact looked

end Loops

/-! ## Deleting a master record -/

/-- A master's only foreign key does to the store what its mode does to the referencing keys. -/
theorem Access.applyForeign_single {handles : Handles} {i : Nat} {index : DbHandle}
    {mode : ForeignMode} (indexFound : handles.dbHandle i = some index)
    (delete : Nat → Bytes → Store → Option DbError × Store) (foreignKey : Bytes) (store : Store) :
    Access.applyForeign handles delete foreignKey [(i, mode)] store =
      if (Records.dups index.keyOrder foreignKey (store.records index)).map Prod.snd = [] then
        (none, store)
      else
        match mode with
        | .abort => (some .foreignConflict, store)
        | .cascade => Access.cascadeAll delete ((index.primary.map Prod.fst).getD i)
            ((Records.dups index.keyOrder foreignKey (store.records index)).map Prod.snd) store
        | .nullify callback => Access.nullifyAll handles callback
            ((index.primary.map Prod.fst).getD i) foreignKey
            ((Records.dups index.keyOrder foreignKey (store.records index)).map Prod.snd) store := by
  simp only [Access.applyForeign, indexFound]
  split_ifs
  · rfl
  · cases mode <;> simp only <;> split <;> first | rfl | (rename_i applied; rw [applied])

namespace ForeignLayout

variable {handles : Handles} {s m i : Nat} {mode : ForeignMode} {table master index : DbHandle}
  (foreign : ForeignLayout handles s m i mode table master index) {store : Store}
include foreign

theorem primary_getD : (index.primary.map Prod.fst).getD i = s := by
  rw [foreign.primary]
  rfl

/-- `DB->del` on the master conflicts exactly in abort mode, on an entry equal to the key. -/
theorem del_conflict_iff (referenced : Referenced master index store)
    (into : mode.RewritesInto index master (store.records master)) (key : Bytes) :
    (Access.del handles (handles.fresh + 1) m key store).1 = some .foreignConflict ↔
      mode = .abort ∧ ∃ entry ∈ store.records index, index.keyOrder key entry.1 = .eq := by
  rw [Access.del_master_fst foreign.masterFound foreign.foreign]
  cases present : Records.find master.keyOrder key (store.records master) with
  | none =>
    refine iff_of_false (by simp) fun ⟨_, entry, entered, equal⟩ => ?_
    have located := referenced entry entered
    rw [← Records.find_congr master.keyOrder (show master.keyOrder key entry.1 = .eq by
      rwa [← foreign.compare]), present] at located
    cases located
  | some record =>
    obtain ⟨storedKey, data⟩ := record
    have stored : index.keyOrder key storedKey = .eq := by
      rw [foreign.compare]
      exact Records.find_eq_some _ present
    simp only [Access.applyForeign_single foreign.indexFound, foreign.primary_getD]
    split_ifs with unreferenced
    · exact iff_of_false (by simp) fun ⟨_, referencing⟩ =>
        (Records.dups_map_eq_nil_iff stored _).mp unreferenced referencing
    · have referencing := not_not.mp (mt (Records.dups_map_eq_nil_iff stored _).mpr unreferenced)
      cases mode with
      | abort => exact iff_of_true rfl ⟨rfl, referencing⟩
      | cascade =>
        exact iff_of_false (Access.cascadeAll_ne_conflict foreign.found foreign.layout.noForeign
          _ _ _) (by simp)
      | nullify callback =>
        exact iff_of_false (nullifyAll_ne_conflict foreign.found foreign.indexFound
          foreign.references foreign.masterFound foreign.alone foreign.masterApart into _ _ rfl)
          (by simp)

variable (indexed : Indexed handles table store)
include indexed

/-- In cascade mode, a `DB->del` on the master of a key it holds succeeds. -/
theorem del_cascade (cascade : mode = .cascade) {key : Bytes}
    (present : (Records.find master.keyOrder key (store.records master)).isSome) :
    (Access.del handles (handles.fresh + 1) m key store).1 = none := by
  subst cascade
  obtain ⟨fuel, deep⟩ : ∃ fuel, handles.fresh = fuel + 1 :=
    ⟨_, (Nat.succ_pred_eq_of_pos (Nat.zero_lt_of_lt foreign.created)).symm⟩
  obtain ⟨⟨storedKey, data⟩, located⟩ := Option.isSome_iff_exists.mp present
  have mirrors := indexed.mirrors i foreign.member index foreign.indexFound
  rw [Access.del_master_fst foreign.masterFound foreign.foreign, located]
  simp only [Access.applyForeign_single foreign.indexFound, foreign.primary_getD]
  split_ifs
  · rfl
  · rw [deep]
    refine Access.cascadeAll_present foreign.found foreign.layout mirrors.referencing_nodup
      fun key referencing => ?_
    obtain ⟨data, looked, -⟩ := mirrors.referencing_mem referencing
    simp [looked]

/-- A `DB->del` on the master that returns leaves no record projecting to the deleted key. -/
theorem del_clears (rewrites : mode.Rewrites index) (referenced : Referenced master index store)
    {fuel : Nat} {key : Bytes} (ok : (Access.del handles fuel m key store).1 = none)
    {recordKey data indexKey : Bytes}
    (looked : Records.lookup table.keyOrder recordKey
      ((Access.del handles fuel m key store).2.records table) = some data)
    (projected : indexKey ∈ index.secondaryKey recordKey data) :
    index.keyOrder indexKey key ≠ .eq := by
  obtain ⟨indexedAfter, -, cleared⟩ := foreign.del_master rewrites indexed referenced ok
  obtain ⟨entryKey, entered, entryEqual⟩ :=
    (indexedAfter.mirrors i foreign.member index foreign.indexFound).entry_of_projects looked
      projected
  exact fun equal => cleared _ entered ((Batteries.TransCmp.cmp_congr_left
    (Batteries.OrientedCmp.cmp_eq_eq_symm.mp equal)).trans entryEqual)

/-- In nullify mode, a `DB->del` on the master that returns rewrote each referencing record. -/
theorem del_nullify {callback : NullifyCallback} (nullify : mode = .nullify callback)
    {key storedKey masterData : Bytes}
    (present : Records.find master.keyOrder key (store.records master) =
      some (storedKey, masterData))
    (ok : (Access.del handles (handles.fresh + 1) m key store).1 = none)
    {recordKey data indexKey : Bytes}
    (looked : Records.lookup table.keyOrder recordKey (store.records table) = some data)
    (projected : indexKey ∈ index.secondaryKey recordKey data)
    (equal : index.keyOrder indexKey key = .eq) :
    ∃ newData changed, callback recordKey data storedKey = .ok (newData, changed) ∧
      Records.lookup table.keyOrder recordKey
          ((Access.del handles (handles.fresh + 1) m key store).2.records table) =
        some (if changed then newData else data) := by
  subst nullify
  have mirrors := indexed.mirrors i foreign.member index foreign.indexFound
  have stored : index.keyOrder key storedKey = .eq := by
    rw [foreign.compare]
    exact Records.find_eq_some _ present
  have referencing := mirrors.mem_referencing looked projected
    ((Batteries.TransCmp.cmp_congr_right stored).symm.trans equal)
  have applied : (Access.applyForeign handles (Access.del handles handles.fresh) storedKey
      [(i, .nullify callback)] store).1 = none := by
    rwa [Access.del_master_fst foreign.masterFound foreign.foreign, present] at ok
  rw [foreign.del_master_records present applied (List.mem_cons_self _ _)]
  rw [Access.applyForeign_single foreign.indexFound, if_neg (List.ne_nil_of_mem referencing)]
    at applied ⊢
  simp only [foreign.primary_getD] at applied ⊢
  exact Access.nullifyAll_lookup foreign.found foreign.layout mirrors.referencing_nodup
    referencing looked applied

end ForeignLayout

/-- `table::remove` answers and writes what `DB->del` does on the top transaction's store. -/
theorem StackInv.remove_eq {root : Nat} {sys : System Store} (inv : StackInv root sys)
    {Key Data : Type} (keys : Codec Key) (values : Codec Data) (db : Nat) (key : Key) :
    (sys.tableCall keys values (fun _ => none) db (.remove key)).1 =
        (match (Access.del sys.engine.handles (sys.engine.handles.fresh + 1) db
            (keys.serialize key) sys.abstract.current).1 with
          | none => .ok .done
          | some code => .error (removeError code)) ∧
      (sys.tableCall keys values (fun _ => none) db (.remove key)).2.abstract.current =
        (Access.del sys.engine.handles (sys.engine.handles.fresh + 1) db (keys.serialize key)
          sys.abstract.current).2 := by
  rw [System.tableCall, (inv.operate_refines _).1, inv.performTop_current]
  simp only [TableCall.perform, Access.delSteps_answered, Access.depth]
  cases Access.del sys.engine.handles (sys.engine.handles.fresh + 1) db (keys.serialize key)
      sys.abstract.current with
  | mk code stored => cases code <;> exact ⟨rfl, rfl⟩

section Remove

variable {root s m i : Nat} {mode : ForeignMode} {table master index : DbHandle}
  {sys : System Store} (session : ForeignSession root s m i mode table master index sys)
  {Key Data : Type} (keys : Codec Key) (values : Codec Data) (key : Key)
include session

/-- `table::remove` on the master throws `ForeignKey` exactly in abort mode, on an equal entry. -/
theorem ForeignSession.remove_foreignKey
    (into : mode.RewritesInto index master (sys.abstract.current.records master)) :
    (sys.tableCall keys values (fun _ => none) m (.remove key : TableCall Key Data)).1 =
        .error .foreignKey ↔
      mode = .abort ∧ ∃ entry ∈ sys.abstract.current.records index,
        index.keyOrder (keys.serialize key) entry.1 = .eq := by
  rw [(session.inv.remove_eq keys values m key).1,
    ← session.layout.del_conflict_iff session.referenced into]
  cases (Access.del sys.engine.handles (sys.engine.handles.fresh + 1) m (keys.serialize key)
      sys.abstract.current).1 with
  | none => simp
  | some code => cases code <;> simp [removeError]

/-- In cascade mode, `table::remove` on the master of a key it holds returns and clears the key. -/
theorem ForeignSession.remove_cascade (cascade : mode = .cascade)
    (present : (Records.find master.keyOrder (keys.serialize key)
      (sys.abstract.current.records master)).isSome) :
    (sys.tableCall keys values (fun _ => none) m (.remove key : TableCall Key Data)).1 =
        .ok .done ∧
      ∀ recordKey data, Records.lookup table.keyOrder recordKey
          ((sys.tableCall keys values (fun _ => none) m (.remove key : TableCall Key Data)).2.abstract.current.records
            table) = some data →
        ∀ indexKey ∈ index.secondaryKey recordKey data,
          index.keyOrder indexKey (keys.serialize key) ≠ .eq := by
  obtain ⟨answer, after⟩ := session.inv.remove_eq keys values m key
  have ok := session.layout.del_cascade session.indexed cascade present
  rw [answer, after, ok]
  exact ⟨rfl, fun recordKey data looked indexKey projected =>
    session.layout.del_clears session.indexed (by rw [cascade]; trivial) session.referenced ok
      looked projected⟩

/-- In nullify mode, `table::remove` on the master that returns rewrote each referencing record. -/
theorem ForeignSession.remove_nullify {callback : NullifyCallback}
    (nullify : mode = .nullify callback) {storedKey masterData : Bytes}
    (present : Records.find master.keyOrder (keys.serialize key)
      (sys.abstract.current.records master) = some (storedKey, masterData))
    (ok : (sys.tableCall keys values (fun _ => none) m (.remove key : TableCall Key Data)).1 =
      .ok .done)
    {recordKey data indexKey : Bytes}
    (looked : Records.lookup table.keyOrder recordKey (sys.abstract.current.records table) =
      some data)
    (projected : indexKey ∈ index.secondaryKey recordKey data)
    (equal : index.keyOrder indexKey (keys.serialize key) = .eq) :
    ∃ newData changed, callback recordKey data storedKey = .ok (newData, changed) ∧
      Records.lookup table.keyOrder recordKey
          ((sys.tableCall keys values (fun _ => none) m (.remove key : TableCall Key Data)).2.abstract.current.records
            table) = some (if changed then newData else data) := by
  obtain ⟨answer, after⟩ := session.inv.remove_eq keys values m key
  have deleted : (Access.del sys.engine.handles (sys.engine.handles.fresh + 1) m
      (keys.serialize key) sys.abstract.current).1 = none := by
    rw [answer] at ok
    revert ok
    cases (Access.del sys.engine.handles (sys.engine.handles.fresh + 1) m (keys.serialize key)
      sys.abstract.current).1 <;> simp
  rw [after]
  exact session.layout.del_nullify session.indexed nullify present deleted looked projected equal

end Remove

/-! ## The foreign key along every session -/

/-- What the foreign key of the index `i` of `s` on the master `m` enforces in a state: the index
referenced, the table indexed, and how the calls on the two tables throw and write. -/
structure Enforced (s m i : Nat) (mode : ForeignMode) (table master index : DbHandle)
    (sys : System Store) : Prop where
  referenced : Referenced master index sys.abstract.current
  indexed : Indexed sys.engine.handles table sys.abstract.current
  /-- An insert of a new key whose projection is no key of the master throws. -/
  insert : ∀ {Key Data : Type} (keys : Codec Key) (values : Codec Data) (key : Key) (data : Data)
    (indexKey : Bytes),
    index.secondaryKey (keys.serialize key) (values.serialize data) = some indexKey →
    Records.find master.keyOrder indexKey (sys.abstract.current.records master) = none →
    Records.lookup table.keyOrder (keys.serialize key) (sys.abstract.current.records table) =
      none →
    (sys.tableCall keys values (fun _ => none) s (.insert key data)).1 = .error .foreignKey ∨
      (sys.tableCall keys values (fun _ => none) s (.insert key data)).1 = .error .exists ∧
        OtherUnique sys.engine.handles table i
  /-- An update of a present key whose projection is no key of the master throws. -/
  update : ∀ {Key Data : Type} (keys : Codec Key) (values : Codec Data) (key : Key) (data : Data)
    (indexKey : Bytes),
    index.secondaryKey (keys.serialize key) (values.serialize data) = some indexKey →
    Records.find master.keyOrder indexKey (sys.abstract.current.records master) = none →
    (Records.lookup table.keyOrder (keys.serialize key)
      (sys.abstract.current.records table)).isSome →
    (sys.tableCall keys values (fun _ => none) s (.update key data)).1 = .error .foreignKey ∨
      (sys.tableCall keys values (fun _ => none) s (.update key data)).1 = .error .unknown ∧
        OtherUnique sys.engine.handles table i
  /-- A remove on the master throws `ForeignKey` exactly in abort mode on a referenced key. -/
  remove : ∀ {Key Data : Type} (keys : Codec Key) (values : Codec Data) (key : Key),
    mode.RewritesInto index master (sys.abstract.current.records master) →
    ((sys.tableCall keys values (fun _ => none) m (.remove key : TableCall Key Data)).1 =
        .error .foreignKey ↔
      mode = .abort ∧ ∃ entry ∈ sys.abstract.current.records index,
        index.keyOrder (keys.serialize key) entry.1 = .eq)
  /-- In cascade mode a remove on the master of a key it holds deletes the referencing records. -/
  cascade : mode = .cascade → ∀ {Key Data : Type} (keys : Codec Key) (values : Codec Data)
    (key : Key),
    (Records.find master.keyOrder (keys.serialize key)
      (sys.abstract.current.records master)).isSome →
    (sys.tableCall keys values (fun _ => none) m (.remove key : TableCall Key Data)).1 =
        .ok .done ∧
      ∀ recordKey data, Records.lookup table.keyOrder recordKey
          ((sys.tableCall keys values (fun _ => none) m
            (.remove key : TableCall Key Data)).2.abstract.current.records table) = some data →
        ∀ indexKey ∈ index.secondaryKey recordKey data,
          index.keyOrder indexKey (keys.serialize key) ≠ .eq
  /-- In nullify mode a remove on the master that returns rewrote and kept the referencing
  records. -/
  nullify : ∀ callback, mode = .nullify callback → ∀ {Key Data : Type} (keys : Codec Key)
    (values : Codec Data) (key : Key) (storedKey masterData : Bytes),
    Records.find master.keyOrder (keys.serialize key) (sys.abstract.current.records master) =
      some (storedKey, masterData) →
    (sys.tableCall keys values (fun _ => none) m (.remove key : TableCall Key Data)).1 =
      .ok .done →
    ∀ recordKey data indexKey,
      Records.lookup table.keyOrder recordKey (sys.abstract.current.records table) = some data →
      indexKey ∈ index.secondaryKey recordKey data →
      index.keyOrder indexKey (keys.serialize key) = .eq →
      ∃ newData changed, callback recordKey data storedKey = .ok (newData, changed) ∧
        Records.lookup table.keyOrder recordKey
            ((sys.tableCall keys values (fun _ => none) m
              (.remove key : TableCall Key Data)).2.abstract.current.records table) =
          some (if changed then newData else data)

theorem ForeignSession.enforced {root s m i : Nat} {mode : ForeignMode}
    {table master index : DbHandle} {sys : System Store}
    (session : ForeignSession root s m i mode table master index sys) :
    Enforced s m i mode table master index sys :=
  ⟨session.referenced, session.indexed,
    fun keys values _ _ _ projected missing absent =>
      session.insert_refused keys values projected missing absent,
    fun keys values _ _ _ projected missing present =>
      session.update_refused keys values projected missing present,
    fun keys values key into => session.remove_foreignKey keys values key into,
    fun cascade => fun keys values key present =>
      session.remove_cascade keys values key cascade present,
    fun _ nullify => fun keys values key _ _ present ok _ _ _ looked projected equal =>
      session.remove_nullify keys values key nullify present ok looked projected equal⟩

/-- After an `add_foreign` that returns, every state a run of calls reaches enforces the key. -/
theorem foreign_key_enforced {root s m i : Nat} {sys : System Store}
    {table master secondary : DbHandle} {fault : Option DbError} {index : Index} {foreign : Table}
    {mode : ForeignMode} (inv : StackInv root sys)
    (found : sys.engine.handles.dbHandle s = some table) (layout : Layout sys.engine.handles table)
    (member : i ∈ table.secondaries) (indexFound : sys.engine.handles.dbHandle i = some secondary)
    (primary : secondary.primary.map Prod.fst = some s)
    (masterFound : sys.engine.handles.dbHandle m = some master) (noForeign : master.foreign = [])
    (alone : ∀ j ∈ table.secondaries, j ≠ i →
      (sys.engine.handles.dbHandle j).bind DbHandle.master = none)
    (compare : secondary.keyOrder = master.keyOrder) (opened : master.file.isSome)
    (own : ∀ j ∈ master.secondaries, sys.engine.handles.fileOf j ≠ master.file)
    (apart : ∀ file ∈ sys.engine.handles.filesOf master, file ∉ sys.engine.handles.filesOf table)
    (created : s < sys.engine.handles.fresh)
    (intact : sys.abstract.Always (Intact sys.engine.handles table master secondary))
    (named : index.db = some i) (masterNamed : foreign.db = some m)
    (ok : (Index.addForeign fault index foreign mode sys).1 = .ok ())
    (rewrites : mode.Rewrites secondary) {sys' : System Store}
    (run : Relation.ReflTransGen (ForeignStep s m) (Index.addForeign fault index foreign mode sys).2
      sys') :
    Enforced s m i mode table { master with foreign := [(i, mode)] }
      { secondary with master := some m } sys' :=
  ((ForeignSession.addForeign inv found layout member indexFound primary masterFound noForeign
    alone compare opened own apart created intact named masterNamed ok).run
      (by cases mode <;> exact rewrites) run).enforced

end Bdb
