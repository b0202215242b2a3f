import Bdblib.Indexing

/-!
# Foreign keys

`index::add_foreign` makes the master table `m` check the keys of an index `i` of a table `s`:
`DB->put` on `s` refuses a record whose projection is no key of `m`, and `DB->del` on `m` first
aborts, deletes the referencing records of `s` (cascade) or rewrites them (nullify). With that
foreign key the only one of the session, the index mirroring `s`, and the comparators of the index
and of the master the same, every key of the index stays a key of the master along every run of
calls on the two tables that return.
-/

namespace Bdb

/-! ## What the engine's writes leave alone -/

/-- The files of a table and of its secondaries. -/
def Handles.filesOf (handles : Handles) (table : DbHandle) : List (Option String) :=
  table.file :: table.secondaries.map handles.fileOf

namespace Access

variable {handles : Handles} {db : Nat} {table : DbHandle} {other : DbHandle}

theorem apart_table (apart : other.file ∉ table.file :: table.secondaries.map handles.fileOf) :
    table.file ≠ other.file :=
  fun same => apart (same ▸ List.mem_cons_self _ _)

theorem apart_secondaries
    (apart : other.file ∉ table.file :: table.secondaries.map handles.fileOf) :
    ∀ secondary ∈ table.secondaries, handles.fileOf secondary ≠ other.file :=
  fun _ member same => apart (List.mem_cons_of_mem _ (same ▸ List.mem_map_of_mem _ member))

variable (found : handles.dbHandle db = some table)
include found

/-- A `DB->put` writes only the files of the primary and of its secondaries. -/
theorem put_records_of_not_mem
    (apart : other.file ∉ table.file :: table.secondaries.map handles.fileOf)
    (key data : Bytes) (noOverwrite : Bool) (store : Store) :
    (put handles db key data noOverwrite store).2.records other = store.records other := by
  have secondaries := apart_secondaries apart
  have inserted := @insertSecondaries_records_of_not_mem handles key data other _ secondaries
  simp only [put, found]
  split_ifs
  · rfl
  · split
    · next stored inserts => rw [← inserted store, inserts]
    · next stored inserts =>
      dsimp only
      rw [Store.records_setRecords_of_ne _ (apart_table apart)]
      split
      · rw [foldl_records_of_not_mem handles (fun _ _ different =>
          eraseStale_records_of_ne handles different _ _) secondaries, ← inserted store, inserts]
      · rw [← inserted store, inserts]

/-- A `DB->del` on a primary no foreign key references writes only its file and its secondaries'. -/
theorem del_records_of_not_mem (noForeign : table.foreign = [])
    (apart : other.file ∉ table.file :: table.secondaries.map handles.fileOf)
    (fuel : Nat) (key : Bytes) (store : Store) :
    (del handles fuel db key store).2.records other = store.records other := by
  cases fuel with
  | zero => rfl
  | succ fuel =>
    simp only [del, found, noForeign, applyForeign]
    split
    · rfl
    · dsimp only
      rw [Store.records_setRecords_of_ne _ (apart_table apart), foldl_records_of_not_mem handles
        (fun _ _ different => eraseEntry_records_of_ne handles different _) (apart_secondaries apart)]

variable {file : String} (opened : table.file = some file)
  (own : ∀ secondary ∈ table.secondaries, handles.fileOf secondary ≠ table.file)
include opened own

theorem put_records_own {key data : Bytes} {noOverwrite : Bool} {store : Store}
    (ok : (put handles db key data noOverwrite store).1 = none) :
    (put handles db key data noOverwrite store).2.records table =
      Records.put table.keyOrder key data (store.records table) := by
  have inserted := @insertSecondaries_records_of_not_mem handles key data table _ own
  simp only [put, found] at ok ⊢
  split_ifs at ok ⊢
  cases inserts : insertSecondaries handles key data table.secondaries store with
  | mk code stored =>
    cases code with
    | some code => simp [inserts] at ok
    | none =>
      dsimp only
      rw [Store.records_setRecords _ opened]
      congr 1
      split
      · rw [foldl_records_of_not_mem handles (fun _ _ different =>
          eraseStale_records_of_ne handles different _ _) own, ← inserted store, inserts]
      · rw [← inserted store, inserts]

/-- A successful `DB->del` on a primary no foreign key references erases the key from its file. -/
theorem del_records_own (noForeign : table.foreign = []) {fuel : Nat} {key : Bytes}
    {store : Store} (ok : (del handles fuel db key store).1 = none) :
    (del handles fuel db key store).2.records table =
      Records.erase table.keyOrder key (store.records table) := by
  cases fuel with
  | zero => cases ok
  | succ fuel =>
    simp only [del, found, noForeign, applyForeign] at ok ⊢
    split at ok
    · cases ok
    · dsimp only
      rw [Store.records_setRecords _ opened, foldl_records_of_not_mem handles
        (fun _ _ different => eraseEntry_records_of_ne handles different _) own]

end Access

/-! ## The entries a write leaves in a secondary with a master -/

theorem DbHandle.Added.mem {index : DbHandle} {key : Bytes} {projection : Option Bytes}
    {entries entries' : Records} (added : index.Added key projection entries entries')
    {entry : Bytes × Bytes} (member : entry ∈ entries') :
    entry ∈ entries ∨ ∃ indexKey, projection = some indexKey ∧ entry = (indexKey, key) := by
  cases projection with
  | none => exact .inl ((added : entries' = entries) ▸ member)
  | some indexKey =>
    rcases added with ⟨-, rfl⟩ | ⟨-, -, perm⟩
    · exact .inl member
    · rcases List.mem_cons.mp (perm.subset member) with rfl | before
      · exact .inr ⟨indexKey, rfl, rfl⟩
      · exact .inl before

namespace Access

variable {handles : Handles} {i m : Nat} {index master : DbHandle}
  (indexed : handles.dbHandle i = some index) (references : index.master = some m)
  (masterFound : handles.dbHandle m = some master)
include indexed references masterFound

theorem insertSecondary_referenced {key data indexKey : Bytes}
    (projected : index.secondaryKey key data = some indexKey) {store : Store}
    (ok : (insertSecondary handles key data i store).1 = none) :
    (Records.find master.keyOrder indexKey (store.records master)).isSome := by
  by_contra absent
  simp [insertSecondary, indexed, projected, references, masterFound, absent] at ok

theorem insertSecondaries_referenced {key data indexKey : Bytes}
    (projected : index.secondaryKey key data = some indexKey) :
    ∀ {secondaries : List Nat}, (∀ secondary ∈ secondaries, handles.fileOf secondary ≠ master.file) →
      i ∈ secondaries → ∀ {store : Store},
      (insertSecondaries handles key data secondaries store).1 = none →
      (Records.find master.keyOrder indexKey (store.records master)).isSome
  | first :: rest, apart, member, store, ok => by
    rcases insertSecondaries_cons handles key data first rest store with
      ⟨code, failed, looped⟩ | ⟨inserted, looped⟩
    · rw [looped, failed] at ok; cases ok
    rw [looped] at ok
    by_cases here : first = i
    · subst here
      exact insertSecondary_referenced indexed references masterFound projected inserted
    · have held := insertSecondaries_referenced projected
        (fun other later => apart other (List.mem_cons_of_mem _ later))
        (List.mem_of_ne_of_mem (Ne.symm here) member) ok
      rwa [insertSecondary_records_of_ne handles (apart first (List.mem_cons_self _ _)) store] at held

end Access

section Referencing

variable {handles : Handles} {s : Nat} {table : DbHandle} (found : handles.dbHandle s = some table)
  (layout : Layout handles table) {i : Nat} {index : DbHandle} (member : i ∈ table.secondaries)
  (indexed : handles.dbHandle i = some index)
include found layout member indexed

/-- After a successful `DB->put`, each entry of an index with a master was there or is its key. -/
theorem Access.put_referenced {m : Nat} {master : DbHandle} (references : index.master = some m)
    (masterFound : handles.dbHandle m = some master)
    (masterApart : ∀ secondary ∈ table.secondaries, handles.fileOf secondary ≠ master.file)
    {key data : Bytes} {noOverwrite : Bool} {store : Store}
    (ok : (Access.put handles s key data noOverwrite store).1 = none) :
    ∀ entry ∈ (Access.put handles s key data noOverwrite store).2.records index,
      entry ∈ store.records index ∨
        (Records.find master.keyOrder entry.1 (store.records master)).isSome := by
  obtain ⟨_, same, opened, dupSeparates⟩ := layout.secondary i member
  rw [indexed, Option.some_inj] at same
  subst same
  obtain ⟨file, opened⟩ := Option.isSome_iff_exists.mp opened
  intro entry entered
  simp only [Access.put, found] at ok entered
  split_ifs at ok entered
  cases inserted : Access.insertSecondaries handles key data table.secondaries store with
  | mk code stored =>
    cases code with
    | some code => simp [inserted] at ok
    | none =>
      have insertedOk : (Access.insertSecondaries handles key data table.secondaries store).1 =
          none := by rw [inserted]
      have added := Access.insertSecondaries_added indexed opened dupSeparates
        layout.secondariesDistinct member insertedOk
      rw [inserted] at added
      simp only [inserted] at entered
      rw [Store.records_setRecords_of_ne _ (layout.index_apart member indexed)] at entered
      have swept : entry ∈ stored.records index := by
        split at entered
        · next oldData _ =>
          rw [Access.foldl_records_own handles (fun _ _ _ different =>
            Access.eraseStale_records_of_ne handles different oldData _) indexed
            (Access.eraseStale_records indexed opened oldData) layout.secondariesDistinct member
            stored] at entered
          exact (DbHandle.unstale_sublist _ _ _ _).subset entered
        · exact entered
      rcases added.mem swept with before | ⟨indexKey, projected, rfl⟩
      · exact .inl before
      · exact .inr (Access.insertSecondaries_referenced indexed references masterFound projected
          masterApart member insertedOk)

theorem Access.del_records_sublist (fuel : Nat) (key : Bytes) (store : Store) :
    ((Access.del handles fuel s key store).2.records index).Sublist (store.records index) := by
  obtain ⟨_, same, opened, -⟩ := layout.secondary i member
  rw [indexed, Option.some_inj] at same
  subst same
  obtain ⟨file, opened⟩ := Option.isSome_iff_exists.mp opened
  cases fuel with
  | zero => exact .refl _
  | succ fuel =>
    simp only [Access.del, found, layout.noForeign, Access.applyForeign]
    split
    · exact .refl _
    · next storedKey data _ =>
      dsimp only
      rw [Store.records_setRecords_of_ne _ (layout.index_apart member indexed),
        Access.foldl_records_own handles (fun _ _ _ different =>
          Access.eraseEntry_records_of_ne handles different _) indexed
          (Access.eraseEntry_records indexed opened) layout.secondariesDistinct member store]
      exact DbHandle.unstale_sublist _ _ _ _

end Referencing

/-! ## Referential integrity -/

/-- Every key of `index` is a key of `master`: what `DB->put` checks of a foreign key. -/
def Referenced (master index : DbHandle) (store : Store) : Prop :=
  ∀ entry ∈ store.records index,
    (Records.find master.keyOrder entry.1 (store.records master)).isSome

/-- No record of `table` outside `rest` projects under `index` to `foreignKey`: what a cascade or
nullify has done so far. -/
def Cleared (table index : DbHandle) (foreignKey : Bytes) (rest : List Bytes) (store : Store) :
    Prop :=
  ∀ key data, key ∉ rest → Records.lookup table.keyOrder key (store.records table) = some data →
    ∀ indexKey ∈ index.secondaryKey key data, index.keyOrder indexKey foreignKey ≠ .eq

namespace Records

variable {order : Bytes → Bytes → Ordering} [Batteries.TransCmp order]

theorem find_put_isSome {key' : Bytes} {records : Records}
    (present : (find order key' records).isSome) (key data : Bytes) :
    (find order key' (put order key data records)).isSome := by
  rw [find_isSome_eq_lookup, lookup_put] at *
  split <;> simp_all

theorem find_erase_isSome {key' : Bytes} {records : Records}
    (present : (find order key' records).isSome) {key : Bytes} (different : order key key' ≠ .eq) :
    (find order key' (erase order key records)).isSome := by
  rw [find_isSome_eq_lookup, lookup_erase, if_neg (ne_eq_symm different)]
  rwa [← find_isSome_eq_lookup]

end Records

section Cascade

variable {handles : Handles} {s : Nat} {table : DbHandle} (found : handles.dbHandle s = some table)
  (layout : Layout handles table) {foreignKey : Bytes} {index : DbHandle} {file : String}
  (opened : table.file = some file)
include found layout opened

theorem Cleared.del {key : Bytes} {rest : List Bytes} {store : Store}
    (cleared : Cleared table index foreignKey (key :: rest) store) {fuel : Nat}
    (ok : (Access.del handles fuel s key store).1 = none) :
    Cleared table index foreignKey rest (Access.del handles fuel s key store).2 := by
  intro key' data outside looked
  rw [Access.del_records_own found opened layout.apart layout.noForeign ok, Records.lookup_erase]
    at looked
  split_ifs at looked with equal
  refine cleared key' data (fun member => ?_) looked
  rcases List.mem_cons.mp member with rfl | later
  · exact equal Batteries.OrientedCmp.cmp_refl
  · exact outside later

theorem Cleared.put {key data : Bytes} {rest : List Bytes} {store : Store}
    (cleared : Cleared table index foreignKey (key :: rest) store)
    (clears : ∀ indexKey ∈ index.secondaryKey key data, index.keyOrder indexKey foreignKey ≠ .eq)
    {noOverwrite : Bool} (ok : (Access.put handles s key data noOverwrite store).1 = none) :
    Cleared table index foreignKey rest (Access.put handles s key data noOverwrite store).2 := by
  intro key' data' outside looked
  rw [Access.put_records_own found opened layout.apart ok, Records.lookup_put] at looked
  split_ifs at looked with equal
  · obtain rfl := layout.separates _ _ equal
    obtain rfl := Option.some_inj.mp looked
    exact clears
  · refine cleared key' data' (fun member => ?_) looked
    rcases List.mem_cons.mp member with rfl | later
    · exact equal Batteries.OrientedCmp.cmp_refl
    · exact outside later

end Cascade

section Mirror

variable {table index : DbHandle} {store : Store} {foreignKey : Bytes}
  (mirrors : Mirrors table index (store.records table) (store.records index))
include mirrors

theorem Mirrors.entry_of_projects {key data indexKey : Bytes}
    (looked : Records.lookup table.keyOrder key (store.records table) = some data)
    (projected : indexKey ∈ index.secondaryKey key data) :
    ∃ entryKey, (entryKey, key) ∈ store.records index ∧ index.keyOrder indexKey entryKey = .eq := by
  have holds := mirrors.holds key
  rw [looked, Option.some_bind, Option.mem_def.mp projected] at holds
  obtain ⟨entryKey, held, entryEqual⟩ := holds
  refine ⟨entryKey, List.mem_of_mem_filter (show (entryKey, key) ∈ Records.holding key
    (store.records index) by rw [held]; exact List.mem_singleton_self _), entryEqual⟩

theorem Mirrors.projects_of_entry {entryKey key : Bytes}
    (entered : (entryKey, key) ∈ store.records index) :
    ∃ data, Records.lookup table.keyOrder key (store.records table) = some data ∧
      ∃ indexKey ∈ index.secondaryKey key data, index.keyOrder indexKey entryKey = .eq := by
  have held : (entryKey, key) ∈ Records.holding key (store.records index) := by
    simp [Records.holding, entered]
  have holds := mirrors.holds key
  cases projected : (Records.lookup table.keyOrder key (store.records table)).bind
      (index.secondaryKey key) with
  | none =>
    rw [projected] at holds
    rw [(holds : Records.holding _ _ = [])] at held
    cases held
  | some indexKey =>
    rw [projected] at holds
    obtain ⟨heldKey, single, heldEqual⟩ := holds
    obtain ⟨data, looked, projects⟩ := Option.bind_eq_some.mp projected
    rw [single, List.mem_singleton, Prod.mk.injEq] at held
    exact ⟨data, looked, indexKey, projects, held.1 ▸ heldEqual⟩

theorem Mirrors.cleared_referencing :
    Cleared table index foreignKey
      ((Records.dups index.keyOrder foreignKey (store.records index)).map Prod.snd) store := by
  intro key data outside looked indexKey projected equal
  obtain ⟨entryKey, stored, entryEqual⟩ := mirrors.entry_of_projects looked projected
  refine outside (List.mem_map.mpr ⟨(entryKey, key), ?_, rfl⟩)
  simp only [Records.dups, List.mem_filter, stored, true_and, decide_eq_true_eq]
  exact (Batteries.TransCmp.cmp_congr_left (Batteries.OrientedCmp.cmp_eq_eq_symm.mp equal)).trans
    entryEqual

theorem Mirrors.no_entry (cleared : Cleared table index foreignKey [] store) :
    ∀ entry ∈ store.records index, index.keyOrder foreignKey entry.1 ≠ .eq := by
  rintro ⟨entryKey, key⟩ entered equal
  obtain ⟨data, looked, indexKey, projects, indexEqual⟩ := mirrors.projects_of_entry entered
  exact cleared key data (List.not_mem_nil _) looked indexKey projects
    ((Batteries.TransCmp.cmp_congr_left indexEqual).trans
      (Batteries.OrientedCmp.cmp_eq_eq_symm.mp equal))

end Mirror

/-- A nullify callback that rewrites each record it is given off the deleted key. -/
def Rewrites (index : DbHandle) (callback : NullifyCallback) : Prop :=
  ∀ key data foreignKey newData changed,
    callback key data foreignKey = .ok (newData, changed) →
      changed = true ∧
        ∀ indexKey ∈ index.secondaryKey key newData, index.keyOrder indexKey foreignKey ≠ .eq

/-- The callback of a nullify foreign key rewrites the records it is given. -/
def ForeignMode.Rewrites (index : DbHandle) : ForeignMode → Prop
  | .nullify callback => Bdb.Rewrites index callback
  | _ => True

theorem Indexed.frame {handles : Handles} {table : DbHandle} {store store' : Store}
    (indexed : Indexed handles table store)
    (same : ∀ other : DbHandle, other.file ∈ handles.filesOf table →
      store'.records other = store.records other) :
    Indexed handles table store' := by
  refine ⟨same table (List.mem_cons_self _ _) ▸ indexed.keyed, fun i member index found => ?_⟩
  have kept := same index (List.mem_cons_of_mem _
    (Handles.fileOf_eq found ▸ List.mem_map_of_mem _ member))
  rw [same table (List.mem_cons_self _ _), kept]
  exact indexed.mirrors i member index found

section Integrity

variable {handles : Handles} {s m i : Nat} {table master index : DbHandle} {foreignKey : Bytes}
  (found : handles.dbHandle s = some table) (layout : Layout handles table)
  (member : i ∈ table.secondaries) (indexFound : handles.dbHandle i = some index)
  (references : index.master = some m) (masterFound : handles.dbHandle m = some master)
  (masterApart : master.file ∉ handles.filesOf table)
include found layout member indexFound masterApart

theorem Referenced.del {store : Store} (referenced : Referenced master index store) (fuel : Nat)
    (key : Bytes) : Referenced master index (Access.del handles fuel s key store).2 := by
  intro entry entered
  rw [Access.del_records_of_not_mem found layout.noForeign masterApart]
  exact referenced entry ((Access.del_records_sublist found layout member indexFound fuel key
    store).subset entered)

include references masterFound in
theorem Referenced.put {store : Store} (referenced : Referenced master index store)
    {key data : Bytes} {noOverwrite : Bool}
    (ok : (Access.put handles s key data noOverwrite store).1 = none) :
    Referenced master index (Access.put handles s key data noOverwrite store).2 := by
  intro entry entered
  rw [Access.put_records_of_not_mem found masterApart]
  rcases Access.put_referenced found layout member indexFound references masterFound
    (Access.apart_secondaries masterApart) ok entry entered with before | checked
  · exact referenced entry before
  · exact checked

/-- A cascade that returns keeps the table indexed and clears every key. -/
theorem cascadeAll_cleared {fuel : Nat} :
    ∀ {rest : List Bytes} {store : Store}, Indexed handles table store →
      Referenced master index store → Cleared table index foreignKey rest store →
      (Access.cascadeAll (Access.del handles fuel) s rest store).1 = none →
      let after := (Access.cascadeAll (Access.del handles fuel) s rest store).2
      Indexed handles table after ∧ Referenced master index after ∧
        Cleared table index foreignKey [] after ∧ after.records master = store.records master
  | [], _, indexed, referenced, cleared, _ => ⟨indexed, referenced, cleared, rfl⟩
  | key :: rest, store, indexed, referenced, cleared, ok => by
    obtain ⟨file, opened⟩ := Option.isSome_iff_exists.mp layout.opened
    rcases Access.cascadeAll_cons (Access.del handles fuel) s key rest store with
      ⟨code, failed, looped⟩ | ⟨deleted, looped⟩
    · rw [looped, failed] at ok; cases ok
    simp only [looped] at ok ⊢
    obtain ⟨indexedEnd, referencedEnd, clearedEnd, masterEnd⟩ :=
      cascadeAll_cleared (indexed.del found layout deleted)
        (referenced.del found layout member indexFound masterApart fuel key)
        (cleared.del found layout opened deleted) ok
    exact ⟨indexedEnd, referencedEnd, clearedEnd, masterEnd.trans
      (Access.del_records_of_not_mem found layout.noForeign masterApart fuel key store)⟩

include references masterFound in
/-- A nullify that returns keeps the table indexed and clears every key. -/
theorem nullifyAll_cleared {callback : NullifyCallback} (rewrites : Rewrites index callback) :
    ∀ {rest : List Bytes} {store : Store}, Indexed handles table store →
      Referenced master index store → Cleared table index foreignKey rest store →
      (Access.nullifyAll handles callback s foreignKey rest store).1 = none →
      let after := (Access.nullifyAll handles callback s foreignKey rest store).2
      Indexed handles table after ∧ Referenced master index after ∧
        Cleared table index foreignKey [] after ∧ after.records master = store.records master
  | [], _, indexed, referenced, cleared, _ => ⟨indexed, referenced, cleared, rfl⟩
  | key :: rest, store, indexed, referenced, cleared, ok => by
    obtain ⟨file, opened⟩ := Option.isSome_iff_exists.mp layout.opened
    simp only [Access.nullifyAll] at ok ⊢
    cases got : Access.get handles s key store with
    | error code => simp [got] at ok
    | ok data =>
      simp only [got] at ok ⊢
      cases called : callback key data foreignKey with
      | error code => simp [called] at ok
      | ok result =>
        obtain ⟨newData, changed⟩ := result
        obtain ⟨rfl, clears⟩ := rewrites key data foreignKey newData changed called
        simp only [called] at ok ⊢
        cases rewritten : Access.put handles s key newData false store with
        | mk code stored =>
          cases code with
          | some code => simp [rewritten] at ok
          | none =>
            simp only [rewritten] at ok ⊢
            have putOk : (Access.put handles s key newData false store).1 = none := by
              rw [rewritten]
            have indexedAfter := indexed.put found layout putOk
            have referencedAfter := referenced.put found layout member indexFound references
              masterFound masterApart putOk
            have clearedAfter := cleared.put found layout opened clears putOk
            have masterKept := Access.put_records_of_not_mem found masterApart key newData false
              store
            rw [rewritten] at indexedAfter referencedAfter clearedAfter masterKept
            obtain ⟨indexedEnd, referencedEnd, clearedEnd, masterEnd⟩ :=
              nullifyAll_cleared rewrites indexedAfter referencedAfter clearedAfter ok
            exact ⟨indexedEnd, referencedEnd, clearedEnd, masterEnd.trans masterKept⟩

include references masterFound in
/-- The master's only foreign key, when it returns, has cleared the deleted key from the index. -/
theorem applyForeign_cleared {mode : ForeignMode} (primary : index.primary.map Prod.fst = some s)
    (rewrites : mode.Rewrites index) {fuel : Nat} {storedKey : Bytes} {store : Store}
    (indexed : Indexed handles table store) (referenced : Referenced master index store)
    (ok : (Access.applyForeign handles (Access.del handles fuel) storedKey [(i, mode)]
      store).1 = none) :
    let after := (Access.applyForeign handles (Access.del handles fuel) storedKey [(i, mode)]
      store).2
    Indexed handles table after ∧ Referenced master index after ∧
      (∀ entry ∈ after.records index, index.keyOrder storedKey entry.1 ≠ .eq) ∧
      after.records master = store.records master := by
  have mirrors := indexed.mirrors i member index indexFound
  have db : (index.primary.map Prod.fst).getD i = s := by rw [primary]; rfl
  simp only [Access.applyForeign, indexFound, db] at ok ⊢
  split_ifs at ok ⊢ with unreferenced
  · refine ⟨indexed, referenced, fun entry entered equal => ?_, rfl⟩
    rw [List.map_eq_nil_iff, Records.dups, List.filter_eq_nil_iff] at unreferenced
    exact unreferenced entry entered (by simpa using equal)
  · cases mode with
    | abort => cases ok
    | cascade =>
      cases applied : Access.cascadeAll (Access.del handles fuel) s
          ((Records.dups index.keyOrder storedKey (store.records index)).map Prod.snd) store with
      | mk code stored =>
        cases code with
        | some code => simp [applied] at ok
        | none =>
          have cleared := cascadeAll_cleared found layout member indexFound masterApart indexed
            referenced mirrors.cleared_referencing (by rw [applied])
          simp only [applied] at cleared ⊢
          obtain ⟨indexedEnd, referencedEnd, clearedEnd, masterEnd⟩ := cleared
          exact ⟨indexedEnd, referencedEnd,
            (indexedEnd.mirrors i member index indexFound).no_entry clearedEnd, masterEnd⟩
    | nullify callback =>
      cases applied : Access.nullifyAll handles callback s storedKey
          ((Records.dups index.keyOrder storedKey (store.records index)).map Prod.snd) store with
      | mk code stored =>
        cases code with
        | some code => simp [applied] at ok
        | none =>
          have cleared := nullifyAll_cleared found layout member indexFound references masterFound
            masterApart rewrites indexed referenced mirrors.cleared_referencing (by rw [applied])
          simp only [applied] at cleared ⊢
          obtain ⟨indexedEnd, referencedEnd, clearedEnd, masterEnd⟩ := cleared
          exact ⟨indexedEnd, referencedEnd,
            (indexedEnd.mirrors i member index indexFound).no_entry clearedEnd, masterEnd⟩

end Integrity

/-- `DB->del` on a master with the one foreign key `i`: `DB_NOTFOUND`, or the key's answer. -/
theorem Access.del_master_fst {handles : Handles} {m i : Nat} {master : DbHandle}
    {mode : ForeignMode} (masterFound : handles.dbHandle m = some master)
    (foreign : master.foreign = [(i, mode)]) (fuel : Nat) (key : Bytes) (store : Store) :
    (Access.del handles (fuel + 1) m key store).1 =
      match Records.find master.keyOrder key (store.records master) with
      | none => some .notFound
      | some (storedKey, _) =>
        (Access.applyForeign handles (Access.del handles fuel) storedKey [(i, mode)] store).1 := by
  simp only [Access.del, masterFound, foreign]
  cases Records.find master.keyOrder key (store.records master) with
  | none => rfl
  | some record =>
    simp only
    split <;> (rename_i applied; rw [applied])

/-! ## Calls on the two tables -/

/-- How `add_foreign` lays out the only foreign key of a session, of the index `i` of `s` on the
master `m`: the table as `add_index` left it, the index comparing keys as the master does, the files
apart. -/
structure ForeignLayout (handles : Handles) (s m i : Nat) (mode : ForeignMode)
    (table master index : DbHandle) : Prop where
  found : handles.dbHandle s = some table
  masterFound : handles.dbHandle m = some master
  indexFound : handles.dbHandle i = some index
  layout : Layout handles table
  member : i ∈ table.secondaries
  primary : index.primary.map Prod.fst = some s
  references : index.master = some m
  foreign : master.foreign = [(i, mode)]
  alone : ∀ j ∈ table.secondaries, j ≠ i → (handles.dbHandle j).bind DbHandle.master = none
  compare : index.keyOrder = master.keyOrder
  opened : master.file.isSome
  own : ∀ j ∈ master.secondaries, handles.fileOf j ≠ master.file
  apart : ∀ file ∈ handles.filesOf master, file ∉ handles.filesOf table
  created : s < handles.fresh

namespace ForeignLayout

variable {handles : Handles} {s m i : Nat} {mode : ForeignMode} {table master index : DbHandle}
  (foreign : ForeignLayout handles s m i mode table master index)
include foreign

theorem masterApart : master.file ∉ handles.filesOf table :=
  foreign.apart _ (List.mem_cons_self _ _)

theorem index_mem : index.file ∈ handles.filesOf table :=
  List.mem_cons_of_mem _ (Handles.fileOf_eq foreign.indexFound ▸
    List.mem_map_of_mem _ foreign.member)

theorem put_master {store : Store} (indexed : Indexed handles table store)
    (referenced : Referenced master index store) {key data : Bytes} {noOverwrite : Bool}
    (ok : (Access.put handles m key data noOverwrite store).1 = none) :
    Indexed handles table (Access.put handles m key data noOverwrite store).2 ∧
      Referenced master index (Access.put handles m key data noOverwrite store).2 := by
  obtain ⟨file, opened⟩ := Option.isSome_iff_exists.mp foreign.opened
  have same : ∀ other : DbHandle, other.file ∈ handles.filesOf table →
      (Access.put handles m key data noOverwrite store).2.records other = store.records other :=
    fun other mem => Access.put_records_of_not_mem foreign.masterFound
      (fun inMaster => foreign.apart _ inMaster mem) key data noOverwrite store
  refine ⟨indexed.frame same, fun entry entered => ?_⟩
  rw [same index foreign.index_mem] at entered
  rw [Access.put_records_own foreign.masterFound opened foreign.own ok]
  exact Records.find_put_isSome (referenced entry entered) key data

theorem del_master_records {fuel : Nat} {key storedKey data : Bytes} {store : Store}
    (present : Records.find master.keyOrder key (store.records master) = some (storedKey, data))
    (applied : (Access.applyForeign handles (Access.del handles fuel) storedKey [(i, mode)]
      store).1 = none) {other : DbHandle} (mem : other.file ∈ handles.filesOf table) :
    (Access.del handles (fuel + 1) m key store).2.records other =
      (Access.applyForeign handles (Access.del handles fuel) storedKey [(i, mode)]
        store).2.records other := by
  simp only [Access.del, foreign.masterFound, foreign.foreign, present]
  rcases result : Access.applyForeign handles (Access.del handles fuel) storedKey [(i, mode)]
    store with ⟨code, stored⟩
  obtain rfl : code = none := by rw [result] at applied; exact applied
  rw [Store.records_setRecords_of_ne _
      (show master.file ≠ other.file from fun same => foreign.masterApart (same ▸ mem)),
    Access.foldl_records_of_not_mem handles (fun _ _ different =>
      Access.eraseEntry_records_of_ne handles different _) (fun j secondary same =>
        foreign.apart _ (List.mem_cons_of_mem _ (same ▸ List.mem_map_of_mem _ secondary)) mem)]

theorem del_master_own {fuel : Nat} {key storedKey data : Bytes} {store : Store}
    (present : Records.find master.keyOrder key (store.records master) = some (storedKey, data))
    (applied : (Access.applyForeign handles (Access.del handles fuel) storedKey [(i, mode)]
      store).1 = none) :
    (Access.del handles (fuel + 1) m key store).2.records master =
      Records.erase master.keyOrder key ((Access.applyForeign handles (Access.del handles fuel)
        storedKey [(i, mode)] store).2.records master) := by
  obtain ⟨file, opened⟩ := Option.isSome_iff_exists.mp foreign.opened
  simp only [Access.del, foreign.masterFound, foreign.foreign, present]
  rcases result : Access.applyForeign handles (Access.del handles fuel) storedKey [(i, mode)]
    store with ⟨code, stored⟩
  obtain rfl : code = none := by rw [result] at applied; exact applied
  rw [Store.records_setRecords _ opened, Access.foldl_records_of_not_mem handles
    (fun _ _ different => Access.eraseEntry_records_of_ne handles different _) foreign.own]

/-- A successful `DB->del` on the master keeps the foreign key intact and clears the deleted key. -/
theorem del_master (rewrites : mode.Rewrites index) {store : Store}
    (indexed : Indexed handles table store) (referenced : Referenced master index store)
    {fuel : Nat} {key : Bytes} (ok : (Access.del handles fuel m key store).1 = none) :
    Indexed handles table (Access.del handles fuel m key store).2 ∧
      Referenced master index (Access.del handles fuel m key store).2 ∧
      ∀ entry ∈ (Access.del handles fuel m key store).2.records index,
        index.keyOrder key entry.1 ≠ .eq := by
  cases fuel with
  | zero => cases ok
  | succ fuel =>
    rw [Access.del_master_fst foreign.masterFound foreign.foreign] at ok
    cases present : Records.find master.keyOrder key (store.records master) with
    | none => simp [present] at ok
    | some record =>
      obtain ⟨storedKey, data⟩ := record
      simp only [present] at ok
      obtain ⟨indexedAfter, referencedAfter, clearedAfter, -⟩ := applyForeign_cleared foreign.found
        foreign.layout foreign.member foreign.indexFound foreign.references foreign.masterFound
        foreign.masterApart foreign.primary rewrites indexed referenced ok
      have same : ∀ other : DbHandle, other.file ∈ handles.filesOf table →
          (Access.del handles (fuel + 1) m key store).2.records other =
            (Access.applyForeign handles (Access.del handles fuel) storedKey [(i, mode)]
              store).2.records other := fun other mem => foreign.del_master_records present ok mem
      have stored : index.keyOrder storedKey key = .eq := by
        rw [foreign.compare]
        exact Batteries.OrientedCmp.cmp_eq_eq_symm.mp (Records.find_eq_some _ present)
      refine ⟨indexedAfter.frame same, fun entry entered => ?_, fun entry entered equal => ?_⟩
      · rw [same index foreign.index_mem] at entered
        rw [foreign.del_master_own present ok]
        refine Records.find_erase_isSome (referencedAfter entry entered) fun equal => ?_
        rw [← foreign.compare, ← Batteries.TransCmp.cmp_congr_left stored] at equal
        exact clearedAfter entry entered equal
      · rw [same index foreign.index_mem] at entered
        rw [← Batteries.TransCmp.cmp_congr_left stored] at equal
        exact clearedAfter entry entered equal

/-- A call on the table or its master that returns keeps the foreign key intact. -/
theorem perform (rewrites : mode.Rewrites index) {store : Store}
    (indexed : Indexed handles table store) (referenced : Referenced master index store)
    {Key Data : Type} (keys : Codec Key) (values : Codec Data) (faults : Faults) {db : Nat}
    (target : db = s ∨ db = m) {call : TableCall Key Data} {reply : Reply Data}
    (ok : (call.perform keys values faults handles db store).1 = .ok reply) :
    Indexed handles table (call.perform keys values faults handles db store).2 ∧
      Referenced master index (call.perform keys values faults handles db store).2 := by
  rcases TableCall.perform_cases keys values faults handles db ok with
    same | ⟨key, data, noOverwrite, put⟩ | ⟨fuel, key, deleted⟩
  · rw [same]
    exact ⟨indexed, referenced⟩
  · have after : (call.perform keys values faults handles db store).2 =
        (Access.put handles db key data noOverwrite store).2 := by rw [put]
    have putOk : (Access.put handles db key data noOverwrite store).1 = none := by rw [put]
    rw [after]
    rcases target with rfl | rfl
    · exact ⟨indexed.put foreign.found foreign.layout putOk, referenced.put foreign.found
        foreign.layout foreign.member foreign.indexFound foreign.references foreign.masterFound
        foreign.masterApart putOk⟩
    · exact foreign.put_master indexed referenced putOk
  · have after : (call.perform keys values faults handles db store).2 =
        (Access.del handles fuel db key store).2 := by rw [deleted]
    have delOk : (Access.del handles fuel db key store).1 = none := by rw [deleted]
    rw [after]
    rcases target with rfl | rfl
    · exact ⟨indexed.del foreign.found foreign.layout delOk, referenced.del foreign.found
        foreign.layout foreign.member foreign.indexFound foreign.masterApart fuel key⟩
    · exact (foreign.del_master rewrites indexed referenced delOk).imp_right And.left

end ForeignLayout

/-! ## Adding the foreign key -/

section AddForeign

variable {handles : Handles} {m i : Nat} {table master index : DbHandle} {mode : ForeignMode}
  (indexFound : handles.dbHandle i = some index) (masterFound : handles.dbHandle m = some master)

include indexFound masterFound in
theorem associateForeign_eq :
    associateForeign handles m i mode =
      (handles.set m (.db { master with foreign := (i, mode) :: master.foreign })).set i
        (.db { index with master := some m }) := by
  simp [associateForeign, masterFound, indexFound]

variable (apart : ∀ file ∈ handles.filesOf master, file ∉ handles.filesOf table)

include masterFound apart in
theorem master_ne {j : Nat} (mine : handles.fileOf j ∈ handles.filesOf table) : j ≠ m :=
  fun same => apart _ (List.mem_cons_self _ _) (by rwa [same, Handles.fileOf_eq masterFound] at mine)

include indexFound masterFound in
theorem dbHandle_associateForeign {j : Nat} (different : j ≠ m) (other : j ≠ i) :
    (associateForeign handles m i mode).dbHandle j = handles.dbHandle j := by
  rw [associateForeign_eq indexFound masterFound, Handles.dbHandle_set_of_ne _ other,
    Handles.dbHandle_set_of_ne _ different]

include indexFound masterFound in
theorem fileOf_associateForeign {j : Nat} (different : j ≠ m) :
    (associateForeign handles m i mode).fileOf j = handles.fileOf j := by
  by_cases here : j = i
  · subst here
    simp [Handles.fileOf, associateForeign_eq indexFound masterFound, Handles.dbHandle_set_db,
      indexFound]
  · simp only [Handles.fileOf, dbHandle_associateForeign indexFound masterFound different here]

include indexFound masterFound apart

theorem filesOf_associateForeign :
    (associateForeign handles m i mode).filesOf table = handles.filesOf table := by
  refine congrArg (table.file :: ·) (List.map_congr_left fun j secondary => ?_)
  exact fileOf_associateForeign indexFound masterFound (master_ne masterFound apart
    (List.mem_cons_of_mem _ (List.mem_map_of_mem _ secondary)))

theorem Layout.associate (layout : Layout handles table) :
    Layout (associateForeign handles m i mode) table := by
  refine ⟨layout.separates, layout.noForeign, layout.opened, fun j secondary => ?_, ?_⟩
  · have different := master_ne masterFound apart
      (List.mem_cons_of_mem _ (List.mem_map_of_mem _ secondary))
    by_cases here : j = i
    · subst here
      obtain ⟨_, same, opened, dupSeparates⟩ := layout.secondary j secondary
      rw [indexFound, Option.some_inj] at same
      subst same
      refine ⟨{ index with master := some m }, ?_, opened, dupSeparates⟩
      rw [associateForeign_eq indexFound masterFound, Handles.dbHandle_set_db]
    · rw [dbHandle_associateForeign indexFound masterFound different here]
      exact layout.secondary j secondary
  · have files : (associateForeign handles m i mode).filesOf table = handles.filesOf table :=
      filesOf_associateForeign indexFound masterFound apart
    unfold Handles.filesOf at files
    rw [files]
    exact layout.distinct

theorem Indexed.associate {store : Store} (indexed : Indexed handles table store) :
    Indexed (associateForeign handles m i mode) table store := by
  refine ⟨indexed.keyed, fun j secondary other otherFound => ?_⟩
  have different := master_ne masterFound apart
    (List.mem_cons_of_mem _ (List.mem_map_of_mem _ secondary))
  by_cases here : j = i
  · subst here
    rw [associateForeign_eq indexFound masterFound, Handles.dbHandle_set_db, Option.some_inj]
      at otherFound
    subst otherFound
    have mirrors := indexed.mirrors j secondary index indexFound
    exact ⟨mirrors.holds, mirrors.unique⟩
  · rw [dbHandle_associateForeign indexFound masterFound different here] at otherFound
    exact indexed.mirrors j secondary other otherFound

/-- `DB->associate_foreign` on a master comparing as the index does lays the foreign key out. -/
theorem ForeignLayout.associate {s : Nat} (found : handles.dbHandle s = some table)
    (layout : Layout handles table) (member : i ∈ table.secondaries)
    (primary : index.primary.map Prod.fst = some s) (noForeign : master.foreign = [])
    (alone : ∀ j ∈ table.secondaries, j ≠ i → (handles.dbHandle j).bind DbHandle.master = none)
    (compare : index.keyOrder = master.keyOrder) (opened : master.file.isSome)
    (own : ∀ j ∈ master.secondaries, handles.fileOf j ≠ master.file)
    (created : s < handles.fresh) :
    ForeignLayout (associateForeign handles m i mode) s m i mode table
      { master with foreign := [(i, mode)] } { index with master := some m } := by
  have tableFile : handles.fileOf s ∈ handles.filesOf table := by
    rw [Handles.fileOf_eq found]
    exact List.mem_cons_self _ _
  have indexFile : handles.fileOf i ∈ handles.filesOf table :=
    List.mem_cons_of_mem _ (List.mem_map_of_mem _ member)
  have masterIndex := master_ne masterFound apart indexFile
  have masterOwn : ∀ j ∈ master.secondaries, j ≠ m := fun j secondary same =>
    own j secondary (by rw [same, Handles.fileOf_eq masterFound])
  have secondaryFiles : master.secondaries.map (associateForeign handles m i mode).fileOf =
      master.secondaries.map handles.fileOf := List.map_congr_left fun j secondary =>
    fileOf_associateForeign indexFound masterFound (masterOwn j secondary)
  refine ⟨?_, ?_, ?_, Layout.associate indexFound masterFound apart layout, member,
    primary, rfl, rfl, fun j secondary other => ?_, compare, opened, fun j secondary => ?_, ?_,
    by rwa [associateForeign_eq indexFound masterFound]⟩
  · rw [dbHandle_associateForeign indexFound masterFound (master_ne masterFound apart tableFile)
      fun same => layout.apart i member (by rw [← same, Handles.fileOf_eq found])]
    exact found
  · rw [associateForeign_eq indexFound masterFound, Handles.dbHandle_set_of_ne _ masterIndex.symm,
      Handles.dbHandle_set_db, noForeign]
  · rw [associateForeign_eq indexFound masterFound, Handles.dbHandle_set_db]
  · rw [dbHandle_associateForeign indexFound masterFound (master_ne masterFound apart
      (List.mem_cons_of_mem _ (List.mem_map_of_mem _ secondary))) other]
    exact alone j secondary other
  · rw [fileOf_associateForeign indexFound masterFound (masterOwn j secondary)]
    exact own j secondary
  · rw [filesOf_associateForeign indexFound masterFound apart]
    unfold Handles.filesOf
    rw [secondaryFiles]
    exact apart

end AddForeign

/-! ## Sessions -/

/-- What the foreign key keeps of a store: the table is indexed and its index referenced. -/
def Intact (handles : Handles) (table master index : DbHandle) (store : Store) : Prop :=
  Indexed handles table store ∧ Referenced master index store

/-- A session on `s` whose index `i` has its foreign key on `m`, over intact stores. -/
structure ForeignSession (root s m i : Nat) (mode : ForeignMode) (table master index : DbHandle)
    (sys : System Store) : Prop where
  inv : StackInv root sys
  layout : ForeignLayout sys.engine.handles s m i mode table master index
  intact : sys.abstract.Always (Intact sys.engine.handles table master index)

namespace ForeignSession

variable {root s m i : Nat} {mode : ForeignMode} {table master index : DbHandle}
  {sys : System Store} (session : ForeignSession root s m i mode table master index sys)
include session

theorem indexed : Indexed sys.engine.handles table sys.abstract.current := session.intact.1.1

theorem referenced : Referenced master index sys.abstract.current := session.intact.1.2

end ForeignSession

/-- A step on `s` and its master `m`: a call on one of them that returns, or a transaction call. -/
inductive ForeignStep (s m : Nat) : System Store → System Store → Prop
  | call {sys : System Store} {Key Data : Type} (keys : Codec Key) (values : Codec Data)
      (faults : Faults) {db : Nat} (call : TableCall Key Data) {reply : Reply Data}
      (target : db = s ∨ db = m) (ok : (sys.tableCall keys values faults db call).1 = .ok reply) :
      ForeignStep s m sys (sys.tableCall keys values faults db call).2
  /-- `database::begin_transaction`. -/
  | begin {sys : System Store} :
      ForeignStep s m sys (sys.step (.beginTransaction : Step Store Unit)).2
  /-- `database::commit_transaction`. -/
  | commit {sys : System Store} :
      ForeignStep s m sys (sys.step (.commitTransaction : Step Store Unit)).2
  /-- `database::rollback_transaction`. -/
  | rollback {sys : System Store} :
      ForeignStep s m sys (sys.step (.rollbackTransaction : Step Store Unit)).2

/-- An `add_foreign` that returns on an indexed table and a plain master starts a session. -/
theorem ForeignSession.addForeign {root s m i : Nat} {sys : System Store}
    {table master secondary : DbHandle} {fault : Option DbError} {index : Index} {foreign : Table}
    {mode : ForeignMode} (inv : StackInv root sys)
    (found : sys.engine.handles.dbHandle s = some table) (layout : Layout sys.engine.handles table)
    (member : i ∈ table.secondaries) (indexFound : sys.engine.handles.dbHandle i = some secondary)
    (primary : secondary.primary.map Prod.fst = some s)
    (masterFound : sys.engine.handles.dbHandle m = some master) (noForeign : master.foreign = [])
    (alone : ∀ j ∈ table.secondaries, j ≠ i →
      (sys.engine.handles.dbHandle j).bind DbHandle.master = none)
    (compare : secondary.keyOrder = master.keyOrder) (opened : master.file.isSome)
    (own : ∀ j ∈ master.secondaries, sys.engine.handles.fileOf j ≠ master.file)
    (apart : ∀ file ∈ sys.engine.handles.filesOf master, file ∉ sys.engine.handles.filesOf table)
    (created : s < sys.engine.handles.fresh)
    (intact : sys.abstract.Always (Intact sys.engine.handles table master secondary))
    (named : index.db = some i) (masterNamed : foreign.db = some m)
    (ok : (Index.addForeign fault index foreign mode sys).1 = .ok ()) :
    ForeignSession root s m i mode table { master with foreign := [(i, mode)] }
      { secondary with master := some m } (Index.addForeign fault index foreign mode sys).2 := by
  unfold Index.addForeign at ok ⊢
  rw [named, masterNamed] at ok ⊢
  cases fault with
  | some code => cases ok
  | none =>
    exact ⟨inv.withHandles _, ForeignLayout.associate indexFound masterFound apart found layout
      member primary noForeign alone compare opened own created,
      intact.imp fun _ kept => ⟨Indexed.associate indexFound masterFound apart kept.1, kept.2⟩⟩

section Steps

variable {root s m i : Nat} {mode : ForeignMode} {table master index : DbHandle}
  {sys : System Store} (session : ForeignSession root s m i mode table master index sys)
include session

theorem ForeignSession.transaction (call : Step Store Unit)
    (transactional : ∀ operation, call ≠ .operate operation) :
    ForeignSession root s m i mode table master index (sys.step call).2 := by
  have handles := sys.step_handles call
  refine ⟨session.inv.step call, by rw [handles]; exact session.layout, ?_⟩
  rw [(session.inv.step_refines call).2, handles]
  exact session.intact.step sys.abstract_nested call fun operation same =>
    absurd same (transactional operation)

variable (rewrites : mode.Rewrites index)
include rewrites

theorem ForeignSession.step {sys' : System Store} (step : ForeignStep s m sys sys') :
    ForeignSession root s m i mode table master index sys' := by
  cases step with
  | call keys values faults call target ok =>
    have kept := session.layout.perform rewrites session.indexed session.referenced keys values
      faults target (((session.inv.operate_refines _).1).symm.trans ok)
    refine ⟨session.inv.tableCall keys values faults _ call, session.layout, ?_⟩
    rw [System.tableCall, (session.inv.operate_refines _).2]
    exact session.intact.append sys.abstract_nested kept
  | begin => exact session.transaction _ fun _ => nofun
  | commit => exact session.transaction _ fun _ => nofun
  | rollback => exact session.transaction _ fun _ => nofun

theorem ForeignSession.run {sys' : System Store}
    (run : Relation.ReflTransGen (ForeignStep s m) sys sys') :
    ForeignSession root s m i mode table master index sys' := by
  induction run with
  | refl => exact session
  | tail _ step kept => exact kept.step rewrites step

end Steps

end Bdb
