import Mathlib.Data.List.Pairwise
import Bdblib.Table

/-!
# Indexes mirror their tables

A secondary index holds one entry for each record of its primary that its callback indexes: the
projection as key, the primary key as data. A `DB->put` or `DB->del` on the primary that
succeeds keeps it so. `DB->associate` with `DB_CREATE` builds it over an empty index, with
`DB_KEYLAST`. Keys are compared by the comparators, so an entry's key is the projection only up
to the index's comparator, and the primary's comparator must tell different keys apart for the
data of an entry to name its record. An index without duplicates built over records of equal
projections keeps one entry for all of them: it mirrors its table only when the projections
are different.
-/

namespace Bdb

/-- A comparator that holds no two different keys equal. -/
def Separates (order : Bytes → Bytes → Ordering) : Prop :=
  ∀ one other, order one other = .eq → one = other

theorem defaultCompare_separates : Separates defaultCompare := by
  intro one
  induction one with
  | nil => intro other; cases other <;> simp [defaultCompare]
  | cons a rest ih =>
    intro other
    cases other with
    | nil => simp [defaultCompare]
    | cons b rest' =>
      simp only [defaultCompare, compare_then_eq]
      split_ifs with before same
      · simp
      · intro equal
        rw [UInt8.eq_of_val_eq (Fin.eq_of_val_eq same), ih rest' equal]
      · simp

namespace Records

/-- The entries of a secondary that hold the primary key `key`. -/
def holding (key : Bytes) (entries : Records) : Records := entries.filter fun entry => entry.2 = key

/-- The records' keys are pairwise different under `order`, as without duplicates. -/
def Keyed (order : Bytes → Bytes → Ordering) (records : Records) : Prop :=
  records.Pairwise fun one other => order one.1 other.1 ≠ .eq

theorem holding_cons (key : Bytes) (entry : Bytes × Bytes) (entries : Records) :
    holding key (entry :: entries) =
      if entry.2 = key then entry :: holding key entries else holding key entries := by
  by_cases held : entry.2 = key <;> simp [holding, held]

theorem holding_erasePair (order dupOrder : Bytes → Bytes → Ordering) (key indexKey owner : Bytes)
    (entries : Records) :
    holding key (erasePair order dupOrder indexKey owner entries) =
      erasePair order dupOrder indexKey owner (holding key entries) := by
  simp only [holding, erasePair, List.filter_filter, Bool.and_comm]

theorem insertBy_perm (cmp : Bytes × Bytes → Bytes × Bytes → Ordering) (record : Bytes × Bytes)
    (records : Records) : (insertBy cmp record records).Perm (record :: records) := by
  obtain ⟨position, inserted⟩ := insertBy_eq_take_drop cmp record records
  rw [inserted]
  conv_rhs => rw [← List.take_append_drop position records]
  exact List.perm_middle

section Keys

variable {order : Bytes → Bytes → Ordering} [Batteries.TransCmp order]

theorem ne_eq_symm {one other : Bytes} (different : order one other ≠ .eq) :
    order other one ≠ .eq :=
  fun same => different (Batteries.OrientedCmp.cmp_eq_eq_symm.mp same)

theorem Keyed.cons_perm {records extended : Records} (keyed : Keyed order records)
    {record : Bytes × Bytes} (fresh : ∀ other ∈ records, order record.1 other.1 ≠ .eq)
    (perm : extended.Perm (record :: records)) : Keyed order extended :=
  (perm.pairwise_iff fun different => ne_eq_symm different).mpr (List.pairwise_cons.mpr ⟨fresh, keyed⟩)

theorem Keyed.put (key data : Bytes) {records : Records} (keyed : Keyed order records) :
    Keyed order (put order key data records) := by
  unfold Records.put
  split
  · exact List.pairwise_map.mpr (keyed.imp fun {one other} different => by
      split_ifs <;> exact different)
  · next absent =>
    refine keyed.cons_perm (fun other member same => absent ?_) (insertBy_perm _ _ _)
    exact (find_isSome_iff order).mpr ⟨other, member, same⟩

/-- Under a separating comparator, a lookup in keyed records finds the records there. -/
theorem Keyed.lookup_eq_some_iff (separates : Separates order) {records : Records}
    (keyed : Keyed order records) {key data : Bytes} :
    lookup order key records = some data ↔ (key, data) ∈ records := by
  constructor
  · intro looked
    obtain ⟨record, found, rfl⟩ := Option.map_eq_some'.mp looked
    rw [separates _ _ (find_eq_some order found)]
    exact List.mem_of_find?_eq_some found
  · intro member
    obtain ⟨record, found⟩ := Option.isSome_iff_exists.mp
      ((find_isSome_iff order).mpr ⟨_, member, Batteries.OrientedCmp.cmp_refl⟩)
    have stored := separates _ _ (find_eq_some order found)
    by_cases same : record = (key, data)
    · simp [lookup, found, same]
    · have symmetric : Symmetric fun one other : Bytes × Bytes => order one.1 other.1 ≠ .eq :=
        fun _ _ different => ne_eq_symm different
      refine absurd (List.Pairwise.forall symmetric keyed (List.mem_of_find?_eq_some found) member
        same) ?_
      simp [← stored, Batteries.OrientedCmp.cmp_refl]

end Keys

theorem Keyed.erase {order : Bytes → Bytes → Ordering} (key : Bytes) {records : Records}
    (keyed : Keyed order records) : Keyed order (erase order key records) :=
  keyed.sublist (List.filter_sublist _)

end Records

/-- The entries `held` of `key` agree with its record: one entry of its projection, or none. -/
def Holds (order : Bytes → Bytes → Ordering) (key : Bytes) : Option Bytes → Records → Prop
  | some indexKey, held => ∃ entryKey, held = [(entryKey, key)] ∧ order indexKey entryKey = .eq
  | none, held => held = []

theorem Holds.perm {order : Bytes → Bytes → Ordering} {key : Bytes} {projection : Option Bytes}
    {held held' : Records} (holds : Holds order key projection held) (perm : held.Perm held') :
    Holds order key projection held' := by
  cases projection with
  | none => exact List.perm_nil.mp (holds ▸ perm.symm)
  | some indexKey =>
    obtain ⟨entryKey, rfl, equal⟩ := holds
    exact ⟨entryKey, List.perm_singleton.mp perm.symm, equal⟩

/-- The secondary `index` mirrors the records of `table`: each key's entries agree with its record,
and a unique index has no two equal keys. -/
structure Mirrors (table index : DbHandle) (records entries : Records) : Prop where
  holds : ∀ key, Holds index.keyOrder key
    ((Records.lookup table.keyOrder key records).bind (index.secondaryKey key))
    (Records.holding key entries)
  unique : index.dupSort = false →
    entries.Pairwise fun one other => index.keyOrder one.1 other.1 ≠ .eq

namespace DbHandle

variable (index : DbHandle)

/-- A secondary's entries without that of the old projection `old` of `key`, unless `new` is it. -/
def unstale (key : Bytes) (old new : Option Bytes) (entries : Records) : Records :=
  match old with
  | none => entries
  | some oldKey =>
    if new.any fun newKey => index.keyOrder oldKey newKey = .eq then entries
    else Records.erasePair index.keyOrder index.dupOrder oldKey key entries

/-- What a successful insert of the entry of `key` with `projection` does to a secondary. -/
def Added (key : Bytes) : Option Bytes → Records → Records → Prop
  | none, entries, entries' => entries' = entries
  | some indexKey, entries, entries' =>
    (∃ entry ∈ Records.holding key entries, index.keyOrder indexKey entry.1 = .eq) ∧
        entries' = entries ∨
      (∀ entry ∈ Records.holding key entries, index.keyOrder indexKey entry.1 ≠ .eq) ∧
        (index.dupSort = false → ∀ entry ∈ entries, index.keyOrder indexKey entry.1 ≠ .eq) ∧
        entries'.Perm ((indexKey, key) :: entries)

variable {index}

theorem unstale_sublist (key : Bytes) (old new : Option Bytes) (entries : Records) :
    (index.unstale key old new entries).Sublist entries := by
  unfold unstale
  split
  · exact .refl _
  · split
    · exact .refl _
    · exact List.filter_sublist _

theorem holding_unstale_of_ne (dupSeparates : Separates index.dupOrder) {key other : Bytes}
    (different : key ≠ other) (old new : Option Bytes) (entries : Records) :
    Records.holding other (index.unstale key old new entries) = Records.holding other entries := by
  unfold unstale
  split
  · rfl
  · split
    · rfl
    · rw [Records.holding_erasePair]
      refine List.filter_eq_self.mpr fun entry member => ?_
      simp only [Records.holding, List.mem_filter, decide_eq_true_eq] at member
      have apart : index.dupOrder key entry.2 ≠ .eq := fun same =>
        different ((dupSeparates _ _ same).trans member.2)
      simp [apart]

theorem Added.holding_perm_of_ne {key other : Bytes} (different : key ≠ other)
    {projection : Option Bytes} {entries entries' : Records}
    (added : index.Added key projection entries entries') :
    (Records.holding other entries').Perm (Records.holding other entries) := by
  cases projection with
  | none => rw [show entries' = entries from added]
  | some indexKey =>
    rcases added with ⟨-, rfl⟩ | ⟨-, -, perm⟩
    · exact .refl _
    · simpa [Records.holding, different] using perm.filter fun entry => decide (entry.2 = other)

theorem Added.pairwise (unique : index.dupSort = false) {key : Bytes} {projection : Option Bytes}
    {entries entries' : Records}
    (pairwise : entries.Pairwise fun one other => index.keyOrder one.1 other.1 ≠ .eq)
    (added : index.Added key projection entries entries') :
    entries'.Pairwise fun one other => index.keyOrder one.1 other.1 ≠ .eq := by
  cases projection with
  | none => rwa [show entries' = entries from added]
  | some indexKey =>
    rcases added with ⟨-, rfl⟩ | ⟨-, fresh, perm⟩
    · exact pairwise
    · exact Records.Keyed.cons_perm pairwise (fresh unique) perm

end DbHandle

section Mirror

variable {table index : DbHandle} {records entries : Records}

theorem Holds.unstale_none {key : Bytes} {old : Option Bytes}
    (holds : Holds index.keyOrder key old (Records.holding key entries)) :
    Records.holding key (index.unstale key old none entries) = [] := by
  cases old with
  | none => exact holds
  | some oldKey =>
    obtain ⟨entryKey, held, equal⟩ := holds
    simp only [DbHandle.unstale, Option.any_none, Bool.false_eq_true, if_false,
      Records.holding_erasePair, held]
    simp [Records.erasePair, equal, Batteries.OrientedCmp.cmp_refl]

/-- The entries of the key an insert and then `eraseStale` leave agree with its new projection. -/
theorem Holds.update {key : Bytes} {old new : Option Bytes} {entries' : Records}
    (holds : Holds index.keyOrder key old (Records.holding key entries))
    (added : index.Added key new entries entries') :
    Holds index.keyOrder key new (Records.holding key (index.unstale key old new entries')) := by
  cases new with
  | none => rw [show entries' = entries from added]; exact holds.unstale_none
  | some indexKey =>
    rcases added with ⟨⟨entry, member, equal⟩, rfl⟩ | ⟨fresh, -, perm⟩
    · cases old with
      | none => rw [(holds : Records.holding key _ = [])] at member; cases member
      | some oldKey =>
        obtain ⟨entryKey, held, equalOld⟩ := holds
        rw [held, List.mem_singleton] at member
        subst member
        have same : index.keyOrder oldKey indexKey = .eq :=
          (Batteries.TransCmp.cmp_congr_right equal).trans equalOld
        simp only [DbHandle.unstale, Option.any_some, same, decide_True, if_true, held]
        exact ⟨entryKey, rfl, equal⟩
    · have held : (Records.holding key entries').Perm
          ((indexKey, key) :: Records.holding key entries) := by
        simpa [Records.holding] using perm.filter fun entry => decide (entry.2 = key)
      have own : Holds index.keyOrder key (some indexKey) [(indexKey, key)] :=
        ⟨indexKey, rfl, Batteries.OrientedCmp.cmp_refl⟩
      cases old with
      | none =>
        rw [show Records.holding key entries = [] from holds] at held
        exact own.perm held.symm
      | some oldKey =>
        obtain ⟨entryKey, stale, equalOld⟩ := holds
        have apart : index.keyOrder oldKey indexKey ≠ .eq := fun same =>
          fresh (entryKey, key) (by simp [stale])
            ((Batteries.TransCmp.cmp_congr_left same).symm.trans equalOld)
        simp only [DbHandle.unstale, Option.any_some, apart, decide_False, Bool.false_eq_true,
          if_false, Records.holding_erasePair]
        refine own.perm ((held.filter _).trans ?_).symm
        simp [stale, apart, equalOld, Batteries.OrientedCmp.cmp_refl]

/-- A put that succeeds on the primary keeps a secondary mirroring it. -/
theorem Mirrors.update (mirrors : Mirrors table index records entries)
    (separates : Separates table.keyOrder) (dupSeparates : Separates index.dupOrder)
    {key data : Bytes} {entries' : Records}
    (added : index.Added key (index.secondaryKey key data) entries entries') :
    Mirrors table index (Records.put table.keyOrder key data records)
      (index.unstale key ((Records.lookup table.keyOrder key records).bind (index.secondaryKey key))
        (index.secondaryKey key data) entries') where
  holds other := by
    rw [Records.lookup_put]
    split_ifs with same
    · obtain rfl := separates _ _ same
      exact (mirrors.holds other).update added
    · have different : key ≠ other := fun equal => same (equal ▸ Batteries.OrientedCmp.cmp_refl)
      rw [DbHandle.holding_unstale_of_ne dupSeparates different]
      exact (mirrors.holds other).perm (added.holding_perm_of_ne different).symm
  unique unique :=
    (added.pairwise unique (mirrors.unique unique)).sublist (DbHandle.unstale_sublist ..)

/-- A delete that succeeds on the primary keeps a secondary mirroring it. -/
theorem Mirrors.erase (mirrors : Mirrors table index records entries)
    (separates : Separates table.keyOrder) (dupSeparates : Separates index.dupOrder)
    {key data : Bytes} (found : Records.lookup table.keyOrder key records = some data) :
    Mirrors table index (Records.erase table.keyOrder key records)
      (index.unstale key (index.secondaryKey key data) none entries) where
  holds other := by
    rw [Records.lookup_erase]
    split_ifs with same
    · obtain rfl := separates _ _ same
      have holds := mirrors.holds other
      rw [found, Option.some_bind] at holds
      exact holds.unstale_none
    · have different : key ≠ other := fun equal => same (equal ▸ Batteries.OrientedCmp.cmp_refl)
      rw [DbHandle.holding_unstale_of_ne dupSeparates different]
      exact mirrors.holds other
  unique unique := (mirrors.unique unique).sublist (DbHandle.unstale_sublist ..)

theorem Mirrors.congr {records' : Records}
    (same : ∀ key, Records.lookup table.keyOrder key records' =
      Records.lookup table.keyOrder key records)
    (mirrors : Mirrors table index records entries) : Mirrors table index records' entries where
  holds key := same key ▸ mirrors.holds key
  unique := mirrors.unique

theorem Mirrors.mem_entry (mirrors : Mirrors table index records entries)
    (separates : Separates table.keyOrder) {entry : Bytes × Bytes} (member : entry ∈ entries) :
    ∃ data indexKey, (entry.2, data) ∈ records ∧ index.secondaryKey entry.2 data = some indexKey ∧
      index.keyOrder indexKey entry.1 = .eq := by
  have held : entry ∈ Records.holding entry.2 entries := by simp [Records.holding, member]
  have holds := mirrors.holds entry.2
  cases projected : (Records.lookup table.keyOrder entry.2 records).bind
      (index.secondaryKey entry.2) with
  | none =>
    rw [projected] at holds
    rw [(holds : Records.holding _ _ = [])] at held
    cases held
  | some indexKey =>
    rw [projected] at holds
    obtain ⟨entryKey, single, equal⟩ := holds
    obtain ⟨data, looked, projects⟩ := Option.bind_eq_some.mp projected
    obtain ⟨record, found, rfl⟩ := Option.map_eq_some'.mp looked
    have stored := separates _ _ (Records.find_eq_some _ found)
    rw [single, List.mem_singleton] at held
    refine ⟨record.2, indexKey, ?_, projects, held ▸ equal⟩
    rw [stored]
    exact List.mem_of_find?_eq_some found

theorem Mirrors.retable {table' : DbHandle} (mirrors : Mirrors table index records entries)
    (same : table'.compare = table.compare) : Mirrors table' index records entries where
  holds key := by
    rw [show table'.keyOrder = table.keyOrder by simp [DbHandle.keyOrder, same]]
    exact mirrors.holds key
  unique := mirrors.unique

theorem Holds.length_le {order : Bytes → Bytes → Ordering} {key : Bytes}
    {projection : Option Bytes} {held : Records} (holds : Holds order key projection held) :
    held.length ≤ 1 := by
  cases projection with
  | none => rw [(holds : held = [])]; simp
  | some indexKey => obtain ⟨entryKey, rfl, -⟩ := holds; simp

theorem Mirrors.keys_nodup (mirrors : Mirrors table index records entries) :
    (entries.map Prod.snd).Nodup := by
  refine List.pairwise_map.mpr (List.pairwise_iff_forall_sublist.mpr fun {one other} sub same => ?_)
  have held := ((sub.filter fun entry => decide (entry.2 = one.2)).length_le).trans
    (mirrors.holds one.2).length_le
  simp [same] at held

end Mirror

/-! ## Building an index -/

/-- No two of the records have projections equal under the index's comparator. -/
def DbHandle.DistinctProjections (index : DbHandle) (records : Records) : Prop :=
  records.Pairwise fun one other => ∀ indexKey ∈ index.secondaryKey one.1 one.2,
    ∀ indexKey' ∈ index.secondaryKey other.1 other.2, index.keyOrder indexKey indexKey' ≠ .eq

theorem Records.lookup_append_fresh {order : Bytes → Bytes → Ordering} [Batteries.TransCmp order]
    {records : Records} {key data : Bytes} (fresh : ∀ other ∈ records, order key other.1 ≠ .eq)
    (key' : Bytes) :
    lookup order key' (records ++ [(key, data)]) = lookup order key' (put order key data records) := by
  rw [lookup_put]
  by_cases same : order key' key = .eq
  · have absent : records.find? (fun record => order key' record.1 = .eq) = none :=
      List.find?_eq_none.mpr fun other member found => fresh other member
        ((Batteries.TransCmp.cmp_congr_left same).symm.trans (by simpa using found))
    simp [lookup, find, List.find?_append, absent, same]
  · simp [lookup, find, List.find?_append, same, Option.or_none]

section Build

variable {table index : DbHandle} {callback : IndexCallback} {db : Nat}

/-- One record of `DB->associate` with `DB_CREATE` adds its entry as a put would. -/
theorem buildSecondary_added (dupSeparates : Separates index.dupOrder) {key data : Bytes}
    {entries : Records}
    (apart : index.dupSort = false → ∀ indexKey ∈ callback key data,
      ∀ entry ∈ entries, index.keyOrder indexKey entry.1 ≠ .eq) :
    DbHandle.Added { index with primary := some (db, callback) } key (callback key data) entries
      (buildSecondary index callback [(key, data)] entries) := by
  simp only [buildSecondary]
  cases projected : callback key data with
  | none => rfl
  | some indexKey =>
    simp only
    cases dup : index.dupSort with
    | false =>
      have fresh := apart dup indexKey projected
      have absent : Records.find index.keyOrder indexKey entries = none :=
        List.find?_eq_none.mpr fun entry member same => fresh entry member (by simpa using same)
      refine .inr ⟨fun entry member => fresh entry (List.mem_of_mem_filter member),
        fun _ => fresh, ?_⟩
      simp only [Bool.false_eq_true, if_false, Records.put, absent]
      exact Records.insertBy_perm _ _ _
    | true =>
      simp only [if_true, Records.putDup]
      split
      · next there =>
        obtain ⟨entryKey, owner, member, equal, dupEqual⟩ := by simpa using there
        rw [← dupSeparates _ _ dupEqual] at member
        exact .inl ⟨⟨(entryKey, key), by simp [Records.holding, member], equal⟩, rfl⟩
      · next absent =>
        refine .inr ⟨fun entry member same => absent ?_, by simp, Records.insertBy_perm _ _ _⟩
        simp only [Records.holding, List.mem_filter, decide_eq_true_eq] at member
        exact List.any_eq_true.mpr ⟨entry, member.1,
          decide_eq_true ⟨same, member.2 ▸ Batteries.OrientedCmp.cmp_refl⟩⟩

/-- Building the entries of `rest` over entries that mirror `done` mirrors all the records. -/
theorem Mirrors.buildSecondary (separates : Separates table.keyOrder)
    (dupSeparates : Separates index.dupOrder) :
    ∀ {done rest entries : Records}, Records.Keyed table.keyOrder (done ++ rest) →
      (index.dupSort = false →
        DbHandle.DistinctProjections { index with primary := some (db, callback) } (done ++ rest)) →
      Mirrors table { index with primary := some (db, callback) } done entries →
      Mirrors table { index with primary := some (db, callback) } (done ++ rest)
        (Bdb.buildSecondary index callback rest entries)
  | done, [], entries, _, _, mirrors => by simpa using mirrors
  | done, (key, data) :: rest, entries, keyed, distinct, mirrors => by
    have fresh : ∀ other ∈ done, table.keyOrder key other.1 ≠ .eq := fun other member =>
      Records.ne_eq_symm ((List.pairwise_append.mp keyed).2.2 other member (key, data)
        (List.mem_cons_self _ _))
    have apart : index.dupSort = false → ∀ indexKey ∈ callback key data,
        ∀ entry ∈ entries, index.keyOrder indexKey entry.1 ≠ .eq := by
      intro unique indexKey projected entry member same
      obtain ⟨data', indexKey', stored, projects, equal⟩ := mirrors.mem_entry separates member
      refine (List.pairwise_append.mp (distinct unique)).2.2 _ stored (key, data)
        (List.mem_cons_self _ _) indexKey' projects indexKey projected ?_
      exact (Batteries.TransCmp.cmp_congr_right same).trans equal
    have absent : Records.lookup table.keyOrder key done = none := by
      simp only [Records.lookup, Records.find, Option.map_eq_none', List.find?_eq_none]
      exact fun other member same => fresh other member (by simpa using same)
    have added := mirrors.update separates dupSeparates (buildSecondary_added dupSeparates apart)
    rw [absent] at added
    have step := @Mirrors.buildSecondary separates dupSeparates (done ++ [(key, data)]) rest _
      (by simpa using keyed) (by simpa using distinct)
      (added.congr (Records.lookup_append_fresh fresh))
    simpa [Bdb.buildSecondary] using step

end Build

/-! ## What the engine's writes do to the files of a secondary -/

/-- The file of the handle `handle`, if it is an open `DB`. -/
def Handles.fileOf (handles : Handles) (handle : Nat) : Option String :=
  (handles.dbHandle handle).bind DbHandle.file

theorem Handles.fileOf_eq {handles : Handles} {handle : Nat} {index : DbHandle}
    (indexed : handles.dbHandle handle = some index) : handles.fileOf handle = index.file := by
  simp [Handles.fileOf, indexed]

theorem Store.records_setRecords_of_ne (store : Store) {handle other : DbHandle}
    (different : handle.file ≠ other.file) (records : Records) :
    (store.setRecords handle records).records other = store.records other := by
  unfold Store.setRecords
  split
  · next file opened =>
    cases named : other.file with
    | none => simp [Store.records, named]
    | some otherFile =>
      have apart : otherFile ≠ file := fun same => different (by rw [opened, named, same])
      simp [Store.records, named, Function.update_noteq apart]
  · rfl

namespace Access

variable (handles : Handles) {key data : Bytes}

section Frame

variable {other : DbHandle}

theorem insertSecondary_records_of_ne {secondary : Nat}
    (different : handles.fileOf secondary ≠ other.file) (store : Store) :
    (insertSecondary handles key data secondary store).2.records other = store.records other := by
  unfold insertSecondary
  cases indexed : handles.dbHandle secondary with
  | none => rfl
  | some index =>
    have apart : index.file ≠ other.file := by rwa [← Handles.fileOf_eq indexed]
    simp only
    repeat' split
    all_goals first | rfl | exact store.records_setRecords_of_ne apart _

theorem insertSecondaries_records_of_not_mem :
    ∀ {secondaries : List Nat}, (∀ secondary ∈ secondaries, handles.fileOf secondary ≠ other.file) →
      ∀ store, (insertSecondaries handles key data secondaries store).2.records other =
        store.records other
  | [], _, _ => rfl
  | secondary :: rest, apart, store => by
    have first := @insertSecondary_records_of_ne handles key data other secondary
      (apart secondary (List.mem_cons_self _ _)) store
    simp only [insertSecondaries]
    split
    · next inserted =>
      rw [insertSecondaries_records_of_not_mem (fun other member =>
        apart other (List.mem_cons_of_mem _ member)), ← first, inserted]
    · exact first

theorem eraseStale_records_of_ne {secondary : Nat}
    (different : handles.fileOf secondary ≠ other.file) (oldData : Bytes) (store : Store) :
    (eraseStale handles key oldData data store secondary).records other = store.records other := by
  unfold eraseStale
  cases indexed : handles.dbHandle secondary with
  | none => rfl
  | some index =>
    have apart : index.file ≠ other.file := by rwa [← Handles.fileOf_eq indexed]
    simp only
    repeat' split
    all_goals first | rfl | exact store.records_setRecords_of_ne apart _

theorem eraseEntry_records_of_ne {secondary : Nat}
    (different : handles.fileOf secondary ≠ other.file) (store : Store) :
    (eraseEntry handles key data store secondary).records other = store.records other := by
  unfold eraseEntry
  cases indexed : handles.dbHandle secondary with
  | none => rfl
  | some index =>
    have apart : index.file ≠ other.file := by rwa [← Handles.fileOf_eq indexed]
    simp only
    split
    · rfl
    · exact store.records_setRecords_of_ne apart _

theorem foldl_records_of_not_mem {step : Store → Nat → Store}
    (frame : ∀ store secondary, handles.fileOf secondary ≠ other.file →
      (step store secondary).records other = store.records other) :
    ∀ {secondaries : List Nat}, (∀ secondary ∈ secondaries, handles.fileOf secondary ≠ other.file) →
      ∀ store, (secondaries.foldl step store).records other = store.records other
  | [], _, _ => rfl
  | secondary :: rest, apart, store => by
    rw [List.foldl_cons, foldl_records_of_not_mem frame (fun other member =>
      apart other (List.mem_cons_of_mem _ member)), frame _ _ (apart _ (List.mem_cons_self _ _))]

end Frame

/-- Steps on secondaries open on files of their own do to each file what its own step does. -/
theorem foldl_records_own {step : Store → Nat → Store}
    (frame : ∀ store secondary (other : DbHandle), handles.fileOf secondary ≠ other.file →
      (step store secondary).records other = store.records other)
    {secondary : Nat} {index : DbHandle} (indexed : handles.dbHandle secondary = some index)
    {effect : Records → Records}
    (acts : ∀ store, (step store secondary).records index = effect (store.records index)) :
    ∀ {secondaries : List Nat}, (secondaries.map handles.fileOf).Nodup → secondary ∈ secondaries →
      ∀ store, (secondaries.foldl step store).records index = effect (store.records index)
  | first :: rest, distinct, member, store => by
    rw [List.map_cons, List.nodup_cons] at distinct
    rw [List.foldl_cons]
    by_cases here : first = secondary
    · subst here
      rw [foldl_records_of_not_mem handles (frame · · index) (fun other member same =>
        distinct.1 (Handles.fileOf_eq indexed ▸ same ▸ List.mem_map_of_mem _ member)), acts]
    · have later := List.mem_of_ne_of_mem (Ne.symm here) member
      rw [foldl_records_own frame indexed acts distinct.2 later, frame _ _ _ fun same =>
        distinct.1 (same ▸ Handles.fileOf_eq indexed ▸ List.mem_map_of_mem _ later)]

variable {handles}

/-- A successful `insertSecondary` adds the record's entry to the secondary, or finds it there. -/
theorem insertSecondary_added {secondary : Nat} {index : DbHandle}
    (indexed : handles.dbHandle secondary = some index) {file : String}
    (opened : index.file = some file) (dupSeparates : Separates index.dupOrder) {store : Store}
    (ok : (insertSecondary handles key data secondary store).1 = none) :
    index.Added key (index.secondaryKey key data) (store.records index)
      ((insertSecondary handles key data secondary store).2.records index) := by
  simp only [insertSecondary, indexed] at ok ⊢
  cases projected : index.secondaryKey key data with
  | none => rfl
  | some indexKey =>
    simp only [projected] at ok ⊢
    split_ifs at ok ⊢ with unreferenced dup
    · simp only [Records.putDup] at ok ⊢
      split_ifs with there
      · obtain ⟨entryKey, owner, member, equal, dupEqual⟩ := by simpa using there
        rw [← dupSeparates _ _ dupEqual] at member
        exact .inl ⟨⟨(entryKey, key), by simp [Records.holding, member], equal⟩, rfl⟩
      · refine .inr ⟨fun entry member same => there ?_, by simp [dup], ?_⟩
        · simp only [Records.holding, List.mem_filter, decide_eq_true_eq] at member
          exact List.any_eq_true.mpr ⟨entry, member.1,
            decide_eq_true ⟨same, member.2 ▸ Batteries.OrientedCmp.cmp_refl⟩⟩
        · rw [store.records_setRecords opened]
          exact Records.insertBy_perm _ _ _
    · cases found : Records.find index.keyOrder indexKey (store.records index) with
      | some entry =>
        simp only [found] at ok ⊢
        split_ifs at ok ⊢ with mine
        refine .inl ⟨⟨entry, ?_, Records.find_eq_some _ found⟩, rfl⟩
        simp [Records.holding, List.mem_of_find?_eq_some found, mine]
      | none =>
        have fresh : ∀ entry ∈ store.records index, index.keyOrder indexKey entry.1 ≠ .eq :=
          fun entry member same => by
            simpa [found] using (Records.find_isSome_iff index.keyOrder).mpr ⟨entry, member, same⟩
        refine .inr ⟨fun entry member => fresh entry (List.mem_of_mem_filter member),
          fun _ => fresh, ?_⟩
        simp only [found, store.records_setRecords opened, Records.put, Option.isSome_none,
          Bool.false_eq_true, if_false]
        exact Records.insertBy_perm _ _ _

theorem insertSecondaries_added {secondary : Nat} {index : DbHandle}
    (indexed : handles.dbHandle secondary = some index) {file : String}
    (opened : index.file = some file) (dupSeparates : Separates index.dupOrder) :
    ∀ {secondaries : List Nat}, (secondaries.map handles.fileOf).Nodup → secondary ∈ secondaries →
      ∀ {store : Store}, (insertSecondaries handles key data secondaries store).1 = none →
        index.Added key (index.secondaryKey key data) (store.records index)
          ((insertSecondaries handles key data secondaries store).2.records index)
  | first :: rest, distinct, member, store, ok => by
    rw [List.map_cons, List.nodup_cons] at distinct
    rcases insertSecondaries_cons handles key data first rest store with
      ⟨code, failed, looped⟩ | ⟨inserted, looped⟩
    · rw [looped, failed] at ok; cases ok
    rw [looped] at ok ⊢
    by_cases here : first = secondary
    · subst here
      rw [insertSecondaries_records_of_not_mem handles fun other member same =>
        distinct.1 (Handles.fileOf_eq indexed ▸ same ▸ List.mem_map_of_mem _ member)]
      exact insertSecondary_added indexed opened dupSeparates inserted
    · have later := List.mem_of_ne_of_mem (Ne.symm here) member
      have added := insertSecondaries_added indexed opened dupSeparates distinct.2 later ok
      rwa [insertSecondary_records_of_ne handles (fun same => distinct.1
        (by rw [same, ← Handles.fileOf_eq indexed]; exact List.mem_map_of_mem _ later)) store] at added

theorem eraseStale_records {secondary : Nat} {index : DbHandle}
    (indexed : handles.dbHandle secondary = some index) {file : String}
    (opened : index.file = some file) (oldData : Bytes) (store : Store) :
    (eraseStale handles key oldData data store secondary).records index =
      index.unstale key (index.secondaryKey key oldData) (index.secondaryKey key data)
        (store.records index) := by
  simp only [eraseStale, indexed]
  cases index.secondaryKey key oldData with
  | none => rfl
  | some oldKey =>
    simp only [DbHandle.unstale]
    split <;> simp [store.records_setRecords opened]

theorem eraseEntry_records {secondary : Nat} {index : DbHandle}
    (indexed : handles.dbHandle secondary = some index) {file : String}
    (opened : index.file = some file) (store : Store) :
    (eraseEntry handles key data store secondary).records index =
      index.unstale key (index.secondaryKey key data) none (store.records index) := by
  simp only [eraseEntry, indexed]
  cases index.secondaryKey key data with
  | none => rfl
  | some indexKey => simp [DbHandle.unstale, store.records_setRecords opened]

end Access

/-! ## A primary keeps its secondaries mirroring it -/

/-- How `add_table` and `add_index` lay out a primary and its secondaries: comparators that tell
keys apart, no foreign keys, a file each. -/
structure Layout (handles : Handles) (table : DbHandle) : Prop where
  separates : Separates table.keyOrder
  noForeign : table.foreign = []
  opened : table.file.isSome
  secondary : ∀ i ∈ table.secondaries, ∃ index, handles.dbHandle i = some index ∧
    index.file.isSome ∧ Separates index.dupOrder
  distinct : (table.file :: table.secondaries.map handles.fileOf).Nodup

/-- The records of `table` are keyed by its comparator, and each secondary mirrors them. -/
structure Indexed (handles : Handles) (table : DbHandle) (store : Store) : Prop where
  keyed : Records.Keyed table.keyOrder (store.records table)
  mirrors : ∀ i ∈ table.secondaries, ∀ index, handles.dbHandle i = some index →
    Mirrors table index (store.records table) (store.records index)

namespace Layout

variable {handles : Handles} {table : DbHandle} (layout : Layout handles table)
include layout

theorem apart : ∀ i ∈ table.secondaries, handles.fileOf i ≠ table.file := fun _ member same =>
  (List.nodup_cons.mp layout.distinct).1 (same ▸ List.mem_map_of_mem _ member)

theorem secondariesDistinct : (table.secondaries.map handles.fileOf).Nodup :=
  (List.nodup_cons.mp layout.distinct).2

theorem index_apart {i : Nat} (member : i ∈ table.secondaries) {index : DbHandle}
    (indexed : handles.dbHandle i = some index) : table.file ≠ index.file :=
  fun same => layout.apart i member (Handles.fileOf_eq indexed ▸ same.symm)

end Layout

section Writes

variable {handles : Handles} {db : Nat} {table : DbHandle} {store : Store}
  (found : handles.dbHandle db = some table) (layout : Layout handles table)
  (indexed : Indexed handles table store)
include found layout indexed

/-- A `DB->put` on the primary that succeeds keeps its secondaries mirroring it. -/
theorem Indexed.put {key data : Bytes} {noOverwrite : Bool}
    (ok : (Access.put handles db key data noOverwrite store).1 = none) :
    Indexed handles table (Access.put handles db key data noOverwrite store).2 := by
  obtain ⟨file, opened⟩ := Option.isSome_iff_exists.mp layout.opened
  simp only [Access.put, found] at ok ⊢
  split_ifs at ok ⊢
  cases inserted : Access.insertSecondaries handles key data table.secondaries store with
  | mk code stored =>
    cases code with
    | some code => simp [inserted] at ok
    | none =>
      have primary : stored.records table = store.records table := by
        rw [← Access.insertSecondaries_records_of_not_mem handles layout.apart store, inserted]
      suffices done : ∀ after : Store, after.records table = store.records table →
          (∀ i ∈ table.secondaries, ∀ index, handles.dbHandle i = some index →
            (∃ file, index.file = some file) →
            after.records index = index.unstale key
              ((Records.lookup table.keyOrder key (store.records table)).bind
                (index.secondaryKey key)) (index.secondaryKey key data) (stored.records index)) →
          Indexed handles table
            (after.setRecords table (Records.put table.keyOrder key data (after.records table))) by
        cases old : Records.lookup table.keyOrder key (store.records table) with
        | none => exact done stored primary fun _ _ _ _ _ => by rw [old]; rfl
        | some oldData =>
          refine done _ ((Access.foldl_records_of_not_mem handles (fun _ _ different =>
            @Access.eraseStale_records_of_ne handles key data _ _ different oldData _) layout.apart
              stored).trans primary) fun i member index secondary ⟨indexFile, indexOpened⟩ => ?_
          rw [old]
          exact Access.foldl_records_own handles (fun _ _ _ different =>
            @Access.eraseStale_records_of_ne handles key data _ _ different oldData _) secondary
            (Access.eraseStale_records secondary indexOpened oldData) layout.secondariesDistinct
            member stored
      intro after kept swept
      refine ⟨?_, fun i member index secondary => ?_⟩
      · rw [after.records_setRecords opened, kept]
        exact indexed.keyed.put key data
      · obtain ⟨_, same, indexOpened, dupSeparates⟩ := layout.secondary i member
        rw [secondary, Option.some_inj] at same
        subst same
        have added := Access.insertSecondaries_added secondary
          (Option.isSome_iff_exists.mp indexOpened).choose_spec dupSeparates
          layout.secondariesDistinct member (show (Access.insertSecondaries handles key data
            table.secondaries store).1 = none by rw [inserted])
        rw [inserted] at added
        rw [after.records_setRecords opened, kept,
          after.records_setRecords_of_ne (layout.index_apart member secondary),
          swept i member index secondary (Option.isSome_iff_exists.mp indexOpened)]
        exact (indexed.mirrors i member index secondary).update layout.separates dupSeparates added

/-- A `DB->del` on the primary that succeeds keeps its secondaries mirroring it. -/
theorem Indexed.del {fuel : Nat} {key : Bytes}
    (ok : (Access.del handles fuel db key store).1 = none) :
    Indexed handles table (Access.del handles fuel db key store).2 := by
  obtain ⟨file, opened⟩ := Option.isSome_iff_exists.mp layout.opened
  cases fuel with
  | zero => cases ok
  | succ fuel =>
    simp only [Access.del, found, layout.noForeign, Access.applyForeign] at ok ⊢
    cases present : Records.find table.keyOrder key (store.records table) with
    | none => simp [present] at ok
    | some record =>
      obtain ⟨storedKey, data⟩ := record
      obtain rfl : key = storedKey := layout.separates _ _ (Records.find_eq_some _ present)
      have looked : Records.lookup table.keyOrder key (store.records table) = some data := by
        simp [Records.lookup, present]
      dsimp only
      have kept := Access.foldl_records_of_not_mem handles
        (fun _ _ different => @Access.eraseEntry_records_of_ne handles key data _ _ different _)
        layout.apart store
      refine ⟨?_, fun i member index secondary => ?_⟩
      · rw [Store.records_setRecords _ opened, kept]
        exact indexed.keyed.erase key
      · obtain ⟨_, same, indexOpened, dupSeparates⟩ := layout.secondary i member
        rw [secondary, Option.some_inj] at same
        subst same
        obtain ⟨indexFile, indexOpened⟩ := Option.isSome_iff_exists.mp indexOpened
        rw [Store.records_setRecords _ opened, kept, Store.records_setRecords_of_ne _
          (layout.index_apart member secondary), Access.foldl_records_own handles
          (fun _ _ _ different => @Access.eraseEntry_records_of_ne handles key data _ _ different _)
          secondary
          (Access.eraseEntry_records secondary indexOpened) layout.secondariesDistinct member]
        exact (indexed.mirrors i member index secondary).erase layout.separates dupSeparates looked

theorem Indexed.perform {Key Data : Type} (keys : Codec Key) (values : Codec Data)
    (faults : Faults) {call : TableCall Key Data} {reply : Reply Data}
    (ok : (call.perform keys values faults handles db store).1 = .ok reply) :
    Indexed handles table (call.perform keys values faults handles db store).2 := by
  rcases TableCall.perform_cases keys values faults handles db ok with
    same | ⟨key, data, noOverwrite, put⟩ | ⟨fuel, key, deleted⟩
  · rw [same]; exact indexed
  · simpa only [put] using indexed.put found layout (congrArg Prod.fst put)
  · simpa only [deleted] using indexed.del found layout (congrArg Prod.fst deleted)

end Writes

/-- A table call that returns keeps the secondaries mirroring what the top transaction reads. -/
theorem Indexed.tableCall {root db : Nat} {table : DbHandle} {sys : System Store}
    (inv : StackInv root sys) (found : sys.engine.handles.dbHandle db = some table)
    (layout : Layout sys.engine.handles table)
    (indexed : Indexed sys.engine.handles table sys.abstract.current) {Key Data : Type}
    (keys : Codec Key) (values : Codec Data) (faults : Faults) {call : TableCall Key Data}
    {reply : Reply Data} (ok : (sys.tableCall keys values faults db call).1 = .ok reply) :
    Indexed (sys.tableCall keys values faults db call).2.engine.handles table
      (sys.tableCall keys values faults db call).2.abstract.current := by
  rw [System.tableCall, System.performTop_handles, inv.performTop_current]
  exact indexed.perform found layout keys values faults
    (((inv.operate_refines _).1).symm.trans ok)

/-! ## Attaching an index -/

theorem StackInv.withHandles {root : Nat} {sys : System Store} (inv : StackInv root sys)
    (handles : Handles) : StackInv root (sys.withHandles handles) :=
  inv.congr rfl rfl rfl rfl

theorem StackInv.call {root : Nat} {sys : System Store} (inv : StackInv root sys)
    (operation : Store → Option DbError × Store) : StackInv root (sys.call operation).2 :=
  have ⟨txns, parents, fresh, finalized⟩ := performTop_transparent operation sys
  inv.congr txns parents fresh finalized

theorem System.call_fst_of_const {sys : System Store} {operation : Store → Option DbError × Store}
    {code : Option DbError} (always : ∀ store, (operation store).1 = code) :
    (sys.call operation).1 = code := by
  unfold System.call System.performTop TxnTable.perform
  split <;> exact always _

theorem openFile_create_fst (file : String) (store : Store) :
    (openFile file true false store).1 = none := by
  unfold openFile
  split <;> rfl

theorem openFile_records (file : String) (create exclusive : Bool) (store : Store)
    (handle : DbHandle) : (openFile file create exclusive store).2.records handle =
      store.records handle := by
  unfold openFile
  split
  · rfl
  · next absent =>
    split
    · cases named : handle.file with
      | none => simp [Store.records, named]
      | some other =>
        by_cases same : other = file
        · subst same
          simp [Store.records, named, absent]
        · simp [Store.records, named, Function.update_noteq same]
    · rfl

theorem associateRecords_fst (table index : DbHandle) (callback : IndexCallback) (store : Store) :
    (associateRecords table index callback store).1 = none := by
  unfold associateRecords
  split <;> rfl

theorem associateHandles_eq {handles : Handles} {db index : Nat} {table secondary : DbHandle}
    (found : handles.dbHandle db = some table) (indexed : handles.dbHandle index = some secondary)
    (callback : IndexCallback) :
    associateHandles handles db index callback =
      (handles.set db (.db { table with secondaries := index :: table.secondaries })).set index
        (.db { secondary with primary := some (db, callback) }) := by
  simp [associateHandles, found, indexed]

section IndexNew

variable {faults : Faults} {owner : Table} {name : String} {callback : IndexCallback}
  {compare : Option Comparator} {unique : Bool} {sys : System Store}

theorem Index.new_ok_eq {index : Index}
    (ok : (Index.new faults owner name callback compare unique sys).1 = .ok index) :
    let created := sys.engine.handles.alloc (.db (indexHandle name compare owner.callback unique))
    let opened := ((sys.withHandles created.2).call (openFile (name ++ ".ix") true false)).2
    ∃ primary, owner.db.bind created.2.dbHandle = some primary ∧ index = ⟨name, some created.1⟩ ∧
      (Index.new faults owner name callback compare unique sys).2 =
        (opened.call (associateRecords primary (indexHandle name compare owner.callback unique)
          callback)).2.withHandles (associateHandles created.2 (owner.db.getD created.1) created.1
            callback) := by
  intro created opened
  unfold Index.new at ok ⊢
  split at ok
  · cases ok
  · next noFault =>
    simp only [noFault] at ok ⊢
    unfold Index.configure Index.openCalls Index.associate at ok ⊢
    split at ok
    · cases ok
    · next configured =>
      split at configured
      · cases configured
      · next stage openedEq =>
        split at openedEq
        · cases openedEq
        · have staged : stage = opened := (congrArg Prod.snd openedEq).symm
          subst staged
          split at configured
          · cases configured
          · cases configured
          · next found =>
            simp only [Prod.mk.injEq] at configured ok
            exact ⟨_, found, (Except.ok.inj ok).symm, configured.2.symm⟩

/-- When `index::index` returns, it has opened `name.ix`, built it if empty, and attached it. -/
theorem Index.new_ok {root : Nat} (inv : StackInv root sys) {index : Index}
    (ok : (Index.new faults owner name callback compare unique sys).1 = .ok index) :
    let created := sys.engine.handles.alloc (.db (indexHandle name compare owner.callback unique))
    let next := (Index.new faults owner name callback compare unique sys).2
    index = ⟨name, some created.1⟩ ∧ StackInv root next ∧ next.database = sys.database ∧
      ∃ primary, owner.db.bind created.2.dbHandle = some primary ∧
        next.engine.handles = associateHandles created.2 (owner.db.getD created.1) created.1
          callback ∧
        next.abstract.current = (associateRecords primary
          (indexHandle name compare owner.callback unique) callback
          (openFile (name ++ ".ix") true false sys.abstract.current).2).2 := by
  intro created next
  obtain ⟨primary, primaryFound, named, shape⟩ := Index.new_ok_eq ok
  have opened := (inv.withHandles created.2).call (openFile (name ++ ".ix") true false)
  refine ⟨named, ?_, ?_, primary, primaryFound, ?_, ?_⟩ <;> simp only [next, shape]
  · exact (opened.call _).withHandles _
  · rfl
  · rfl
  · show (System.call _ _).2.abstract.current = _
    rw [System.call, opened.performTop_current, System.call, (inv.withHandles _).performTop_current]
    rfl

end IndexNew

theorem associateRecords_records_of_ne {table index other : DbHandle} (callback : IndexCallback)
    (different : index.file ≠ other.file) (store : Store) :
    (associateRecords table index callback store).2.records other = store.records other := by
  unfold associateRecords
  split
  · exact store.records_setRecords_of_ne different _
  · rfl

theorem associateRecords_records {table index : DbHandle} (callback : IndexCallback)
    {file : String} (opened : index.file = some file) (store : Store) :
    (associateRecords table index callback store).2.records index =
      if store.records index = [] then buildSecondary index callback (store.records table) []
      else store.records index := by
  unfold associateRecords
  split
  · exact store.records_setRecords opened _
  · rfl

/-- An `index::index` that returns writes only the index's own file. -/
theorem Index.new_records {faults : Faults} {owner : Table} {name : String}
    {callback : IndexCallback} {compare : Option Comparator} {unique : Bool} {sys : System Store}
    {root : Nat} (inv : StackInv root sys) {index : Index}
    (ok : (Index.new faults owner name callback compare unique sys).1 = .ok index)
    {handle : DbHandle} (different : handle.file ≠ some (name ++ ".ix")) :
    (Index.new faults owner name callback compare unique sys).2.abstract.current.records handle =
      sys.abstract.current.records handle := by
  obtain ⟨-, -, -, _, -, -, current⟩ := Index.new_ok inv ok
  rw [current, associateRecords_records_of_ne _ (Ne.symm different), openFile_records]

theorem Table.new_ok_eq {faults : Faults} {name : String} {callback : Option Comparator}
    {create : Bool} {sys : System Store} {table : Table}
    (ok : (Table.new faults name callback create sys).1 = .ok table) :
    let created := sys.engine.handles.alloc (.db { compare := callback })
    let opened := ((sys.withHandles created.2).call (openFile (name ++ ".db") create create)).2
    table = ⟨name, some created.1, callback, []⟩ ∧
      (Table.new faults name callback create sys).2 = opened.withHandles
        (created.2.set created.1 (.db { compare := callback, file := some (name ++ ".db") })) := by
  intro created opened
  unfold Table.new at ok ⊢
  split at ok
  · cases ok
  · next noFault =>
    simp only [noFault] at ok ⊢
    unfold Table.openCalls at ok ⊢
    split at ok
    · cases ok
    · next stage openedEq =>
      split at openedEq
      · cases openedEq
      · have staged : stage = opened := (congrArg Prod.snd openedEq).symm
        subst staged
        exact ⟨(Except.ok.inj ok).symm, rfl⟩

/-! ## Sessions on an indexed table -/

/-- The handle of an index once `DB->associate` has made it a secondary of the handle `db`. -/
def attachedHandle (owner : Table) (name : String) (callback : IndexCallback)
    (compare : Option Comparator) (unique : Bool) (db : Nat) : DbHandle :=
  { indexHandle name compare owner.callback unique with primary := some (db, callback) }

/-- An index file `add_index` may attach: empty with distinct unique projections, or mirroring. -/
def Attachable (table index : DbHandle) (store : Store) : Prop :=
  (store.records index = [] → index.dupSort = false →
    index.DistinctProjections (store.records table)) ∧
  (store.records index ≠ [] → Mirrors table index (store.records table) (store.records index))

/-- The duplicate comparator `add_index` gives an index tells keys apart when the table's does. -/
theorem indexHandle_dupSeparates (name : String) (compare callback : Option Comparator)
    (unique : Bool) (separates : Separates (Comparator.orDefault callback)) :
    Separates (indexHandle name compare callback unique).dupOrder := by
  cases unique
  · exact separates
  · exact defaultCompare_separates

theorem Attachable.associate {table index : DbHandle} {callback : IndexCallback} {db : Nat}
    {store : Store} {file : String}
    (attachable : Attachable table { index with primary := some (db, callback) } store)
    (separates : Separates table.keyOrder) (dupSeparates : Separates index.dupOrder)
    (keyed : Records.Keyed table.keyOrder (store.records table)) (opened : index.file = some file) :
    Mirrors table { index with primary := some (db, callback) } (store.records table)
      ((associateRecords table index callback store).2.records index) := by
  rw [associateRecords_records callback opened]
  split_ifs with empty
  · simpa using @Mirrors.buildSecondary table index callback db separates dupSeparates [] _ []
      keyed (attachable.1 empty) ⟨fun _ => rfl, fun _ => List.Pairwise.nil⟩
  · exact attachable.2 empty

/-- What a session keeps of its table `owner`, open on the handle `table` numbered `db`: its indexes
attached, its handles handed out, its layout, its secondaries mirroring it. -/
structure TableFacts (db : Nat) (sys : System Store) (owner : Table) (table : DbHandle) : Prop where
  owned : owner.db = some db
  found : sys.engine.handles.dbHandle db = some table
  compare : table.compare = owner.callback
  attached : ∀ index ∈ owner.indexes, ∃ i ∈ table.secondaries, index.db = some i
  below : db < sys.engine.handles.fresh ∧ ∀ i ∈ table.secondaries, i < sys.engine.handles.fresh
  layout : Layout sys.engine.handles table
  indexed : Indexed sys.engine.handles table sys.abstract.current

/-- The table at `position` of `m_tables`, open on `db`, with a stack chained from `root`. -/
def IndexedTable (root position db : Nat) (sys : System Store) : Prop :=
  StackInv root sys ∧ ∃ owner table, sys.database.tables[position]? = some owner ∧
    TableFacts db sys owner table

section Congr

variable {handles handles' : Handles} {table : DbHandle}

theorem Layout.congr (layout : Layout handles table)
    (same : ∀ i ∈ table.secondaries, handles'.dbHandle i = handles.dbHandle i) :
    Layout handles' table where
  separates := layout.separates
  noForeign := layout.noForeign
  opened := layout.opened
  secondary i member := same i member ▸ layout.secondary i member
  distinct := by
    rw [List.map_congr_left fun i member => show handles'.fileOf i = handles.fileOf i by
      simp [Handles.fileOf, same i member]]
    exact layout.distinct

theorem Indexed.congr {store store' : Store} (indexed : Indexed handles table store)
    (same : ∀ i ∈ table.secondaries, handles'.dbHandle i = handles.dbHandle i)
    (records : ∀ handle : DbHandle, store'.records handle = store.records handle) :
    Indexed handles' table store' where
  keyed := records table ▸ indexed.keyed
  mirrors i member index secondary := by
    rw [records, records]
    exact indexed.mirrors i member index (same i member ▸ secondary)

end Congr

section Attach

variable {handles handles' : Handles} {table index : DbHandle} {fresh : Nat}
  (same : ∀ i ∈ table.secondaries, handles'.dbHandle i = handles.dbHandle i)
  (attached : handles'.dbHandle fresh = some index)
include same attached

/-- The layout of `table` once `index`, on a file of its own, is one more secondary of it. -/
theorem Layout.attach (layout : Layout handles table) (opened : index.file.isSome)
    (dupSeparates : Separates index.dupOrder)
    (named : index.file ∉ table.file :: table.secondaries.map handles.fileOf) :
    Layout handles' { table with secondaries := fresh :: table.secondaries } where
  separates := layout.separates
  noForeign := layout.noForeign
  opened := layout.opened
  secondary i member := by
    rcases List.mem_cons.mp member with rfl | member
    · exact ⟨index, attached, opened, dupSeparates⟩
    · exact same i member ▸ layout.secondary i member
  distinct := by
    obtain ⟨tableApart, rest⟩ := List.nodup_cons.mp (layout.congr same).distinct
    obtain ⟨notTable, notIndexes⟩ := not_or.mp (mt List.mem_cons.mpr named)
    rw [List.map_congr_left fun i member => show handles.fileOf i = handles'.fileOf i by
      simp [Handles.fileOf, same i member]] at notIndexes
    show (table.file :: (handles'.fileOf fresh :: table.secondaries.map handles'.fileOf)).Nodup
    rw [Handles.fileOf_eq attached]
    exact List.nodup_cons.mpr ⟨List.not_mem_cons_of_ne_of_not_mem (Ne.symm notTable) tableApart,
      List.nodup_cons.mpr ⟨notIndexes, rest⟩⟩

/-- The secondaries keep mirroring `table` once `index`, whose file alone changed, joins them. -/
theorem Indexed.attach {store store' : Store} (indexed : Indexed handles table store)
    (kept : ∀ handle : DbHandle, handle.file ≠ index.file →
      store'.records handle = store.records handle)
    (named : index.file ∉ table.file :: table.secondaries.map handles.fileOf)
    (mirrors : Mirrors table index (store.records table) (store'.records index)) :
    Indexed handles' { table with secondaries := fresh :: table.secondaries } store' := by
  obtain ⟨notTable, notIndexes⟩ := not_or.mp (mt List.mem_cons.mpr named)
  have primary := kept table (Ne.symm notTable)
  refine ⟨primary ▸ indexed.keyed, fun i member other found => ?_⟩
  show Mirrors _ other (store'.records table) (store'.records other)
  rw [primary]
  rcases List.mem_cons.mp member with rfl | member
  · rw [attached, Option.some_inj] at found
    subst found
    exact mirrors.retable rfl
  · rw [same i member] at found
    rw [kept other fun equal => notIndexes (equal ▸ Handles.fileOf_eq found ▸
      List.mem_map_of_mem _ member)]
    exact (indexed.mirrors i member other found).retable rfl

end Attach


theorem System.addIndex_engine (sys : System Store) (faults : Faults) (position : Nat)
    (owner : Table) (name : String) (callback : IndexCallback) (compare : Option Comparator)
    (unique : Bool) : (sys.addIndex faults position owner name callback compare unique).2.engine =
      (Index.new faults owner name callback compare unique sys).2.engine := by
  unfold System.addIndex
  split <;> next _ _ result => rw [result]

theorem System.addIndex_current (sys : System Store) (faults : Faults) (position : Nat)
    (owner : Table) (name : String) (callback : IndexCallback) (compare : Option Comparator)
    (unique : Bool) :
    (sys.addIndex faults position owner name callback compare unique).2.abstract.current =
      (Index.new faults owner name callback compare unique sys).2.abstract.current := by
  unfold System.addIndex
  split
  · next _ _ result =>
    rw [result]
    rfl
  · next _ _ result => rw [result]

/-- An `add_table` that returns appends the table, opens its file anew, and writes nothing. -/
theorem System.addTable_ok {root : Nat} {sys : System Store} (inv : StackInv root sys)
    {faults : Faults} {name : String} {callback : Option Comparator} {create : Bool}
    (added : (sys.addTable faults name callback create).1 = .ok ()) :
    StackInv root (sys.addTable faults name callback create).2 ∧
      (sys.addTable faults name callback create).2.database.tables[sys.database.tables.length]? =
        some ⟨name, some sys.engine.handles.fresh, callback, []⟩ ∧
      (sys.addTable faults name callback create).2.engine.handles.dbHandle sys.engine.handles.fresh =
        some { compare := callback, file := some (name ++ ".db") } ∧
      (sys.addTable faults name callback create).2.engine.handles.fresh =
        sys.engine.handles.fresh + 1 ∧
      ∀ handle : DbHandle, (sys.addTable faults name callback create).2.abstract.current.records
        handle = sys.abstract.current.records handle := by
  have ⟨txns, parents, fresh, finalized⟩ :=
    System.addTable_transparent faults name callback create sys
  refine ⟨inv.congr txns parents fresh finalized, ?_⟩
  unfold System.addTable at added ⊢
  cases result : Table.new faults name callback create sys with
  | mk outcome next =>
    cases outcome with
    | error error => simp [result] at added
    | ok table =>
      obtain ⟨rfl, shape⟩ := Table.new_ok_eq
        (show (Table.new faults name callback create sys).1 = .ok table by rw [result])
      simp only [result] at shape ⊢
      subst shape
      refine ⟨List.getElem?_concat_length _ _, by simp [System.withHandles], by simp [System.withHandles],
        fun handle => ?_⟩
      show (System.call _ _).2.abstract.current.records handle = _
      rw [System.call, (inv.withHandles _).performTop_current]
      exact openFile_records _ _ _ _ handle

section Steps

variable {root position db : Nat} {sys : System Store}

/-- An `add_table` that returns opens a table with no index over a keyed file: indexed. -/
theorem IndexedTable.addTable (inv : StackInv root sys) {faults : Faults} {name : String}
    {callback : Option Comparator} {create : Bool}
    (added : (sys.addTable faults name callback create).1 = .ok ())
    (separates : Separates (Comparator.orDefault callback))
    (keyed : Records.Keyed (Comparator.orDefault callback)
      ((sys.abstract.current.files (name ++ ".db")).getD [])) :
    IndexedTable root sys.database.tables.length sys.engine.handles.fresh
      (sys.addTable faults name callback create).2 := by
  obtain ⟨kept, owned, found, fresh, records⟩ := System.addTable_ok inv added
  refine ⟨kept, _, _, owned, rfl, found, rfl, nofun, by simp [fresh], ⟨separates, rfl, rfl, nofun,
    List.nodup_singleton _⟩, ⟨(records { file := some (name ++ ".db") }).symm ▸ keyed, nofun⟩⟩

theorem IndexedTable.tableCall (session : IndexedTable root position db sys) {Key Data : Type}
    (keys : Codec Key) (values : Codec Data) (faults : Faults) {call : TableCall Key Data}
    {reply : Reply Data} (ok : (sys.tableCall keys values faults db call).1 = .ok reply) :
    IndexedTable root position db (sys.tableCall keys values faults db call).2 := by
  obtain ⟨inv, owner, table, owned, facts⟩ := session
  refine ⟨inv.tableCall keys values faults db call, owner, table, owned, ?_⟩
  exact { facts with
    indexed := facts.indexed.tableCall inv facts.found facts.layout keys values faults ok }

theorem below_cons {db fresh : Nat} {secondaries : List Nat}
    (below : db < fresh ∧ ∀ i ∈ secondaries, i < fresh) :
    db < fresh + 1 ∧ ∀ i ∈ fresh :: secondaries, i < fresh + 1 := by
  refine ⟨by omega, fun i member => ?_⟩
  rcases List.mem_cons.mp member with rfl | member
  · omega
  · exact Nat.lt_succ_of_lt (below.2 i member)

/-- The handles an `index::index` that returns leaves: the table with the new index first. -/
theorem Index.new_handles {owner : Table} {table : DbHandle} (owned : owner.db = some db)
    (found : sys.engine.handles.dbHandle db = some table)
    (below : db < sys.engine.handles.fresh ∧ ∀ i ∈ table.secondaries, i < sys.engine.handles.fresh)
    (apart : ∀ i ∈ table.secondaries, sys.engine.handles.fileOf i ≠ table.file)
    (inv : StackInv root sys) {faults : Faults} {name : String} {callback : IndexCallback}
    {compare : Option Comparator} {unique : Bool} {index : Index}
    (ok : (Index.new faults owner name callback compare unique sys).1 = .ok index) :
    (Index.new faults owner name callback compare unique sys).2.engine.handles.dbHandle db =
        some { table with secondaries := sys.engine.handles.fresh :: table.secondaries } ∧
      (Index.new faults owner name callback compare unique sys).2.engine.handles.dbHandle
        sys.engine.handles.fresh = some (attachedHandle owner name callback compare unique db) ∧
      (∀ i ∈ table.secondaries,
        (Index.new faults owner name callback compare unique sys).2.engine.handles.dbHandle i =
          sys.engine.handles.dbHandle i) ∧
      (Index.new faults owner name callback compare unique sys).2.engine.handles.fresh =
        sys.engine.handles.fresh + 1 := by
  obtain ⟨-, -, -, primary, primaryFound, handles, -⟩ := Index.new_ok inv ok
  have fresh := below.1.ne
  rw [owned, Option.some_bind, Handles.dbHandle_alloc_of_ne _ fresh, found,
    Option.some_inj] at primaryFound
  subst primaryFound
  simp only [Handles.alloc_fst, owned, Option.getD_some] at handles
  rw [associateHandles_eq (Handles.dbHandle_alloc_of_ne _ fresh _ ▸ found)
    (Handles.dbHandle_alloc_db _ _)] at handles
  refine ⟨?_, ?_, fun i member => ?_, by simp [handles]⟩
  · rw [handles, Handles.dbHandle_set_of_ne _ fresh, Handles.dbHandle_set_db]
  · rw [handles, Handles.dbHandle_set_db]
    rfl
  · have apart' := (below.2 i member).ne
    have notPrimary : i ≠ db := fun same => apart i member (by rw [same, Handles.fileOf_eq found])
    rw [handles, Handles.dbHandle_set_of_ne _ apart', Handles.dbHandle_set_of_ne _ notPrimary,
      Handles.dbHandle_alloc_of_ne _ apart']

/-- An `add_index` that returns ran `index::index` to the end and put the index into `m_indexes`. -/
theorem System.addIndex_ok (inv : StackInv root sys) {faults : Faults} {owner : Table}
    {name : String} {callback : IndexCallback} {compare : Option Comparator} {unique : Bool}
    (owned : sys.database.tables[position]? = some owner)
    (added : (sys.addIndex faults position owner name callback compare unique).1 = .ok ()) :
    ∃ index, (Index.new faults owner name callback compare unique sys).1 = .ok index ∧
      StackInv root (sys.addIndex faults position owner name callback compare unique).2 ∧
      (sys.addIndex faults position owner name callback compare unique).2.database.txns =
        sys.database.txns ∧
      (sys.addIndex faults position owner name callback compare unique).2.database.tables[position]? =
        some { owner with indexes := owner.indexes ++ [index] } := by
  unfold System.addIndex at added ⊢
  cases result : Index.new faults owner name callback compare unique sys with
  | mk outcome next =>
    cases outcome with
    | error error => simp [result] at added
    | ok index =>
      have ok : (Index.new faults owner name callback compare unique sys).1 = .ok index := by
        rw [result]
      obtain ⟨-, kept, database, -⟩ := Index.new_ok inv ok
      simp only [result] at kept database
      refine ⟨index, rfl, kept.congr rfl rfl rfl rfl, by rw [← database], ?_⟩
      simp [database, List.getElem?_set, (List.getElem?_eq_some_iff.mp owned).1]

/-- An `add_index` that returns attaches the new index, whose file mirrors the table. -/
theorem IndexedTable.addIndex (session : IndexedTable root position db sys)
    {faults : Faults} {owner : Table} {name : String} {callback : IndexCallback}
    {compare : Option Comparator} {unique : Bool} {table : DbHandle}
    (owned : sys.database.tables[position]? = some owner)
    (found : sys.engine.handles.dbHandle db = some table)
    (named : some (name ++ ".ix") ∉ table.file :: table.secondaries.map sys.engine.handles.fileOf)
    (attachable : Attachable table (attachedHandle owner name callback compare unique db)
        sys.abstract.current)
    (added : (sys.addIndex faults position owner name callback compare unique).1 = .ok ()) :
    IndexedTable root position db (sys.addIndex faults position owner name callback compare unique).2 := by
  obtain ⟨inv, owner', table', owned', facts⟩ := session
  obtain rfl : owner = owner' := Option.some_inj.mp (owned.symm.trans owned')
  obtain rfl : table = table' := Option.some_inj.mp (found.symm.trans facts.found)
  obtain ⟨index, ok, kept, -, tables⟩ := System.addIndex_ok inv owned added
  obtain ⟨tableFound, attached, others, fresh⟩ :=
    Index.new_handles facts.owned found facts.below facts.layout.apart inv ok
  obtain ⟨rfl, -, -, primary, primaryFound, -, current⟩ := Index.new_ok inv ok
  rw [facts.owned, Option.some_bind, Handles.dbHandle_alloc_of_ne _ facts.below.1.ne, found,
    Option.some_inj] at primaryFound
  subst primaryFound
  have engine := System.addIndex_engine sys faults position owner name callback compare unique
  have separates : Separates (Comparator.orDefault owner.callback) :=
    facts.compare ▸ facts.layout.separates
  have opened := openFile_records (name ++ ".ix") true false sys.abstract.current
  have mirrors := Attachable.associate (by simpa only [Attachable, opened] using attachable)
    facts.layout.separates (indexHandle_dupSeparates name compare _ unique separates)
    ((opened table).symm ▸ facts.indexed.keyed) rfl
  rw [opened, ← current, ← System.addIndex_current] at mirrors
  have records : ∀ handle : DbHandle, handle.file ≠ some (name ++ ".ix") →
      (sys.addIndex faults position owner name callback compare unique).2.abstract.current.records
        handle = sys.abstract.current.records handle := fun handle different => by
    rw [System.addIndex_current]
    exact Index.new_records inv ok different
  rw [← engine] at tableFound attached others fresh
  refine ⟨kept, _, { table with secondaries := sys.engine.handles.fresh :: table.secondaries },
    tables, facts.owned, tableFound, facts.compare, fun index member => ?_, ?_,
    facts.layout.attach others attached rfl
      (indexHandle_dupSeparates name compare _ unique separates) named,
    facts.indexed.attach others attached records named mirrors⟩
  · rcases List.mem_append.mp member with member | member
    · obtain ⟨i, mem, is⟩ := facts.attached index member
      exact ⟨i, List.mem_cons_of_mem _ mem, is⟩
    · exact ⟨_, List.mem_cons_self _ _, List.mem_singleton.mp member ▸ rfl⟩
  · exact fresh ▸ below_cons facts.below

end Steps

end Bdb
