import Mathlib.Data.List.Basic
import Bdblib.Basic

/-!
# Records of an engine database

A B-tree database of the engine holds its records in the order of its comparator. Here the
records are a list in that order. A database without duplicates holds at most one record per
key class of its comparator: `DB->put` overwrites the data of an equal key and `DB->del` removes
it. With sorted duplicates (`DB_DUPSORT`), as in a non-unique index, a key holds several records,
ordered by a second comparator on their data. Lookups go by comparator classes, so under a
comparator that is a total preorder the records without duplicates behave as a finite map from
key classes to data.
-/

namespace Bdb

/-- The records of an engine database, in B-tree order: key and data. -/
abbrev Records := List (Bytes × Bytes)

namespace Records

variable (order : Bytes → Bytes → Ordering)

/-- The first record whose key compares equal to `key` (`DB_SET`). -/
def find (key : Bytes) (records : Records) : Option (Bytes × Bytes) :=
  records.find? fun record => order key record.1 = .eq

/-- The data under a key (`DB->get`). -/
def lookup (key : Bytes) (records : Records) : Option Bytes :=
  (find order key records).map Prod.snd

/-- Insert `record` after the records that do not sort after it, as `DB_KEYLAST` does. -/
def insertBy (cmp : Bytes × Bytes → Bytes × Bytes → Ordering) (record : Bytes × Bytes) :
    Records → Records
  | [] => [record]
  | head :: rest =>
    if cmp record head = .lt then record :: head :: rest else head :: insertBy cmp record rest

/-- `DB->put` without duplicates: overwrite the data of an equal key, or insert a record. -/
def put (key data : Bytes) (records : Records) : Records :=
  if (find order key records).isSome then
    records.map fun record => if order key record.1 = .eq then (record.1, data) else record
  else insertBy (fun one other => order one.1 other.1) (key, data) records

/-- `DB->del` of a key: every record of an equal key goes. -/
def erase (key : Bytes) (records : Records) : Records :=
  records.filter fun record => order key record.1 ≠ .eq

/-- The order of sorted duplicates: by key, then by data under `dupOrder`. -/
def pairOrder (dupOrder : Bytes → Bytes → Ordering) (one other : Bytes × Bytes) : Ordering :=
  (order one.1 other.1).then (dupOrder one.2 other.2)

/-- `DB->put` of a sorted duplicate; `none` when an equal pair is there (`DB_KEYEXIST`). -/
def putDup (dupOrder : Bytes → Bytes → Ordering) (key data : Bytes) (records : Records) :
    Option Records :=
  if records.any fun record => order key record.1 = .eq ∧ dupOrder data record.2 = .eq then none
  else some (insertBy (pairOrder order dupOrder) (key, data) records)

/-- Remove the records of an equal key whose data is equal (`DB_GET_BOTH`, then `DBC->del`). -/
def erasePair (dupOrder : Bytes → Bytes → Ordering) (key data : Bytes) (records : Records) :
    Records :=
  records.filter fun record => ¬(order key record.1 = .eq ∧ dupOrder data record.2 = .eq)

/-- The records of an equal key, in order (a duplicate set, `DB_SET` then `DB_NEXT_DUP`). -/
def dups (key : Bytes) (records : Records) : Records :=
  records.filter fun record => order key record.1 = .eq

/-! ## Insertion -/

theorem insertBy_eq_take_drop (cmp : Bytes × Bytes → Bytes × Bytes → Ordering)
    (record : Bytes × Bytes) (records : Records) :
    ∃ position, insertBy cmp record records =
      records.take position ++ record :: records.drop position := by
  induction records with
  | nil => exact ⟨0, rfl⟩
  | cons head rest ih =>
    by_cases before : cmp record head = .lt
    · exact ⟨0, by simp [insertBy, before]⟩
    · obtain ⟨position, inserted⟩ := ih
      exact ⟨position + 1, by simp [insertBy, before, inserted]⟩

theorem find?_insertBy_of_not {test : Bytes × Bytes → Bool} {record : Bytes × Bytes}
    (rejected : test record = false) (cmp : Bytes × Bytes → Bytes × Bytes → Ordering)
    (records : Records) : (insertBy cmp record records).find? test = records.find? test := by
  obtain ⟨position, inserted⟩ := insertBy_eq_take_drop cmp record records
  conv_rhs => rw [← List.take_append_drop position records]
  rw [inserted, List.find?_append, List.find?_append, List.find?_cons_of_neg _ (by simp [rejected])]

theorem find?_insertBy_of_none {test : Bytes × Bytes → Bool} {record : Bytes × Bytes}
    (accepted : test record = true) (cmp : Bytes × Bytes → Bytes × Bytes → Ordering)
    {records : Records} (none : records.find? test = none) :
    (insertBy cmp record records).find? test = some record := by
  obtain ⟨position, inserted⟩ := insertBy_eq_take_drop cmp record records
  have : ∀ entry ∈ records, test entry = false := by simpa using none
  rw [inserted, List.find?_append, List.find?_eq_none.mpr fun entry member =>
    by simpa using this entry (List.mem_of_mem_take member)]
  simp [accepted]

theorem mem_insertBy (cmp : Bytes × Bytes → Bytes × Bytes → Ordering) (record entry : Bytes × Bytes)
    (records : Records) : entry ∈ insertBy cmp record records ↔ entry = record ∨ entry ∈ records := by
  obtain ⟨position, inserted⟩ := insertBy_eq_take_drop cmp record records
  conv_rhs => rw [← List.take_append_drop position records]
  rw [inserted]
  simp only [List.mem_append, List.mem_cons]
  tauto

theorem find_map {f : Bytes × Bytes → Bytes × Bytes} (keeps : ∀ record, (f record).1 = record.1)
    (key : Bytes) (records : Records) :
    find order key (records.map f) = (find order key records).map f := by
  simp only [find, List.find?_map]
  congr 2
  funext record
  simp [keeps]

theorem find_isSome_iff {key : Bytes} {records : Records} :
    (find order key records).isSome ↔ ∃ record ∈ records, order key record.1 = .eq := by
  simp [find, List.find?_isSome]

theorem find_eq_some {key : Bytes} {records : Records} {record : Bytes × Bytes}
    (found : find order key records = some record) : order key record.1 = .eq := by
  simpa using List.find?_some found

/-! ## Without duplicates, a finite map from key classes -/

section Map

variable [Batteries.TransCmp order]

theorem find_congr {key key' : Bytes} (equal : order key' key = .eq) (records : Records) :
    find order key' records = find order key records := by
  simp only [find, Batteries.TransCmp.cmp_congr_left equal]

theorem lookup_put (key key' data : Bytes) (records : Records) :
    lookup order key' (put order key data records) =
      if order key' key = .eq then some data else lookup order key' records := by
  unfold put lookup
  by_cases present : (find order key records).isSome
  · rw [if_pos present, find_map order (fun record => by split <;> rfl)]
    by_cases equal : order key' key = .eq
    · obtain ⟨found, hfound⟩ := Option.isSome_iff_exists.mp present
      simp [find_congr order equal, hfound, find_eq_some order hfound, equal]
    · cases hfound : find order key' records with
      | none => simp [equal]
      | some found =>
        have other : order key found.1 ≠ .eq := fun same => equal
          ((Batteries.TransCmp.cmp_congr_right same).trans (find_eq_some order hfound))
        simp [equal, other]
  · rw [if_neg present]
    by_cases equal : order key' key = .eq
    · have none : find order key' records = none := by
        rw [find_congr order equal]; simpa using present
      simp only [find] at none ⊢
      rw [find?_insertBy_of_none (by simp [equal]) _ none, if_pos equal]
      rfl
    · simp only [find]
      rw [find?_insertBy_of_not (by simp [equal]), if_neg equal]

theorem lookup_erase (key key' : Bytes) (records : Records) :
    lookup order key' (erase order key records) =
      if order key' key = .eq then none else lookup order key' records := by
  simp only [lookup, find, erase, List.find?_filter]
  split
  · next equal =>
    rw [List.find?_eq_none.mpr fun record _ => by
      simp [Batteries.TransCmp.cmp_congr_left equal]]
    rfl
  · next different =>
    congr 2
    funext record
    by_cases found : order key' record.1 = .eq
    · have : order key record.1 ≠ .eq := fun same => different
        ((Batteries.TransCmp.cmp_congr_right same).trans found)
      simp [found, this]
    · simp [found]

end Map

end Records

end Bdb
