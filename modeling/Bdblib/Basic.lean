import Mathlib.Order.Defs.LinearOrder

/-!
# Bytes, comparators and error codes

The library stores Protocol Buffers messages as serialized bytes (`DBT`s). Sort orders are
given by application comparators over those bytes, secondary keys by index callbacks, and
foreign-key nullification by nullify callbacks. Engine calls return `0` or an error code, and
the library turns error codes into the four codes of `bdb::exception`. Without an application
comparator the engine sorts bytes lexicographically.
-/

namespace Bdb

/-- The bytes of a `DBT`: a serialized key or data item. -/
abbrev Bytes := List UInt8

/-- A Protocol Buffers message type, as `SerializeToString` and `ParseFromString` use it. -/
structure Codec (Message : Type) where
  /-- The bytes of a message. -/
  serialize : Message → Bytes
  /-- The message read back from bytes. -/
  parse : Bytes → Message

/-- Bytes stored as they are. -/
def Codec.bytes : Codec Bytes := ⟨id, id⟩

/-- A key comparison function (`compare_callback`), a total preorder as the engine requires. -/
structure Comparator where
  /-- Three-way comparison of two serialized keys. -/
  compare : Bytes → Bytes → Ordering
  /-- The comparison is antisymmetric and transitive. -/
  trans : Batteries.TransCmp compare

attribute [instance] Comparator.trans

/-- Berkeley DB's default B-tree order (`__bam_defcmp`): bytewise, then the shorter item first. -/
def defaultCompare : Bytes → Bytes → Ordering
  | [], [] => .eq
  | [], _ :: _ => .lt
  | _ :: _, [] => .gt
  | a :: rest, b :: rest' => (instOrdNat.compare a.toNat b.toNat).then (defaultCompare rest rest')

theorem compare_then_eq {p q : Nat} {rest : Ordering} :
    (instOrdNat.compare p q).then rest =
      if p < q then .lt else if p = q then rest else .gt := by
  rcases Nat.lt_trichotomy p q with lt | rfl | gt
  · simp [Ordering.then, Nat.compare_eq_lt.mpr lt, lt]
  · simp [Ordering.then, Nat.compare_eq_eq.mpr rfl]
  · simp [Ordering.then, Nat.compare_eq_gt.mpr gt, Nat.not_lt.mpr (Nat.le_of_lt gt), Nat.ne_of_gt gt]

theorem defaultCompare_swap (x y : Bytes) : (defaultCompare x y).swap = defaultCompare y x := by
  induction x generalizing y with
  | nil => cases y <;> rfl
  | cons a rest ih =>
    cases y with
    | nil => rfl
    | cons b rest' =>
      simp only [defaultCompare, compare_then_eq]
      rcases Nat.lt_trichotomy a.toNat b.toNat with lt | eq | gt
      · simp [lt, Nat.not_lt.mpr (Nat.le_of_lt lt), Nat.ne_of_gt lt, Ordering.swap]
      · simp [eq, ih]
      · simp [gt, Nat.not_lt.mpr (Nat.le_of_lt gt), Nat.ne_of_gt gt, Ordering.swap]

theorem defaultCompare_le_trans {x y z : Bytes} (first : defaultCompare x y ≠ .gt)
    (second : defaultCompare y z ≠ .gt) : defaultCompare x z ≠ .gt := by
  induction x generalizing y z with
  | nil => cases z <;> simp [defaultCompare]
  | cons a rest ih =>
    cases y with
    | nil => simp [defaultCompare] at first
    | cons b rest' =>
      cases z with
      | nil => simp [defaultCompare] at second
      | cons c rest'' =>
        simp only [defaultCompare, compare_then_eq] at *
        split_ifs at first second ⊢ <;>
          first | exact absurd rfl first | exact absurd rfl second | (exfalso; omega) | decide |
            exact ih first second

instance : Batteries.TransCmp defaultCompare where
  symm := defaultCompare_swap
  le_trans := defaultCompare_le_trans

/-- The engine's comparison where the application gives none. -/
def Comparator.default : Comparator := ⟨defaultCompare, inferInstance⟩

/-- The comparison of a configured comparator, or the engine's default. -/
def Comparator.orDefault (comparator : Option Comparator) : Bytes → Bytes → Ordering :=
  (comparator.getD .default).compare

/-- An `index_callback`: the secondary key of a record, or `none` for `DB_DONOTINDEX`. -/
abbrev IndexCallback := Bytes → Bytes → Option Bytes

/-- A `nullify_callback`: the record's new data and the `changed` flag, or the code it returns. -/
abbrev NullifyCallback := Bytes → Bytes → Bytes → Except Int (Bytes × Bool)

/-- Nonzero return codes of engine calls. -/
inductive DbError where
  /-- `DB_NOTFOUND`. -/
  | notFound
  /-- `DB_KEYEXIST`. -/
  | keyExist
  /-- `DB_FOREIGN_CONFLICT`. -/
  | foreignConflict
  /-- `EINVAL`. -/
  | einval
  /-- `ENOENT`. -/
  | enoent
  /-- `EEXIST`. -/
  | eexist
  /-- Any other code, such as a deadlock or an allocation failure. -/
  | other (errno : Int)
  deriving DecidableEq, Repr

/-- The deadlock code of the engine, `DB_LOCK_DEADLOCK`. -/
def lockDeadlock : DbError := .other (-30994)

/-- The engine's answers to the calls of one function, numbered from `0`: `some code` fails. -/
abbrev Faults := Nat → Option DbError

/-- The error codes of `bdb::exception` (`BDB_ERROR_*`). -/
inductive Exception where
  /-- `BDB_ERROR_UNKNOWN`. -/
  | unknown
  /-- `BDB_ERROR_NOT_FOUND`. -/
  | notFound
  /-- `BDB_ERROR_EXISTS`. -/
  | exists
  /-- `BDB_ERROR_FOREIGN_KEY`. -/
  | foreignKey
  deriving DecidableEq, Repr

/-- How the constructors translate codes: `ENOENT` is not found, `EEXIST` exists, others unknown. -/
def openError : DbError → Exception
  | .enoent => .notFound
  | .eexist => .exists
  | _ => .unknown

end Bdb
