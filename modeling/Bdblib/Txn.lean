import Mathlib.Logic.Function.Basic
import Bdblib.Basic

/-!
# Engine transactions

Berkeley DB transactions nest. `txn_begin` takes a parent; a write is recorded in the
transaction it is issued under; committing a child merges its writes into its parent; aborting
discards them; committing a top-level transaction makes its writes durable. The store `σ` is
arbitrary here, and a write is its effect on the store, replayed in the order it was issued.
After `commit` or `abort`, whatever they return, the handle is gone.
-/

namespace Bdb

/-- Apply writes to a store, oldest first. -/
def replay {σ : Type} (writes : List (σ → σ)) (store : σ) : σ :=
  writes.foldl (fun current write => write current) store

@[simp]
theorem replay_nil {σ : Type} (store : σ) : replay [] store = store := rfl

@[simp]
theorem replay_append {σ : Type} (left right : List (σ → σ)) (store : σ) :
    replay (left ++ right) store = replay right (replay left store) :=
  List.foldl_append _ _ _ _

@[simp]
theorem replay_singleton {σ : Type} (write : σ → σ) (store : σ) :
    replay [write] store = write store := rfl

/-- A live engine transaction (`DB_TXN`). -/
structure TxnRecord (σ : Type) where
  /-- The parent transaction, `none` for a top-level one. -/
  parent : Option Nat
  /-- Writes issued under it or merged from its committed children, oldest first. -/
  writes : List (σ → σ)

/-- How a transaction was finalized. -/
inductive Outcome where
  /-- By a successful `commit`. -/
  | committed
  /-- By `abort`, or by a failed `commit`. -/
  | aborted
  deriving DecidableEq, Repr

/-- The engine's transaction subsystem. -/
structure TxnTable (σ : Type) where
  /-- The committed store. -/
  durable : σ
  /-- Live transactions by handle. -/
  live : Nat → Option (TxnRecord σ)
  /-- The next handle `txn_begin` hands out. -/
  fresh : Nat
  /-- Finalized transactions and how, most recent first. -/
  finalized : List (Nat × Outcome)

/-- What the engine answers to `txn_begin`. -/
inductive BeginAnswer where
  /-- Success, with a new handle. -/
  | ok
  /-- An error, with no handle. -/
  | fail (code : DbError)
  /-- An error, with a handle created before the error was detected. -/
  | failAfterCreate (code : DbError)

namespace TxnTable

variable {σ α : Type} (table : TxnTable σ)

/-- A transaction subsystem with nothing live or finalized. -/
def empty (store : σ) : TxnTable σ := ⟨store, fun _ => none, 0, []⟩

/-- The store as seen under a transaction, following at most `fuel` parent links. -/
def viewAt : Nat → Option Nat → σ
  | _, none => table.durable
  | 0, some _ => table.durable
  | fuel + 1, some txn =>
    match table.live txn with
    | none => table.durable
    | some record => replay record.writes (viewAt fuel record.parent)

/-- The store as `txn` sees it (`NULL` sees the committed one), through at most `fresh` parents. -/
def view (txn : Option Nat) : σ := table.viewAt table.fresh txn

/-- A new live transaction under `parent`. -/
def create (parent : Option Nat) : Nat × TxnTable σ :=
  (table.fresh,
    { table with
      live := Function.update table.live table.fresh (some ⟨parent, []⟩)
      fresh := table.fresh + 1 })

/-- `DB_ENV->txn_begin`: the new handle, or the error and the handle written to `*tid`. -/
def txnBegin (parent : Option Nat) : BeginAnswer → Except (DbError × Option Nat) Nat × TxnTable σ
  | .ok => (.ok (table.create parent).1, (table.create parent).2)
  | .fail code => (.error (code, none), table)
  | .failAfterCreate code =>
    (.error (code, some (table.create parent).1), (table.create parent).2)

/-- Append writes to a live transaction; nothing happens to a handle that is not live. -/
def record (txn : Nat) (writes : List (σ → σ)) : TxnTable σ :=
  { table with
    live := Function.update table.live txn
      ((table.live txn).map fun entry => { entry with writes := entry.writes ++ writes }) }

/-- Free a handle and log its outcome. -/
def finalize (txn : Nat) (outcome : Outcome) : TxnTable σ :=
  { table with
    live := Function.update table.live txn none
    finalized := (txn, outcome) :: table.finalized }

/-- Where a committed transaction's writes go: into its parent, or into the durable store. -/
def merge (record : TxnRecord σ) : TxnTable σ :=
  match record.parent with
  | none => { table with durable := replay record.writes table.durable }
  | some parent => table.record parent record.writes

/-- `DB_TXN->commit`, aborting instead when the engine reports `fault`; a dead handle is refused. -/
def commit (txn : Option Nat) (fault : Option DbError) : Option DbError × TxnTable σ :=
  match txn.bind table.live, txn, fault with
  | some record, some handle, none => (none, (table.merge record).finalize handle .committed)
  | some _, some handle, some code => (some code, table.finalize handle .aborted)
  | _, _, _ => (some .einval, table)

/-- `DB_TXN->abort`, which frees the handle whatever it returns. -/
def abort (txn : Option Nat) (fault : Option DbError) : Option DbError × TxnTable σ :=
  match txn.bind table.live, txn with
  | some _, some handle => (fault, table.finalize handle .aborted)
  | _, _ => (some .einval, table)

/-- An engine operation under `txn`: it reads the store `txn` sees and records its effect there. -/
def perform (txn : Option Nat) (operation : σ → α × σ) : α × TxnTable σ :=
  match txn with
  | none => ((operation table.durable).1, { table with durable := (operation table.durable).2 })
  | some handle =>
    ((operation (table.view txn)).1, table.record handle [fun store => (operation store).2])

/-- The parent of a live transaction. -/
def parentOf (txn : Nat) : Option (Option Nat) := (table.live txn).map TxnRecord.parent

/-! ## What each call does to parents, handles and the log -/

@[simp]
theorem create_fst (parent : Option Nat) : (table.create parent).1 = table.fresh := rfl

@[simp]
theorem create_fresh (parent : Option Nat) :
    (table.create parent).2.fresh = table.fresh + 1 := rfl

@[simp]
theorem create_finalized (parent : Option Nat) :
    (table.create parent).2.finalized = table.finalized := rfl

@[simp]
theorem create_parentOf (parent : Option Nat) :
    (table.create parent).2.parentOf =
      Function.update table.parentOf table.fresh (some parent) := by
  funext txn
  by_cases here : txn = table.fresh
  · subst here; simp [parentOf, create]
  · simp [parentOf, create, here]

@[simp]
theorem create_durable (parent : Option Nat) :
    (table.create parent).2.durable = table.durable := rfl

@[simp]
theorem record_durable (txn : Nat) (writes : List (σ → σ)) :
    (table.record txn writes).durable = table.durable := rfl

@[simp]
theorem finalize_durable (txn : Nat) (outcome : Outcome) :
    (table.finalize txn outcome).durable = table.durable := rfl

@[simp]
theorem record_fresh (txn : Nat) (writes : List (σ → σ)) :
    (table.record txn writes).fresh = table.fresh := rfl

@[simp]
theorem record_finalized (txn : Nat) (writes : List (σ → σ)) :
    (table.record txn writes).finalized = table.finalized := rfl

@[simp]
theorem record_parentOf (txn : Nat) (writes : List (σ → σ)) :
    (table.record txn writes).parentOf = table.parentOf := by
  funext other
  by_cases here : other = txn
  · subst here
    simp only [parentOf, record, Function.update_same, Option.map_map]
    rfl
  · simp [parentOf, record, here]

@[simp]
theorem finalize_fresh (txn : Nat) (outcome : Outcome) :
    (table.finalize txn outcome).fresh = table.fresh := rfl

@[simp]
theorem finalize_finalized (txn : Nat) (outcome : Outcome) :
    (table.finalize txn outcome).finalized = (txn, outcome) :: table.finalized := rfl

@[simp]
theorem finalize_parentOf (txn : Nat) (outcome : Outcome) :
    (table.finalize txn outcome).parentOf = Function.update table.parentOf txn none := by
  funext other
  by_cases here : other = txn
  · subst here; simp [parentOf, finalize]
  · simp [parentOf, finalize, here]

@[simp]
theorem merge_fresh (record : TxnRecord σ) : (table.merge record).fresh = table.fresh := by
  unfold merge; split <;> rfl

@[simp]
theorem merge_finalized (record : TxnRecord σ) :
    (table.merge record).finalized = table.finalized := by
  unfold merge; split <;> rfl

@[simp]
theorem merge_parentOf (record : TxnRecord σ) :
    (table.merge record).parentOf = table.parentOf := by
  unfold merge
  split
  · rfl
  · simp

theorem parentOf_eq_none {txn : Nat} : table.parentOf txn = none ↔ table.live txn = none := by
  simp [parentOf]

theorem commit_live {txn : Nat} {record : TxnRecord σ} (live : table.live txn = some record)
    (fault : Option DbError) :
    (table.commit (some txn) fault).2.parentOf = Function.update table.parentOf txn none ∧
      (table.commit (some txn) fault).2.fresh = table.fresh ∧
      (table.commit (some txn) fault).2.finalized =
        (txn, if fault.isNone then .committed else .aborted) :: table.finalized := by
  cases fault <;> simp [commit, live]

theorem commit_topLevel {txn : Nat} {record : TxnRecord σ} (live : table.live txn = some record)
    (topLevel : record.parent = none) :
    (table.commit (some txn) none).2.durable = replay record.writes table.durable := by
  simp [commit, live, merge, topLevel]

theorem abort_live {txn : Nat} {record : TxnRecord σ} (live : table.live txn = some record)
    (fault : Option DbError) :
    table.abort (some txn) fault = (fault, table.finalize txn .aborted) := by
  simp [abort, live]

@[simp]
theorem perform_fresh {α : Type} (txn : Option Nat) (operation : σ → α × σ) :
    (table.perform txn operation).2.fresh = table.fresh := by
  cases txn <;> rfl

@[simp]
theorem perform_finalized {α : Type} (txn : Option Nat) (operation : σ → α × σ) :
    (table.perform txn operation).2.finalized = table.finalized := by
  cases txn <;> rfl

@[simp]
theorem perform_parentOf {α : Type} (txn : Option Nat) (operation : σ → α × σ) :
    (table.perform txn operation).2.parentOf = table.parentOf := by
  cases txn
  · rfl
  · simp [perform]

/-- Every handle handed out so far is live or finalized, and not both. -/
structure Accounted : Prop where
  /-- A handle is live exactly when it was handed out and not finalized. -/
  live_iff : ∀ txn,
    (table.parentOf txn).isSome ↔ txn < table.fresh ∧ txn ∉ table.finalized.map Prod.fst
  /-- Only handed-out handles are finalized. -/
  finalized_lt : ∀ txn ∈ table.finalized.map Prod.fst, txn < table.fresh

theorem accounted_empty (store : σ) : (empty store).Accounted :=
  ⟨fun _ => by simp [empty, parentOf], by simp [empty]⟩

theorem Accounted.congr {table other : TxnTable σ} (accounted : table.Accounted)
    (parents : other.parentOf = table.parentOf) (fresh : other.fresh = table.fresh)
    (finalized : other.finalized = table.finalized) : other.Accounted := by
  constructor <;> simp only [parents, fresh, finalized]
  exacts [accounted.live_iff, accounted.finalized_lt]

theorem Accounted.fresh_not_live {table : TxnTable σ} (accounted : table.Accounted) :
    table.parentOf table.fresh = none := by
  simpa using mt (accounted.live_iff table.fresh).mp (by simp)

theorem Accounted.create {table : TxnTable σ} (accounted : table.Accounted)
    (parent : Option Nat) : (table.create parent).2.Accounted := by
  constructor
  · intro txn
    by_cases here : txn = table.fresh
    · subst here
      simpa using fun finalized => Nat.lt_irrefl _ (accounted.finalized_lt _ finalized)
    · simp only [create_parentOf, Function.update_noteq here, accounted.live_iff,
        create_fresh, create_finalized]
      exact and_congr_left fun _ => ⟨fun lt => by omega, fun lt => by omega⟩
  · intro txn finalized
    simpa using Nat.lt_succ_of_lt (accounted.finalized_lt txn (by simpa using finalized))

theorem Accounted.finalize {table : TxnTable σ} (accounted : table.Accounted) {txn : Nat}
    (live : (table.parentOf txn).isSome) (outcome : Outcome) :
    (table.finalize txn outcome).Accounted := by
  have handed := ((accounted.live_iff txn).mp live).1
  constructor
  · intro other
    by_cases here : other = txn
    · subst here; simp
    · simp [Function.update_noteq here, accounted.live_iff, here]
  · intro other finalized
    simp only [finalize_finalized, List.map_cons, List.mem_cons] at finalized
    rcases finalized with rfl | finalized
    · exact handed
    · exact accounted.finalized_lt other finalized

end TxnTable

end Bdb
