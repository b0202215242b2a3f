import Mathlib.Data.List.Sort
import Bdblib.Database

/-!
# The transaction stack

`m_txns` is a chain of live engine transactions: each is the child of the one below it and the
bottom is the top-level transaction the constructor began. Every call keeps this, on its
engine-failure paths too: `commit_transaction` and `rollback_transaction` pop before they
finalize, and `begin_transaction` aborts a handle that the engine hands back with an error.
The destructor's loop then aborts the nested transactions, each child before its parent, and
commits the top-level one.
-/

namespace Bdb

/-- `txns` is a chain under `parentOf`: each a child of the next; the last is top-level. -/
inductive Chain (parentOf : Nat → Option (Option Nat)) : List Nat → Prop where
  | root {txn : Nat} : parentOf txn = some none → Chain parentOf [txn]
  | child {txn parent : Nat} {rest : List Nat} : parentOf txn = some (some parent) →
      parent < txn → Chain parentOf (parent :: rest) → Chain parentOf (txn :: parent :: rest)

namespace Chain

variable {parentOf : Nat → Option (Option Nat)} {txns : List Nat}

theorem ne_nil (chain : Chain parentOf txns) : txns ≠ [] := by
  cases chain <;> simp

theorem sorted (chain : Chain parentOf txns) : txns.Sorted (· > ·) := by
  induction chain with
  | root => simp
  | child _ below _ induction =>
    refine List.sorted_cons.mpr ⟨fun other member => ?_, induction⟩
    rcases List.mem_cons.mp member with rfl | member
    · exact below
    · exact lt_trans (List.rel_of_sorted_cons induction other member) below

theorem live (chain : Chain parentOf txns) : ∀ txn ∈ txns, (parentOf txn).isSome := by
  induction chain with
  | root found => simp [found]
  | child found _ _ induction =>
    intro txn member
    rcases List.mem_cons.mp member with rfl | member
    · simp [found]
    · exact induction txn member

theorem congr {other : Nat → Option (Option Nat)} (chain : Chain parentOf txns)
    (agree : ∀ txn ∈ txns, other txn = parentOf txn) : Chain other txns := by
  induction chain with
  | root found => exact .root ((agree _ (by simp)).trans found)
  | child found below _ induction =>
    exact .child ((agree _ (by simp)).trans found) below
      (induction fun txn member => agree txn (List.mem_cons_of_mem _ member))

theorem tail {txn parent : Nat} {rest : List Nat}
    (chain : Chain parentOf (txn :: parent :: rest)) : Chain parentOf (parent :: rest) := by
  cases chain
  assumption

theorem last_root {root : Nat} (chain : Chain parentOf txns) (bottom : txns.getLast? = some root) :
    parentOf root = some none := by
  induction chain with
  | root found => simp_all
  | child _ _ _ induction => exact induction (by simpa [List.getLast?_cons] using bottom)

theorem top_not_mem_tail {txn : Nat} {rest : List Nat} (chain : Chain parentOf (txn :: rest)) :
    txn ∉ rest := fun member =>
  Nat.lt_irrefl txn (List.rel_of_sorted_cons chain.sorted txn member)

end Chain

variable {σ : Type}

/-- What `database` keeps of `m_txns`; `root` is the top-level transaction its constructor began. -/
structure StackInv (root : Nat) (sys : System σ) : Prop where
  /-- Each transaction of `m_txns` is the child of the one below it. -/
  chain : Chain sys.engine.txn.parentOf sys.database.txns
  /-- The live transactions are exactly those of `m_txns`. -/
  live_iff : ∀ txn, (sys.engine.txn.parentOf txn).isSome ↔ txn ∈ sys.database.txns
  /-- The bottom of `m_txns` is the constructor's transaction. -/
  bottom : sys.database.txns.getLast? = some root
  /-- Every handle the engine handed out is live or finalized. -/
  accounted : sys.engine.txn.Accounted

namespace StackInv

variable {root : Nat} {sys : System σ}

theorem congr (inv : StackInv root sys) {other : System σ}
    (txns : other.database.txns = sys.database.txns)
    (parents : other.engine.txn.parentOf = sys.engine.txn.parentOf)
    (fresh : other.engine.txn.fresh = sys.engine.txn.fresh)
    (finalized : other.engine.txn.finalized = sys.engine.txn.finalized) :
    StackInv root other where
  chain := by rw [txns, parents]; exact inv.chain
  live_iff := by rw [txns, parents]; exact inv.live_iff
  bottom := by rw [txns]; exact inv.bottom
  accounted := inv.accounted.congr parents fresh finalized

theorem top_live (inv : StackInv root sys) :
    ∃ txn, sys.database.txns.head? = some txn ∧ (sys.engine.txn.parentOf txn).isSome := by
  obtain ⟨top, rest, stack⟩ := List.exists_cons_of_ne_nil inv.chain.ne_nil
  exact ⟨top, by simp [stack], (inv.live_iff top).mpr (by simp [stack])⟩

theorem lt_fresh (inv : StackInv root sys) {txn : Nat} (member : txn ∈ sys.database.txns) :
    txn < sys.engine.txn.fresh :=
  ((inv.accounted.live_iff txn).mp ((inv.live_iff txn).mpr member)).1

theorem live_of_mem (inv : StackInv root sys) {txn : Nat} (member : txn ∈ sys.database.txns) :
    ∃ record, sys.engine.txn.live txn = some record :=
  Option.isSome_iff_exists.mp (Option.isSome_map.symm.trans ((inv.live_iff txn).mpr member))

theorem exists_nested (inv : StackInv root sys) (nested : sys.database.txns.length ≠ 1) :
    ∃ top below rest, sys.database.txns = top :: below :: rest := by
  rcases List.exists_cons_of_ne_nil inv.chain.ne_nil with ⟨top, tail, stack⟩
  rcases List.exists_cons_of_ne_nil (show tail ≠ [] by rintro rfl; simp [stack] at nested) with
    ⟨below, rest, rfl⟩
  exact ⟨top, below, rest, stack⟩

theorem beginTransaction (inv : StackInv root sys) (answer : BeginAnswer) :
    StackInv root (sys.beginTransaction answer).2 := by
  have unborn := inv.accounted.fresh_not_live
  cases answer with
  | ok =>
    obtain ⟨top, rest, stack⟩ := List.exists_cons_of_ne_nil inv.chain.ne_nil
    have older : ∀ txn ∈ sys.database.txns, txn ≠ sys.engine.txn.fresh :=
      fun txn member => Nat.ne_of_lt (inv.lt_fresh member)
    constructor
    · simp only [System.beginTransaction_ok, TxnTable.create_parentOf, stack, List.head?_cons]
      refine .child (by simp) (inv.lt_fresh (by simp [stack])) ?_
      rw [← stack]
      exact inv.chain.congr fun txn member => Function.update_noteq (older txn member) _ _
    · intro txn
      by_cases here : txn = sys.engine.txn.fresh
      · subst here; simp
      · simp [Function.update_noteq here, inv.live_iff, here]
    · simpa [stack, List.getLast?_cons] using inv.bottom
    · exact inv.accounted.create _
  | fail code => simpa using inv
  | failAfterCreate code =>
    have created : (sys.engine.txn.create sys.database.txns.head?).2.live
        sys.engine.txn.fresh = some ⟨sys.database.txns.head?, []⟩ := by
      simp [TxnTable.create]
    have accounted := (inv.accounted.create sys.database.txns.head?).finalize
      (show ((sys.engine.txn.create _).2.parentOf sys.engine.txn.fresh).isSome by simp) .aborted
    have parents : Function.update sys.engine.txn.parentOf sys.engine.txn.fresh none =
        sys.engine.txn.parentOf := Function.update_eq_self_iff.mpr unborn.symm
    constructor <;>
      simp only [System.beginTransaction_failAfterCreate, TxnTable.abort_live _ created,
        TxnTable.finalize_parentOf, TxnTable.create_parentOf, Function.update_idem, parents]
    exacts [inv.chain, inv.live_iff, inv.bottom, accounted]

/-- `commit_transaction` and `rollback_transaction` keep the invariant. -/
theorem popTransaction (inv : StackInv root sys)
    (finish : TxnTable σ → Option DbError × TxnTable σ)
    (finishes : ∀ top, sys.database.txns.head? = some top →
      (finish sys.engine.txn).2.parentOf = Function.update sys.engine.txn.parentOf top none ∧
      (finish sys.engine.txn).2.fresh = sys.engine.txn.fresh ∧
      ∃ outcome, (finish sys.engine.txn).2.finalized = (top, outcome) :: sys.engine.txn.finalized) :
    StackInv root (sys.popTransaction finish).2 := by
  by_cases single : sys.database.txns.length = 1
  · rwa [sys.popTransaction_single finish single]
  rw [sys.popTransaction_pop finish single]
  obtain ⟨top, below, rest, stack⟩ := inv.exists_nested single
  obtain ⟨parents, fresh, outcome, finalized⟩ := finishes top (by simp [stack])
  have chain := inv.chain
  rw [stack] at chain
  have live := (inv.live_iff top).mpr (by simp [stack])
  have above := chain.top_not_mem_tail
  constructor <;> simp only [stack, List.tail_cons, parents]
  · exact chain.tail.congr fun txn member =>
      Function.update_noteq (by rintro rfl; exact above member) _ _
  · intro txn
    by_cases here : txn = top
    · subst here; simpa using above
    · simp [Function.update_noteq here, inv.live_iff, stack, here]
  · simpa [stack, List.getLast?_cons] using inv.bottom
  · exact (inv.accounted.finalize live outcome).congr (by simp [parents]) fresh (by simp [finalized])

theorem commitTransaction (inv : StackInv root sys) (fault : Option DbError) :
    StackInv root (sys.commitTransaction fault).2 :=
  inv.popTransaction _ fun top stack => by
    obtain ⟨record, live⟩ := inv.live_of_mem (List.mem_of_mem_head? stack)
    obtain ⟨parents, fresh, finalized⟩ := sys.engine.txn.commit_live live fault
    simp only [stack]
    exact ⟨parents, fresh, _, finalized⟩

theorem rollbackTransaction (inv : StackInv root sys) (fault : Option DbError) :
    StackInv root (sys.rollbackTransaction fault).2 :=
  inv.popTransaction _ fun top stack => by
    obtain ⟨record, live⟩ := inv.live_of_mem (List.mem_of_mem_head? stack)
    simp only [stack, TxnTable.abort_live _ live]
    exact ⟨by simp, rfl, _, rfl⟩

/-- The constructor leaves the invariant when the engine has no live transaction. -/
theorem new {faults : Faults} {engine engine' : Engine σ} {database : Database}
    (accounted : engine.txn.Accounted) (idle : ∀ txn, engine.txn.parentOf txn = none)
    (opened : Database.new faults engine = (.ok database, engine')) :
    StackInv engine.txn.fresh ⟨database, engine'⟩ := by
  obtain ⟨txns, txn⟩ := Database.new_ok opened
  constructor <;> simp only [txns, txn]
  · exact .root (by simp)
  · intro other
    by_cases here : other = engine.txn.fresh
    · simp [here]
    · simp [Function.update_noteq here, idle, here]
  · rfl
  · exact accounted.create none

end StackInv

/-! ## The destructor -/

section Destroy

variable (outcome : Outcome)

theorem foldl_finalize (txns : List Nat) (table : TxnTable σ) :
    (txns.foldl (fun current txn => current.finalize txn outcome) table).parentOf =
        (fun txn => if txn ∈ txns then none else table.parentOf txn) ∧
      (txns.foldl (fun current txn => current.finalize txn outcome) table).fresh = table.fresh ∧
      (txns.foldl (fun current txn => current.finalize txn outcome) table).finalized =
        txns.reverse.map (fun txn => (txn, outcome)) ++ table.finalized := by
  induction txns generalizing table with
  | nil => simp
  | cons txn rest induction =>
    obtain ⟨parents, fresh, finalized⟩ := induction (table.finalize txn outcome)
    refine ⟨?_, fresh, by simp [finalized]⟩
    funext other
    by_cases here : other = txn <;> simp [parents, Function.update_noteq, here]

theorem foldl_finalize_live {txns : List Nat} {txn : Nat} (absent : txn ∉ txns)
    (table : TxnTable σ) :
    (txns.foldl (fun current other => current.finalize other outcome) table).live txn =
        table.live txn ∧
      (txns.foldl (fun current other => current.finalize other outcome) table).durable =
        table.durable := by
  induction txns generalizing table with
  | nil => simp
  | cons other rest induction =>
    simp only [List.mem_cons, not_or] at absent
    obtain ⟨live, durable⟩ := induction absent.2 (table.finalize other outcome)
    exact ⟨live.trans (Function.update_noteq absent.1 _ _), durable⟩

end Destroy

/-- The destructor's loop aborts every transaction above the bottom one, top first. -/
theorem abortNested_chain {txns : List Nat} {table : TxnTable σ} {root : Nat}
    (chain : Chain table.parentOf txns) (bottom : txns.getLast? = some root) :
    (Database.abortNested txns table).1 = [root] ∧
      (Database.abortNested txns table).2 =
        txns.dropLast.foldl (fun current txn => current.finalize txn .aborted) table := by
  induction txns generalizing table with
  | nil => simp at bottom
  | cons top tail induction =>
    cases chain with
    | root found => simp_all [Database.abortNested]
    | @child _ parent rest found _ below =>
      obtain ⟨record, live⟩ := Option.isSome_iff_exists.mp
        (Option.isSome_map.symm.trans (show (table.parentOf top).isSome by simp [found]))
      have above := (Chain.child found ‹_› below).top_not_mem_tail
      have chain : Chain (table.finalize top .aborted).parentOf (parent :: rest) :=
        below.congr fun txn member => by
          simp [Function.update_noteq (show txn ≠ top by rintro rfl; exact above member)]
      rw [Database.abortNested, TxnTable.abort_live _ live]
      exact induction chain (by simpa [List.getLast?_cons] using bottom)

namespace StackInv

variable {root : Nat} {sys : System σ}

/-- The destructor aborts the nested transactions, children first, then commits the bottom. -/
theorem destroy (inv : StackInv root sys) (fault : Option DbError) :
    (∀ txn, (Database.destroy fault sys).txn.parentOf txn = none) ∧
      (Database.destroy fault sys).txn.finalized =
        (root, if fault.isNone then .committed else .aborted) ::
          (sys.database.txns.dropLast.reverse.map fun txn => (txn, .aborted)) ++
            sys.engine.txn.finalized := by
  obtain ⟨stopped, aborted⟩ := abortNested_chain inv.chain inv.bottom
  obtain ⟨below, whole⟩ := List.getLast?_eq_some_iff.mp inv.bottom
  obtain ⟨parents, _, finalized⟩ := foldl_finalize .aborted below sys.engine.txn
  have nodup := inv.chain.sorted.nodup
  rw [whole, List.nodup_append] at nodup
  have bottomLive : (sys.engine.txn.parentOf root).isSome := (inv.live_iff root).mpr (by simp [whole])
  have notBelow : root ∉ below := fun member => nodup.2.2 member (List.mem_singleton_self root)
  have live : ((below.foldl (fun current txn => current.finalize txn .aborted)
      sys.engine.txn).parentOf root).isSome := by
    simpa [parents, notBelow] using bottomLive
  obtain ⟨record, found⟩ := Option.isSome_iff_exists.mp (Option.isSome_map.symm.trans live)
  obtain ⟨committed, _, logged⟩ := TxnTable.commit_live _ found fault
  rw [Database.destroy_txn, stopped, aborted, whole, List.dropLast_concat, List.head?_cons]
  refine ⟨fun txn => ?_, by simp [logged, finalized]⟩
  rw [committed, parents]
  by_cases here : txn = root
  · subst here; simp
  · by_cases member : txn ∈ below
    · simp [here, member]
    · have dead := mt (inv.live_iff txn).mp (by simp [whole, member, here])
      simpa [Function.update_noteq here, member] using dead

end StackInv

/-! ## Runs -/

/-- An operation that keeps `m_txns`, the parents, the handles handed out and the log. -/
def Transparent (step : System σ → System σ) : Prop :=
  ∀ sys, (step sys).database.txns = sys.database.txns ∧
    (step sys).engine.txn.parentOf = sys.engine.txn.parentOf ∧
    (step sys).engine.txn.fresh = sys.engine.txn.fresh ∧
    (step sys).engine.txn.finalized = sys.engine.txn.finalized

theorem performTop_transparent {α : Type} (operation : σ → α × σ) :
    Transparent fun sys : System σ => (sys.performTop operation).2 :=
  fun _ => ⟨rfl, by simp, by simp, by simp⟩

/-- A call a run makes between the constructor and the destructor. -/
inductive Call (σ : Type) where
  /-- `begin_transaction`, with the engine's answer to `txn_begin`. -/
  | beginTransaction (answer : BeginAnswer)
  /-- `commit_transaction`, with the error `commit` reports, if any. -/
  | commitTransaction (fault : Option DbError)
  /-- `rollback_transaction`, with the error `abort` reports, if any. -/
  | rollbackTransaction (fault : Option DbError)
  /-- An operation of a table, index, sequence or recordset. -/
  | operation (step : System σ → System σ) (transparent : Transparent step)

/-- The state after a call. -/
def Call.apply : Call σ → System σ → System σ
  | .beginTransaction answer, sys => (sys.beginTransaction answer).2
  | .commitTransaction fault, sys => (sys.commitTransaction fault).2
  | .rollbackTransaction fault, sys => (sys.rollbackTransaction fault).2
  | .operation step _, sys => step sys

/-- The state after a sequence of calls. -/
def System.run (sys : System σ) (calls : List (Call σ)) : System σ :=
  calls.foldl (fun current call => call.apply current) sys

namespace StackInv

variable {root : Nat} {sys : System σ}

theorem apply (inv : StackInv root sys) : ∀ call : Call σ, StackInv root (call.apply sys)
  | .beginTransaction answer => inv.beginTransaction answer
  | .commitTransaction fault => inv.commitTransaction fault
  | .rollbackTransaction fault => inv.rollbackTransaction fault
  | .operation _ transparent =>
    have ⟨txns, parents, fresh, finalized⟩ := transparent sys
    inv.congr txns parents fresh finalized

theorem run (inv : StackInv root sys) (calls : List (Call σ)) : StackInv root (sys.run calls) := by
  induction calls generalizing sys with
  | nil => exact inv
  | cons call rest induction => exact induction (inv.apply call)

theorem root_le (inv : StackInv root sys) {txn : Nat} (member : txn ∈ sys.database.txns) :
    root ≤ txn := by
  obtain ⟨below, whole⟩ := List.getLast?_eq_some_iff.mp inv.bottom
  have sorted := inv.chain.sorted
  rw [whole, List.Sorted, List.pairwise_append] at sorted
  rw [whole, List.mem_append, List.mem_singleton] at member
  rcases member with member | rfl
  · exact Nat.le_of_lt (sorted.2.2 txn member root (List.mem_singleton_self root))
  · exact le_rfl

end StackInv

/-- What the transaction stack guarantees in a state of a run whose constructor began `root`. -/
structure StackSafe (root : Nat) (sys : System σ) : Prop where
  /-- `m_txns` is never empty. -/
  ne_nil : sys.database.txns ≠ []
  /-- Its elements are the transactions begun since the constructor and not finalized. -/
  members : ∀ txn, txn ∈ sys.database.txns ↔
    root ≤ txn ∧ txn < sys.engine.txn.fresh ∧ txn ∉ sys.engine.txn.finalized.map Prod.fst
  /-- Each element is the child of the one below it; the bottom is top-level. -/
  chain : Chain sys.engine.txn.parentOf sys.database.txns
  /-- The bottom is the constructor's transaction. -/
  bottom : sys.database.txns.getLast? = some root
  /-- `m_txns.top()`, which every engine call of the library receives, is live. -/
  top_live : ∃ txn, sys.database.txns.head? = some txn ∧ (sys.engine.txn.parentOf txn).isSome
  /-- `commit_transaction` raises `NotFound` exactly when only one transaction is left. -/
  commit_notFound : ∀ fault,
    (sys.commitTransaction fault).1 = .error .notFound ↔ sys.database.txns.length = 1
  /-- `rollback_transaction` raises `NotFound` exactly when only one transaction is left. -/
  rollback_notFound : ∀ fault,
    (sys.rollbackTransaction fault).1 = .error .notFound ↔ sys.database.txns.length = 1
  /-- Then neither changes anything. -/
  single_untouched : sys.database.txns.length = 1 → ∀ fault,
    (sys.commitTransaction fault).2 = sys ∧ (sys.rollbackTransaction fault).2 = sys
  /-- The destructor aborts the nested transactions, each child before its parent, then
  commits the top-level one, and leaves no transaction live. -/
  destroy : ∀ fault, (∀ txn, (Database.destroy fault sys).txn.parentOf txn = none) ∧
    (Database.destroy fault sys).txn.finalized =
      (root, if fault.isNone then .committed else .aborted) ::
        (sys.database.txns.dropLast.reverse.map fun txn => (txn, .aborted)) ++
          sys.engine.txn.finalized

theorem StackInv.safe {root : Nat} {sys : System σ} (inv : StackInv root sys) :
    StackSafe root sys where
  ne_nil := inv.chain.ne_nil
  members txn := by
    rw [← inv.live_iff, inv.accounted.live_iff]
    exact ⟨fun live => ⟨inv.root_le ((inv.live_iff txn).mp ((inv.accounted.live_iff txn).mpr live)),
      live⟩, And.right⟩
  chain := inv.chain
  bottom := inv.bottom
  top_live := inv.top_live
  commit_notFound _ := sys.popTransaction_notFound _
  rollback_notFound _ := sys.popTransaction_notFound _
  single_untouched single _ :=
    ⟨by simp [System.commitTransaction, sys.popTransaction_single _ single],
      by simp [System.rollbackTransaction, sys.popTransaction_single _ single]⟩
  destroy := inv.destroy

/-- Every run of a database object on an engine with no live transaction keeps its stack safe. -/
theorem transaction_stack {faults : Faults} {engine engine' : Engine σ} {database : Database}
    (accounted : engine.txn.Accounted) (idle : ∀ txn, engine.txn.parentOf txn = none)
    (opened : Database.new faults engine = (.ok database, engine')) (calls : List (Call σ)) :
    StackSafe engine.txn.fresh ((System.mk database engine').run calls) :=
  ((StackInv.new accounted idle opened).run calls).safe

/-- A commit around an operation, a rollback, and a `begin_transaction` refused with a deadlock. -/
def mixedRun : List (Call Unit) :=
  [.beginTransaction .ok, .operation _ (performTop_transparent fun _ => ((), ())),
    .commitTransaction none, .beginTransaction .ok, .rollbackTransaction none,
    .beginTransaction (.fail lockDeadlock)]

theorem transaction_stack_mixed_run :
    (TxnTable.empty ()).Accounted ∧ (∀ txn, (TxnTable.empty ()).parentOf txn = none) ∧
      Database.new (fun _ => none) ⟨TxnTable.empty (), Handles.empty⟩ =
        (.ok ⟨some 0, some 1, [0], [], []⟩,
          ⟨((TxnTable.empty ()).create none).2,
            ((Handles.empty.alloc .env).2.alloc (.db { file := some "__seq.db" })).2⟩) ∧
      StackSafe 0 ((System.mk ⟨some 0, some 1, [0], [], []⟩
        ⟨((TxnTable.empty ()).create none).2,
          ((Handles.empty.alloc .env).2.alloc (.db { file := some "__seq.db" })).2⟩).run mixedRun) :=
  ⟨TxnTable.accounted_empty (), fun _ => rfl, rfl,
    @transaction_stack Unit (fun _ => none) ⟨TxnTable.empty (), Handles.empty⟩ _ _
      (TxnTable.accounted_empty ()) (fun _ => rfl) rfl mixedRun⟩

end Bdb
