import Bdblib.Stack

/-!
# Nested transactions against a reference semantics

In the reference semantics every write goes to one log, and each `begin_transaction` that has
not been matched yet remembers how long the log was when it was called. `rollback_transaction`
cuts the log back to that length, which undoes exactly the writes made since the matching
begin, nested ones already committed included; `commit_transaction` only forgets the mark, so
the writes stay with the enclosing transaction. The destructor rolls back what is still open
and makes the rest durable.

The engine keeps one write set per transaction instead. Reading the stack of transactions
bottom up gives the reference log, and the sizes of the write sets below each nested
transaction give the marks, so every call of `database` and every engine operation under
`m_txns.top()` is simulated by the reference semantics.
-/

namespace Bdb

variable {σ ρ : Type}

namespace TxnTable

variable (table : TxnTable σ)

/-- The writes of a transaction, none if it is not live. -/
def writesOf (txn : Nat) : List (σ → σ) := ((table.live txn).map TxnRecord.writes).getD []

/-- The writes of the transactions of a stack, bottom first. -/
def stackWrites : List Nat → List (σ → σ)
  | [] => []
  | txn :: rest => stackWrites rest ++ table.writesOf txn

/-- For each nested transaction of a stack, the number of writes below it, top first. -/
def stackMarks : List Nat → List Nat
  | [] => []
  | [_] => []
  | _ :: rest => (table.stackWrites rest).length :: stackMarks rest

theorem stackWrites_congr {other : TxnTable σ} {txns : List Nat}
    (agree : ∀ txn ∈ txns, other.writesOf txn = table.writesOf txn) :
    other.stackWrites txns = table.stackWrites txns := by
  induction txns with
  | nil => rfl
  | cons txn rest induction =>
    simp only [stackWrites, agree txn (List.mem_cons_self _ _),
      induction fun other member => agree other (List.mem_cons_of_mem _ member)]

theorem stackMarks_congr {other : TxnTable σ} {txns : List Nat}
    (agree : ∀ txn ∈ txns, other.writesOf txn = table.writesOf txn) :
    other.stackMarks txns = table.stackMarks txns := by
  induction txns with
  | nil => rfl
  | cons txn rest induction =>
    cases rest with
    | nil => rfl
    | cons below rest =>
      have tail : ∀ other' ∈ below :: rest, other.writesOf other' = table.writesOf other' :=
        fun other' member => agree other' (List.mem_cons_of_mem _ member)
      simp only [stackMarks, stackWrites_congr table tail, induction tail]

theorem viewAt_chain {txns : List Nat} (chain : Chain table.parentOf txns) :
    ∀ {fuel top : Nat}, txns.head? = some top → top < fuel →
      table.viewAt fuel (some top) = replay (table.stackWrites txns) table.durable := by
  induction chain with
  | @root txn found =>
    intro fuel top head below
    obtain ⟨record, live, parent⟩ := Option.map_eq_some'.mp found
    obtain ⟨fuel, rfl⟩ := Nat.exists_eq_add_of_lt below
    simp_all [viewAt, stackWrites, writesOf]
  | @child txn parent rest found lower _ induction =>
    intro fuel top head below
    obtain ⟨record, live, link⟩ := Option.map_eq_some'.mp found
    obtain ⟨fuel, rfl⟩ := Nat.exists_eq_add_of_lt below
    simp only [List.head?_cons, Option.some.injEq] at head
    subst head
    simp only [viewAt, live, link, stackWrites, writesOf, Option.map_some', Option.getD_some,
      replay_append]
    rw [induction rfl (by omega)]
    simp [stackWrites, writesOf]

/-! ## What each call does to the write sets -/

@[simp]
theorem create_writesOf (parent : Option Nat) :
    (table.create parent).2.writesOf = Function.update table.writesOf table.fresh [] := by
  funext txn
  by_cases here : txn = table.fresh
  · subst here; simp [writesOf, create]
  · simp [writesOf, create, here]

theorem record_writesOf {txn : Nat} {record : TxnRecord σ} (live : table.live txn = some record)
    (writes : List (σ → σ)) :
    (table.record txn writes).writesOf =
      Function.update table.writesOf txn (table.writesOf txn ++ writes) := by
  funext other
  by_cases here : other = txn
  · subst here; simp [writesOf, TxnTable.record, live]
  · simp [writesOf, TxnTable.record, here]

@[simp]
theorem finalize_writesOf (txn : Nat) (outcome : Outcome) :
    (table.finalize txn outcome).writesOf = Function.update table.writesOf txn [] := by
  funext other
  by_cases here : other = txn
  · subst here; simp [writesOf, finalize]
  · simp [writesOf, finalize, here]

theorem stackMarks_cons_congr {other : TxnTable σ} {txn : Nat} {rest : List Nat}
    (agree : ∀ below ∈ rest, other.writesOf below = table.writesOf below) :
    other.stackMarks (txn :: rest) = table.stackMarks (txn :: rest) := by
  cases rest with
  | nil => rfl
  | cons below rest =>
    simp only [stackMarks, table.stackWrites_congr agree, table.stackMarks_congr agree]

/-- The length of the log at the outermost mark, or the whole log without one. -/
def closeMark (txns : List Nat) : Nat :=
  (table.stackMarks txns).getLast?.getD (table.stackWrites txns).length

theorem closeMark_cons (txn below : Nat) (rest : List Nat) :
    table.closeMark (txn :: below :: rest) = table.closeMark (below :: rest) := by
  cases rest with
  | nil => simp [closeMark, stackMarks]
  | cons next rest =>
    simp only [closeMark, stackMarks, List.getLast?_cons_cons]
    cases table.stackMarks (next :: rest) with
    | nil => simp
    | cons mark marks => simp [List.getLast?_cons]

theorem take_closeMark {txns : List Nat} {root : Nat} (bottom : txns.getLast? = some root)
    (later : List (σ → σ)) :
    (table.stackWrites txns ++ later).take (table.closeMark txns) = table.writesOf root := by
  induction txns generalizing later with
  | nil => simp at bottom
  | cons txn rest induction =>
    cases rest with
    | nil => simp_all [closeMark, stackMarks, stackWrites]
    | cons below rest =>
      rw [closeMark_cons, stackWrites, List.append_assoc]
      exact induction (by simpa [List.getLast?_cons] using bottom) _

theorem stackMarks_sorted :
    ∀ txns : List Nat, ((table.stackWrites txns).length :: table.stackMarks txns).Sorted (· ≥ ·)
  | [] => List.sorted_singleton _
  | [_] => List.sorted_singleton _
  | txn :: below :: rest =>
    (stackMarks_sorted (below :: rest)).cons (by simp only [stackWrites, List.length_append]; omega)

end TxnTable

/-! ## The reference semantics -/

/-- The reference semantics of nested transactions. -/
structure Reference (σ : Type) where
  /-- The durable store when the database was opened. -/
  base : σ
  /-- Every write not undone, oldest first. -/
  log : List (σ → σ)
  /-- For each `begin_transaction` not matched yet, the length of the log when it was called,
  most recent first. -/
  marks : List Nat

/-- What a call reports: an exception, or the result of an operation. -/
abbrev Report (ρ : Type) := Except Exception (Option ρ)

/-- A call of a run: a transaction call, or an engine operation with the result it reports. -/
inductive Step (σ ρ : Type) where
  /-- `begin_transaction`. -/
  | beginTransaction
  /-- `commit_transaction`. -/
  | commitTransaction
  /-- `rollback_transaction`. -/
  | rollbackTransaction
  /-- An engine operation run under `m_txns.top()`. -/
  | operate (operation : σ → ρ × σ)

namespace Reference

variable (ref : Reference σ)

/-- The reference state of a database just opened on a durable store. -/
def start (base : σ) : Reference σ := ⟨base, [], []⟩

/-- The store every operation sees. -/
def current : σ := replay ref.log ref.base

@[simp]
theorem current_marks (marks : List Nat) : { ref with marks }.current = ref.current := rfl

@[simp]
theorem current_append (write : σ → σ) :
    { ref with log := ref.log ++ [write] }.current = write ref.current := by
  simp [current, replay_append, replay_singleton]

/-- One call. -/
def step : Step σ ρ → Report ρ × Reference σ
  | .beginTransaction => (.ok none, { ref with marks := ref.log.length :: ref.marks })
  | .commitTransaction =>
    match ref.marks with
    | [] => (.error .notFound, ref)
    | _ :: rest => (.ok none, { ref with marks := rest })
  | .rollbackTransaction =>
    match ref.marks with
    | [] => (.error .notFound, ref)
    | mark :: rest => (.ok none, { ref with log := ref.log.take mark, marks := rest })
  | .operate operation =>
    (.ok (some (operation ref.current).1),
      { ref with log := ref.log ++ [fun store => (operation store).2] })

/-- Closing rolls back what is still open; the rest is durable. -/
def close : σ := replay (ref.log.take (ref.marks.getLast?.getD ref.log.length)) ref.base

/-- Each mark is at most the length of the log, and at most every mark made before it. -/
def Nested : Prop := (ref.log.length :: ref.marks).Sorted (· ≥ ·)

end Reference

/-- A run of calls in the reference semantics: their reports and the final state. -/
def Reference.exec : Reference σ → List (Step σ ρ) → List (Report ρ) × Reference σ
  | ref, [] => ([], ref)
  | ref, call :: rest =>
    ((ref.step call).1 :: ((ref.step call).2.exec rest).1, ((ref.step call).2.exec rest).2)

namespace System

variable (sys : System σ)

/-- One call, when the engine answers every transaction call with success. -/
def step : Step σ ρ → Report ρ × System σ
  | .beginTransaction =>
    ((sys.beginTransaction .ok).1.map fun _ => none, (sys.beginTransaction .ok).2)
  | .commitTransaction =>
    ((sys.commitTransaction none).1.map fun _ => none, (sys.commitTransaction none).2)
  | .rollbackTransaction =>
    ((sys.rollbackTransaction none).1.map fun _ => none, (sys.rollbackTransaction none).2)
  | .operate operation => (.ok (some (sys.performTop operation).1), (sys.performTop operation).2)

/-- The reference state the transactions of a database stand for. -/
def abstract : Reference σ :=
  ⟨sys.engine.txn.durable, sys.engine.txn.stackWrites sys.database.txns,
    sys.engine.txn.stackMarks sys.database.txns⟩

@[simp]
theorem step_handles (call : Step σ ρ) : (sys.step call).2.engine.handles = sys.engine.handles := by
  cases call <;> simp [System.step, System.commitTransaction, System.rollbackTransaction]

theorem abstract_nested : sys.abstract.Nested :=
  sys.engine.txn.stackMarks_sorted sys.database.txns

end System

theorem System.abstract_new {faults : Faults} {engine engine' : Engine σ} {database : Database}
    (opened : Database.new faults engine = (.ok database, engine')) :
    (System.mk database engine').abstract = Reference.start engine.txn.durable := by
  obtain ⟨txns, txn⟩ := Database.new_ok opened
  simp [System.abstract, Reference.start, txns, txn, TxnTable.stackWrites, TxnTable.stackMarks]

/-! ## Simulation -/

theorem System.abstract_marks_single {sys : System σ} (single : sys.database.txns.length = 1) :
    sys.abstract.marks = [] := by
  obtain ⟨txn, stack⟩ := List.length_eq_one.mp single
  simp [System.abstract, stack, TxnTable.stackMarks]

namespace StackInv

variable {root : Nat} {sys : System σ}

theorem beginTransaction_refines (inv : StackInv root sys) :
    (sys.beginTransaction .ok).2.abstract =
      { sys.abstract with marks := sys.abstract.log.length :: sys.abstract.marks } := by
  obtain ⟨top, rest, stack⟩ := List.exists_cons_of_ne_nil inv.chain.ne_nil
  have older : ∀ txn ∈ sys.database.txns,
      (sys.engine.txn.create sys.database.txns.head?).2.writesOf txn =
        sys.engine.txn.writesOf txn := fun txn member => by
    simp [Function.update_noteq (Nat.ne_of_lt (inv.lt_fresh member))]
  have writes := TxnTable.stackWrites_congr _ older
  have marks := TxnTable.stackMarks_congr _ older
  simp only [stack, List.head?_cons] at writes marks older
  simp only [System.beginTransaction_ok, System.abstract, stack, List.head?_cons,
    TxnTable.create_durable, Reference.mk.injEq, true_and]
  show (_ ++ _ = _) ∧ (_ :: _ = _)
  rw [writes, marks]
  simp

theorem operate_refines (inv : StackInv root sys) (operation : σ → ρ × σ) :
    (sys.performTop operation).1 = (operation sys.abstract.current).1 ∧
      (sys.performTop operation).2.abstract =
        { sys.abstract with log := sys.abstract.log ++ [fun store => (operation store).2] } := by
  obtain ⟨top, rest, stack⟩ := List.exists_cons_of_ne_nil inv.chain.ne_nil
  have chain := inv.chain
  rw [stack] at chain
  obtain ⟨record, live, -⟩ := Option.map_eq_some'.mp (Option.ne_none_iff_exists'.mp
    (Option.isSome_iff_ne_none.mp ((inv.live_iff top).mpr (by simp [stack])))).choose_spec
  have above := chain.top_not_mem_tail
  have recorded := sys.engine.txn.record_writesOf live [fun store => (operation store).2]
  have below : ∀ txn ∈ rest, (sys.engine.txn.record top [fun store => (operation store).2]).writesOf
      txn = sys.engine.txn.writesOf txn := fun txn member => by
    rw [recorded, Function.update_noteq (by rintro rfl; exact above member)]
  refine ⟨?_, ?_⟩
  · simp only [System.performTop, stack, List.head?_cons, TxnTable.perform, TxnTable.view,
      Reference.current, System.abstract]
    rw [sys.engine.txn.viewAt_chain chain rfl (inv.lt_fresh (by simp [stack]))]
  · simp only [System.abstract, System.performTop_txn, System.performTop_database, stack,
      List.head?_cons, TxnTable.perform, TxnTable.record_durable, Reference.mk.injEq, true_and]
    refine ⟨?_, TxnTable.stackMarks_cons_congr _ below⟩
    simp [TxnTable.stackWrites, TxnTable.stackWrites_congr _ below, recorded]

theorem performTop_current (inv : StackInv root sys) (operation : σ → ρ × σ) :
    (sys.performTop operation).2.abstract.current = (operation sys.abstract.current).2 := by
  rw [(inv.operate_refines operation).2, Reference.current_append]

theorem commitTransaction_refines (inv : StackInv root sys) :
    ((sys.commitTransaction none).1.map fun _ => none) =
        (sys.abstract.step (.commitTransaction : Step σ ρ)).1 ∧
      (sys.commitTransaction none).2.abstract =
        (sys.abstract.step (.commitTransaction : Step σ ρ)).2 := by
  by_cases single : sys.database.txns.length = 1
  · simp [System.commitTransaction, sys.popTransaction_single _ single, Reference.step,
      sys.abstract_marks_single single, Except.map]
  obtain ⟨top, below, rest, stack⟩ := inv.exists_nested single
  have chain := inv.chain
  rw [stack] at chain
  obtain ⟨record, live, link⟩ : ∃ record, sys.engine.txn.live top = some record ∧
      record.parent = some below := by
    cases chain with
    | child found _ _ => exact Option.map_eq_some'.mp found
  obtain ⟨parent, parentLive⟩ := inv.live_of_mem (by simp [stack] : below ∈ sys.database.txns)
  have above := chain.top_not_mem_tail
  have deeper := chain.tail.top_not_mem_tail
  have merged := sys.engine.txn.record_writesOf parentLive record.writes
  have agree : ∀ txn ∈ rest, ((sys.engine.txn.record below record.writes).finalize top
      .committed).writesOf txn = sys.engine.txn.writesOf txn := fun txn member => by
    rw [TxnTable.finalize_writesOf, merged,
      Function.update_noteq (by rintro rfl; exact above (List.mem_cons_of_mem _ member)),
      Function.update_noteq (by rintro rfl; exact deeper member)]
  have commit : sys.engine.txn.commit (some top) none =
      (none, (sys.engine.txn.record below record.writes).finalize top .committed) := by
    simp [TxnTable.commit, live, TxnTable.merge, link]
  rw [System.commitTransaction, sys.popTransaction_pop _ single]
  simp only [stack, List.head?_cons, commit, Option.isNone_none, if_true, Except.map,
    Reference.step, System.abstract, TxnTable.stackMarks, List.tail_cons, true_and,
    TxnTable.finalize_durable, TxnTable.record_durable, Reference.mk.injEq]
  refine ⟨?_, TxnTable.stackMarks_cons_congr _ agree⟩
  simp only [TxnTable.stackWrites, TxnTable.stackWrites_congr _ agree, TxnTable.finalize_writesOf,
    merged, Function.update_noteq (show below ≠ top by rintro rfl; simp at above),
    Function.update_same, List.append_assoc]
  simp [TxnTable.writesOf, live]

theorem rollbackTransaction_refines (inv : StackInv root sys) :
    ((sys.rollbackTransaction none).1.map fun _ => none) =
        (sys.abstract.step (.rollbackTransaction : Step σ ρ)).1 ∧
      (sys.rollbackTransaction none).2.abstract =
        (sys.abstract.step (.rollbackTransaction : Step σ ρ)).2 := by
  by_cases single : sys.database.txns.length = 1
  · simp [System.rollbackTransaction, sys.popTransaction_single _ single, Reference.step,
      sys.abstract_marks_single single, Except.map]
  obtain ⟨top, below, rest, stack⟩ := inv.exists_nested single
  have chain := inv.chain
  rw [stack] at chain
  obtain ⟨record, live⟩ := inv.live_of_mem (by simp [stack] : top ∈ sys.database.txns)
  have above := chain.top_not_mem_tail
  have agree : ∀ txn ∈ below :: rest, (sys.engine.txn.finalize top .aborted).writesOf txn =
      sys.engine.txn.writesOf txn := fun txn member => by
    rw [TxnTable.finalize_writesOf, Function.update_noteq (by rintro rfl; exact above member)]
  rw [System.rollbackTransaction, sys.popTransaction_pop _ single]
  simp only [stack, List.head?_cons, TxnTable.abort_live _ live, Option.isNone_none, if_true,
    Except.map, Reference.step, System.abstract, TxnTable.stackMarks, List.tail_cons, true_and,
    TxnTable.finalize_durable, Reference.mk.injEq]
  refine ⟨?_, TxnTable.stackMarks_cons_congr _ fun txn member =>
    agree txn (List.mem_cons_of_mem _ member)⟩
  rw [TxnTable.stackWrites_congr _ agree]
  exact (List.take_left' rfl).symm

theorem step_refines (inv : StackInv root sys) (call : Step σ ρ) :
    (sys.step call).1 = (sys.abstract.step call).1 ∧
      (sys.step call).2.abstract = (sys.abstract.step call).2 := by
  cases call with
  | beginTransaction => exact ⟨rfl, inv.beginTransaction_refines⟩
  | commitTransaction => exact inv.commitTransaction_refines
  | rollbackTransaction => exact inv.rollbackTransaction_refines
  | operate operation =>
    obtain ⟨result, state⟩ := inv.operate_refines operation
    exact ⟨by simp [System.step, Reference.step, result], state⟩

theorem step (inv : StackInv root sys) (call : Step σ ρ) : StackInv root (sys.step call).2 := by
  cases call with
  | beginTransaction => exact inv.beginTransaction .ok
  | commitTransaction => exact inv.commitTransaction none
  | rollbackTransaction => exact inv.rollbackTransaction none
  | operate operation =>
    have ⟨txns, parents, fresh, finalized⟩ := performTop_transparent operation sys
    exact inv.congr txns parents fresh finalized

/-- The destructor makes durable what the reference keeps after rolling back what is still open. -/
theorem destroy_refines (inv : StackInv root sys) :
    (Database.destroy none sys).txn.durable = sys.abstract.close := by
  obtain ⟨stopped, aborted⟩ := abortNested_chain inv.chain inv.bottom
  obtain ⟨below, whole⟩ := List.getLast?_eq_some_iff.mp inv.bottom
  have nodup := inv.chain.sorted.nodup
  rw [whole, List.nodup_append] at nodup
  have notBelow : root ∉ below := fun member => nodup.2.2 member (List.mem_singleton_self root)
  obtain ⟨record, live, topLevel⟩ := Option.map_eq_some'.mp (inv.chain.last_root inv.bottom)
  obtain ⟨kept, durable⟩ := foldl_finalize_live .aborted notBelow sys.engine.txn
  have close := sys.engine.txn.take_closeMark inv.bottom []
  rw [List.append_nil] at close
  rw [Database.destroy_txn, stopped, aborted, whole, List.dropLast_concat, List.head?_cons,
    TxnTable.commit_topLevel _ (kept.trans live) topLevel, durable]
  simp only [Reference.close, System.abstract, TxnTable.closeMark] at close ⊢
  rw [close]
  simp [TxnTable.writesOf, live]

end StackInv

/-- A run of calls of a database: their reports and the final state. -/
def System.exec : System σ → List (Step σ ρ) → List (Report ρ) × System σ
  | sys, [] => ([], sys)
  | sys, call :: rest =>
    ((sys.step call).1 :: ((sys.step call).2.exec rest).1, ((sys.step call).2.exec rest).2)

theorem StackInv.exec_refines {root : Nat} {sys : System σ} (inv : StackInv root sys)
    (calls : List (Step σ ρ)) :
    (sys.exec calls).1 = (sys.abstract.exec calls).1 ∧
      (sys.exec calls).2.abstract = (sys.abstract.exec calls).2 ∧
      StackInv root (sys.exec calls).2 := by
  induction calls generalizing sys with
  | nil => exact ⟨rfl, rfl, inv⟩
  | cons call rest induction =>
    obtain ⟨report, state⟩ := inv.step_refines call
    obtain ⟨reports, final, kept⟩ := induction (inv.step call)
    simp only [System.exec, Reference.exec, report, reports, final, state, kept, and_self]

/-- Every run of transaction calls and operations under `m_txns.top()` reports what the reference
semantics reports, and the destructor leaves the durable store it leaves. -/
theorem nested_transactions {faults : Faults} {engine engine' : Engine σ} {database : Database}
    (accounted : engine.txn.Accounted) (idle : ∀ txn, engine.txn.parentOf txn = none)
    (opened : Database.new faults engine = (.ok database, engine')) (calls : List (Step σ ρ)) :
    ((System.mk database engine').exec calls).1 =
        ((Reference.start engine.txn.durable).exec calls).1 ∧
      (Database.destroy none ((System.mk database engine').exec calls).2).txn.durable =
        ((Reference.start engine.txn.durable).exec calls).2.close := by
  obtain ⟨reports, final, kept⟩ := (StackInv.new accounted idle opened).exec_refines calls
  rw [← System.abstract_new opened, reports, kept.destroy_refines, final]
  exact ⟨rfl, rfl⟩

/-- A commit around an operation, and a rollback after an operation failing with a deadlock. -/
def mixedSteps : List (Step Unit (Option DbError)) :=
  [.beginTransaction, .operate fun _ => (none, ()), .commitTransaction, .beginTransaction,
    .operate fun _ => (some lockDeadlock, ()), .rollbackTransaction]

theorem nested_transactions_mixed_run :
    (TxnTable.empty ()).Accounted ∧ (∀ txn, (TxnTable.empty ()).parentOf txn = none) ∧
      Database.new (fun _ => none) (Engine.initial ()) =
        (.ok ⟨some 0, some 1, [0], [], []⟩,
          ⟨((TxnTable.empty ()).create none).2,
            ((Handles.empty.alloc .env).2.alloc (.db { file := some "__seq.db" })).2⟩) ∧
      ((System.mk ⟨some 0, some 1, [0], [], []⟩ ⟨((TxnTable.empty ()).create none).2,
          ((Handles.empty.alloc .env).2.alloc (.db { file := some "__seq.db" })).2⟩).exec
            mixedSteps).1 = ((Reference.start ()).exec mixedSteps).1 ∧
        (Database.destroy none ((System.mk ⟨some 0, some 1, [0], [], []⟩
          ⟨((TxnTable.empty ()).create none).2,
            ((Handles.empty.alloc .env).2.alloc (.db { file := some "__seq.db" })).2⟩).exec
              mixedSteps).2).txn.durable = ((Reference.start ()).exec mixedSteps).2.close :=
  ⟨TxnTable.accounted_empty (), fun _ => rfl, rfl,
    @nested_transactions Unit (Option DbError) (fun _ => none) (Engine.initial ()) _ _
      (TxnTable.accounted_empty ()) (fun _ => rfl) rfl mixedSteps⟩

/-! ## Invariants across nested transactions -/

namespace Reference

variable (P : σ → Prop) (ref : Reference σ)

/-- The store that a rollback to `mark` returns to. -/
def markedAt (mark : Nat) : σ := replay (ref.log.take mark) ref.base

/-- `P` holds of the store every operation sees and of the store each open mark returns to. -/
def Always : Prop := P ref.current ∧ ∀ mark ∈ ref.marks, P (ref.markedAt mark)

variable {P ref}

theorem Always.imp {Q : σ → Prop} (always : ref.Always P) (implies : ∀ store, P store → Q store) :
    ref.Always Q :=
  ⟨implies _ always.1, fun mark marked => implies _ (always.2 mark marked)⟩

theorem Always.append (always : ref.Always P) (nested : ref.Nested) {write : σ → σ}
    (preserves : P (write ref.current)) : { ref with log := ref.log ++ [write] }.Always P := by
  refine ⟨by rwa [current_append], fun mark marked => ?_⟩
  have bound : mark ≤ ref.log.length := (List.sorted_cons.mp nested).1 mark marked
  simpa only [markedAt, List.take_append_of_le_length bound] using always.2 mark marked

/-- Every call keeps `P` always when its operation does: a rollback returns to a marked store. -/
theorem Always.step (always : ref.Always P) (nested : ref.Nested) (call : Step σ ρ)
    (preserves : ∀ operation, call = .operate operation → P (operation ref.current).2) :
    (ref.step call).2.Always P := by
  cases call with
  | beginTransaction =>
    simp only [Reference.step]
    refine ⟨always.1, fun mark marked => ?_⟩
    rcases List.mem_cons.mp marked with rfl | older
    · simpa only [markedAt, List.take_length] using always.1
    · exact always.2 mark older
  | commitTransaction =>
    simp only [Reference.step]
    split
    · exact always
    · rename_i rest marks
      exact ⟨always.1, fun mark marked => always.2 mark (marks ▸ List.mem_cons_of_mem _ marked)⟩
  | rollbackTransaction =>
    simp only [Reference.step]
    split
    · exact always
    · rename_i mark rest marks
      have below := (List.sorted_cons.mp (marks ▸ (List.sorted_cons.mp nested).2 :
        (mark :: rest).Sorted (· ≥ ·))).1
      refine ⟨always.2 mark (marks ▸ List.mem_cons_self _ _), fun older member => ?_⟩
      simpa only [markedAt, List.take_take, min_eq_left (below older member)] using
        always.2 older (marks ▸ List.mem_cons_of_mem _ member)
  | operate operation => exact always.append nested (preserves operation rfl)

end Reference

end Bdb
