import Bdblib.Stack

/-!
# Concurrent transaction calls

`begin_transaction`, `commit_transaction`, `rollback_transaction` and `~database` each take a
`scoped_lock` on an `interprocess_mutex` declared as a local variable of the call. Here the calls
of several threads run as interleaved atomic steps: taking or releasing the lock, reading or
changing `m_txns`, or one engine call. The mutex a thread locks is `mutexOf thread`; in the
library it is the call's own local object (`localMutex`), so no lock ever waits.

A thread running alone performs exactly the sequential call of `Bdblib.Database`
(`Concurrent.run_alone`). Two `begin_transaction` calls can both pass `m_txns.top()` as parent
to `txn_begin`, and the stack they leave is no chain of parent links.
-/

namespace Bdb

variable {σ : Type}

/-- A call of one thread, with the engine's answers. -/
inductive Request where
  /-- `database::begin_transaction`. -/
  | beginTransaction (answer : BeginAnswer)
  /-- `database::commit_transaction`. -/
  | commitTransaction (fault : Option DbError)
  /-- `database::rollback_transaction`. -/
  | rollbackTransaction (fault : Option DbError)
  /-- `database::~database`; `fault` answers the commit of the top-level transaction. -/
  | destroy (fault : Option DbError)

/-- The sequential call a request stands for. -/
def Request.perform : Request → System σ → Except Exception Unit × System σ
  | .beginTransaction answer, sys => sys.beginTransaction answer
  | .commitTransaction fault, sys => sys.commitTransaction fault
  | .rollbackTransaction fault, sys => sys.rollbackTransaction fault
  | .destroy fault, sys =>
    (.ok (), ⟨{ sys.database with txns := (Database.abortNested sys.database.txns sys.engine.txn).1 },
      Database.destroy fault sys⟩)

/-- How far a thread has got in its call. -/
inductive Phase where
  /-- Not started. -/
  | idle
  /-- Holding the lock; for `~database` also the head of its loop. -/
  | locked
  /-- `begin_transaction` after `txn_begin` returned. -/
  | begun (result : Except (DbError × Option Nat) Nat)
  /-- Past the check `m_txns.size() == 1` (or `!= 1` in `~database`). -/
  | checked
  /-- After `DB_TXN * txn = m_txns.top()`. -/
  | read (txn : Option Nat)
  /-- After `m_txns.pop()`, before finalizing `txn`. -/
  | popped (txn : Option Nat)
  /-- `~database` out of its loop, before deleting the objects and closing the handles. -/
  | closing
  /-- The body is done, the lock still held. -/
  | leaving (report : Except Exception Unit)
  /-- Returned, the lock released. -/
  | done (report : Except Exception Unit)

/-- Whether a thread holds its lock, between `scoped_lock` and the end of its scope. -/
def Phase.critical : Phase → Bool
  | .idle | .done _ => false
  | _ => true

/-- Threads calling into one database object. -/
structure Concurrent (σ : Type) where
  /-- The database object and the engine. -/
  sys : System σ
  /-- Each thread's call. -/
  request : Nat → Request
  /-- Each thread's progress. -/
  phase : Nat → Phase
  /-- The mutexes locked. -/
  held : List Nat

namespace Concurrent

variable (mutexOf : Nat → Nat) (state : Concurrent σ) (thread : Nat)

/-- The state after `thread` changed the system to `sys` and moved to `phase`. -/
def advance (sys : System σ) (phase : Phase) : Concurrent σ :=
  { state with sys, phase := Function.update state.phase thread phase }

/-- `sys` with a new transaction table. -/
def withTxn (sys : System σ) (txnTable : TxnTable σ) : System σ :=
  { sys with engine := { sys.engine with txn := txnTable } }

/-- `sys` with a new stack `m_txns`. -/
def withTxns (sys : System σ) (txns : List Nat) : System σ :=
  { sys with database := { sys.database with txns } }

/-- One atomic step of `thread`. A thread that waits for its lock or has returned stays put. -/
def step : Concurrent σ :=
  let sys := state.sys
  match state.phase thread, state.request thread with
  | .idle, _ =>
    if mutexOf thread ∈ state.held then state
    else { state.advance thread sys .locked with held := mutexOf thread :: state.held }
  | .locked, .beginTransaction answer =>
    let (result, txnTable) := sys.engine.txn.txnBegin sys.database.txns.head? answer
    state.advance thread (withTxn sys txnTable) (.begun result)
  | .locked, .destroy _ =>
    state.advance thread sys (if sys.database.txns.length = 1 then .closing else .checked)
  | .locked, _ =>
    state.advance thread sys
      (if sys.database.txns.length = 1 then .leaving (.error .notFound) else .checked)
  | .begun (.ok txn), _ =>
    state.advance thread (withTxns sys (txn :: sys.database.txns)) (.leaving (.ok ()))
  | .begun (.error (_, txn)), _ =>
    let txnTable := if txn.isSome then (sys.engine.txn.abort txn none).2 else sys.engine.txn
    state.advance thread (withTxn sys txnTable) (.leaving (.error .unknown))
  | .checked, _ => state.advance thread sys (.read sys.database.txns.head?)
  | .read txn, _ => state.advance thread (withTxns sys sys.database.txns.tail) (.popped txn)
  | .popped txn, .commitTransaction fault =>
    let (code, txnTable) := sys.engine.txn.commit txn fault
    state.advance thread (withTxn sys txnTable)
      (.leaving (if code.isNone then .ok () else .error .unknown))
  | .popped txn, .rollbackTransaction fault =>
    let (code, txnTable) := sys.engine.txn.abort txn fault
    state.advance thread (withTxn sys txnTable)
      (.leaving (if code.isNone then .ok () else .error .unknown))
  | .popped txn, .destroy _ =>
    state.advance thread (withTxn sys (sys.engine.txn.abort txn none).2) .locked
  | .closing, .destroy fault =>
    state.advance thread { sys with engine := Database.destroy fault sys } (.leaving (.ok ()))
  | .leaving report, _ =>
    { state.advance thread sys (.done report) with held := state.held.erase (mutexOf thread) }
  | _, _ => state

end Concurrent

/-- Run a schedule: the thread that takes each step. -/
def Concurrent.run (mutexOf : Nat → Nat) (state : Concurrent σ) : List Nat → Concurrent σ
  | [] => state
  | thread :: rest => (state.step mutexOf thread).run mutexOf rest

/-- The library's locking: every call locks a mutex object of its own. -/
def localMutex (thread : Nat) : Nat := thread

namespace Concurrent

variable {mutexOf : Nat → Nat} {state : Concurrent σ} {thread : Nat}

@[simp]
theorem advance_sys (sys : System σ) (phase : Phase) : (state.advance thread sys phase).sys = sys :=
  rfl

@[simp]
theorem advance_request (sys : System σ) (phase : Phase) :
    (state.advance thread sys phase).request = state.request := rfl

@[simp]
theorem advance_held (sys : System σ) (phase : Phase) :
    (state.advance thread sys phase).held = state.held := rfl

@[simp]
theorem advance_phase_self (sys : System σ) (phase : Phase) :
    (state.advance thread sys phase).phase thread = phase := by
  simp [advance]

theorem advance_phase (sys : System σ) (phase : Phase) (other : Nat) :
    (state.advance thread sys phase).phase other =
      if other = thread then phase else state.phase other := by
  simp [advance, Function.update_apply]

@[simp]
theorem advance_advance (sys sys' : System σ) (phase phase' : Phase) :
    (state.advance thread sys phase).advance thread sys' phase' = state.advance thread sys' phase' := by
  simp [advance]

@[simp]
theorem withTxn_database (sys : System σ) (txnTable : TxnTable σ) :
    (withTxn sys txnTable).database = sys.database := rfl

@[simp]
theorem withTxn_engine_txn (sys : System σ) (txnTable : TxnTable σ) :
    (withTxn sys txnTable).engine.txn = txnTable := rfl

@[simp]
theorem withTxns_database_txns (sys : System σ) (txns : List Nat) :
    (withTxns sys txns).database.txns = txns := rfl

@[simp]
theorem withTxns_engine (sys : System σ) (txns : List Nat) : (withTxns sys txns).engine = sys.engine :=
  rfl

theorem run_append (first second : List Nat) :
    state.run mutexOf (first ++ second) = (state.run mutexOf first).run mutexOf second := by
  induction first generalizing state with
  | nil => rfl
  | cons thread first ih => exact ih

/-! ## One step of a thread -/

/-- What one step can do: wait for a lock, take it, release it, move on, or nothing. -/
theorem step_cases (mutexOf : Nat → Nat) (state : Concurrent σ) (thread : Nat) :
    (state.phase thread = .idle ∧ mutexOf thread ∈ state.held ∧ state.step mutexOf thread = state) ∨
    (state.phase thread = .idle ∧ mutexOf thread ∉ state.held ∧ state.step mutexOf thread =
      { state.advance thread state.sys .locked with held := mutexOf thread :: state.held }) ∨
    (∃ report, state.phase thread = .leaving report ∧ state.step mutexOf thread =
      { state.advance thread state.sys (.done report) with
        held := state.held.erase (mutexOf thread) }) ∨
    ((state.phase thread).critical ∧ ∃ sys phase, phase.critical ∧
      state.step mutexOf thread = state.advance thread sys phase) ∨
    state.step mutexOf thread = state := by
  unfold step
  split
  case h_1 _ _ idle =>
    by_cases held : mutexOf thread ∈ state.held
    · exact .inl ⟨idle, held, if_pos held⟩
    · exact .inr (.inl ⟨idle, held, if_neg held⟩)
  case h_13 _ _ report leaving => exact .inr (.inr (.inl ⟨report, leaving, rfl⟩))
  all_goals first
    | exact .inr (.inr (.inr (.inr rfl)))
    | refine .inr (.inr (.inr (.inl ⟨by simp [*, Phase.critical], _, _, ?_, rfl⟩)))
      first | rfl | split <;> rfl

theorem step_lock (idle : state.phase thread = .idle) (free : mutexOf thread ∉ state.held) :
    state.step mutexOf thread =
      { state.advance thread state.sys .locked with held := mutexOf thread :: state.held } := by
  simp [step, idle, free]

theorem step_unlock {report : Except Exception Unit} (leaving : state.phase thread = .leaving report) :
    state.step mutexOf thread =
      { state.advance thread state.sys (.done report) with
        held := state.held.erase (mutexOf thread) } := by
  simp [step, leaving]

theorem run_begin_body {answer : BeginAnswer} (locked : state.phase thread = .locked)
    (request : state.request thread = .beginTransaction answer) :
    state.run mutexOf [thread, thread] =
      state.advance thread (state.sys.beginTransaction answer).2
        (.leaving (state.sys.beginTransaction answer).1) := by
  cases answer <;> simp [run, step, locked, request, TxnTable.txnBegin, withTxn, withTxns,
    System.beginTransaction]

theorem run_pop_body {fault : Option DbError} (locked : state.phase thread = .locked)
    (request : state.request thread = .commitTransaction fault ∨
      state.request thread = .rollbackTransaction fault) :
    ∃ steps, state.run mutexOf (List.replicate steps thread) =
      state.advance thread ((state.request thread).perform state.sys).2
        (.leaving ((state.request thread).perform state.sys).1) := by
  by_cases single : state.sys.database.txns.length = 1
  · refine ⟨1, ?_⟩
    rcases request with request | request <;>
      simp [run, step, locked, request, single, Request.perform, System.commitTransaction,
        System.rollbackTransaction, System.popTransaction_single]
  · refine ⟨4, ?_⟩
    rcases request with request | request <;>
      simp [run, step, locked, request, single, Request.perform, System.commitTransaction,
        System.rollbackTransaction, System.popTransaction_pop, withTxn, withTxns]

/-- The loop of `~database`: four steps per nested transaction, and one more to leave it. -/
theorem run_destroy_loop {fault : Option DbError} (request : state.request thread = .destroy fault)
    (locked : state.phase thread = .locked) (nonempty : state.sys.database.txns ≠ []) :
    ∃ steps, state.run mutexOf (List.replicate steps thread) =
      state.advance thread
        ⟨{ state.sys.database with
            txns := (Database.abortNested state.sys.database.txns state.sys.engine.txn).1 },
          { state.sys.engine with
            txn := (Database.abortNested state.sys.database.txns state.sys.engine.txn).2 }⟩
        .closing := by
  obtain ⟨txns, stack⟩ : ∃ txns, state.sys.database.txns = txns := ⟨_, rfl⟩
  induction txns generalizing state with
  | nil => exact absurd stack nonempty
  | cons txn rest ih =>
    cases rest with
    | nil =>
      refine ⟨1, ?_⟩
      simp only [run, step, locked, request, stack, Database.abortNested, List.length_singleton,
        if_true]
      rw [← stack]
    | cons next rest =>
      let popped := state.advance thread
        (withTxn (withTxns state.sys (next :: rest)) (state.sys.engine.txn.abort (some txn) none).2)
        .locked
      obtain ⟨steps, loop⟩ := @ih popped (by simpa [popped] using request)
        (by simp [popped]) (by simp [popped]) (by simp [popped])
      refine ⟨4 + steps, ?_⟩
      rw [List.replicate_add, run_append, show List.replicate 4 thread =
        [thread, thread, thread, thread] from rfl]
      have head : state.run mutexOf [thread, thread, thread, thread] = popped := by
        simp [run, step, locked, request, stack, popped]
      rw [head, loop]
      simp [popped, stack, Database.abortNested, withTxn, withTxns]

theorem run_destroy_body {fault : Option DbError} (request : state.request thread = .destroy fault)
    (locked : state.phase thread = .locked) (nonempty : state.sys.database.txns ≠ []) :
    ∃ steps, state.run mutexOf (List.replicate steps thread) =
      state.advance thread ((state.request thread).perform state.sys).2
        (.leaving ((state.request thread).perform state.sys).1) := by
  obtain ⟨steps, loop⟩ := @run_destroy_loop σ mutexOf state thread fault request locked nonempty
  refine ⟨steps + 1, ?_⟩
  rw [List.replicate_succ', run_append, loop]
  simp [run, step, request, Request.perform, Database.destroy_after_loop]

/-- A thread that runs alone from its first step to its return performs the sequential call. -/
theorem run_alone (idle : state.phase thread = .idle) (free : mutexOf thread ∉ state.held)
    (nonempty : state.sys.database.txns ≠ []) :
    ∃ steps, state.run mutexOf (List.replicate steps thread) =
      state.advance thread ((state.request thread).perform state.sys).2
        (.done ((state.request thread).perform state.sys).1) := by
  set locked := state.step mutexOf thread with locked_eq
  rw [step_lock idle free] at locked_eq
  have phase : locked.phase thread = .locked := by simp [locked_eq]
  obtain ⟨steps, body⟩ : ∃ steps, locked.run mutexOf (List.replicate steps thread) =
      locked.advance thread ((state.request thread).perform state.sys).2
        (.leaving ((state.request thread).perform state.sys).1) := by
    have request : locked.request thread = state.request thread := by simp [locked_eq]
    have sys : locked.sys = state.sys := by simp [locked_eq]
    rw [← request, ← sys]
    cases answer : state.request thread with
    | beginTransaction answer' =>
      rw [request.trans answer]
      exact ⟨2, run_begin_body phase (request.trans answer)⟩
    | commitTransaction fault => exact run_pop_body phase (.inl (request.trans answer))
    | rollbackTransaction fault => exact run_pop_body phase (.inr (request.trans answer))
    | destroy fault => exact run_destroy_body (request.trans answer) phase (sys ▸ nonempty)
  refine ⟨1 + steps + 1, ?_⟩
  rw [List.replicate_add, List.replicate_add, run_append, run_append]
  simp [run, ← locked_eq, body, step_unlock, locked_eq, advance]

/-! ## The locks -/

/-- The locks of a run where every thread locks its own mutex, held inside its call. -/
structure LocalLocks (state : Concurrent σ) : Prop where
  /-- A locked mutex belongs to a thread holding it. -/
  held_critical : ∀ thread ∈ state.held, (state.phase thread).critical
  /-- No mutex is locked twice. -/
  nodup : state.held.Nodup

theorem LocalLocks.step (locks : LocalLocks state) : LocalLocks (state.step localMutex thread) := by
  rcases step_cases localMutex state thread with
    ⟨-, -, stays⟩ | ⟨-, free, locks'⟩ | ⟨report, -, unlocks⟩ | ⟨-, sys, phase, critical, moves⟩ |
      stays
  · rw [stays]; exact locks
  · rw [locks']
    refine ⟨fun other member => ?_, List.nodup_cons.mpr ⟨free, locks.nodup⟩⟩
    rcases List.mem_cons.mp member with rfl | member
    · simp [localMutex, Phase.critical]
    · have : other ≠ thread := fun same => free (same ▸ member)
      simpa [advance_phase, this] using locks.held_critical other member
  · rw [unlocks]
    refine ⟨fun other member => ?_, locks.nodup.erase _⟩
    obtain ⟨other_ne, member⟩ := (locks.nodup.mem_erase_iff).mp member
    have : other ≠ thread := other_ne
    simpa [advance_phase, this] using locks.held_critical other member
  · rw [moves]
    refine ⟨fun other member => ?_, locks.nodup⟩
    by_cases same : other = thread
    · simpa [advance_phase, same] using critical
    · simpa [advance_phase, same] using locks.held_critical other member
  · rw [stays]; exact locks

theorem LocalLocks.run (locks : LocalLocks state) (schedule : List Nat) :
    LocalLocks (state.run localMutex schedule) := by
  induction schedule generalizing state with
  | nil => exact locks
  | cons thread schedule ih => exact ih locks.step

/-- With the library's locking no lock waits: a thread not yet started locks at its next step. -/
theorem localMutex_never_waits (unlocked : state.held = []) (schedule : List Nat)
    (idle : (state.run localMutex schedule).phase thread = .idle) :
    (state.run localMutex schedule).step localMutex thread =
      { (state.run localMutex schedule).advance thread (state.run localMutex schedule).sys .locked with
        held := thread :: (state.run localMutex schedule).held } := by
  have locks := (show LocalLocks state from ⟨by simp [unlocked], by simp [unlocked]⟩).run schedule
  refine step_lock idle fun member => ?_
  simpa [idle, Phase.critical] using locks.held_critical thread member

/-- The locks of a run where every call locks one `mutex`: at most one thread inside its call. -/
structure SharedLock (mutex : Nat) (state : Concurrent σ) : Prop where
  /-- At most one thread holds the lock. -/
  exclusive : ∀ thread other, (state.phase thread).critical → (state.phase other).critical →
    thread = other
  /-- The mutex is locked exactly when a thread holds it. -/
  locked_iff : mutex ∈ state.held ↔ ∃ thread, (state.phase thread).critical
  /-- Only `mutex` is ever locked. -/
  only : ∀ locked ∈ state.held, locked = mutex
  /-- It is locked at most once. -/
  nodup : state.held.Nodup

theorem SharedLock.step {mutex : Nat} (lock : SharedLock mutex state) :
    SharedLock mutex (state.step (fun _ => mutex) thread) := by
  rcases step_cases (fun _ => mutex) state thread with
    ⟨-, -, stays⟩ | ⟨-, free, locks⟩ | ⟨report, leaving, unlocks⟩ | ⟨before, sys, phase, critical, moves⟩ |
      stays
  · rw [stays]; exact lock
  · have outside : ∀ other, (state.phase other).critical = false := fun other =>
      Bool.not_eq_true _ ▸ fun inside => free (lock.locked_iff.mpr ⟨other, inside⟩)
    rw [locks]
    refine ⟨fun one two => ?_, ?_, ?_, List.nodup_cons.mpr ⟨free, lock.nodup⟩⟩
    · by_cases first : one = thread <;> by_cases second : two = thread <;>
        simp [advance_phase, first, second, outside]
    · exact iff_of_true (List.mem_cons_self _ _) ⟨thread, by simp [Phase.critical]⟩
    · simpa using lock.only
  · have inside : (state.phase thread).critical := by simp [leaving, Phase.critical]
    have alone : state.held = [mutex] := by
      have all := List.count_eq_length.mpr fun locked member => (lock.only locked member).symm
      have once := List.nodup_iff_count_le_one.mp lock.nodup mutex
      have some := List.length_pos_of_mem (lock.locked_iff.mpr ⟨thread, inside⟩)
      show state.held = List.replicate 1 mutex
      exact List.eq_replicate_iff.mpr ⟨by omega, lock.only⟩
    have outside : ∀ other, ((state.advance thread state.sys (.done report)).phase other).critical =
        false := fun other => by
      by_cases same : other = thread
      · simp [advance_phase, same, Phase.critical]
      · simpa [advance_phase, same] using fun critical => same (lock.exclusive _ _ critical inside)
    rw [unlocks]
    refine ⟨fun one _ critical => absurd critical (by simp [outside]), ?_, ?_, ?_⟩ <;>
      simp [alone, outside]
  · have same_critical : ∀ other,
        ((state.advance thread sys phase).phase other).critical = (state.phase other).critical :=
      fun other => by by_cases same : other = thread <;> simp [advance_phase, same, before, critical]
    rw [moves]
    exact ⟨by simpa [same_critical] using lock.exclusive, by simpa [same_critical] using lock.locked_iff,
      lock.only, lock.nodup⟩
  · rw [stays]; exact lock

theorem SharedLock.run {mutex : Nat} (lock : SharedLock mutex state) (schedule : List Nat) :
    SharedLock mutex (state.run (fun _ => mutex) schedule) := by
  induction schedule generalizing state with
  | nil => exact lock
  | cons thread schedule ih => exact ih lock.step

/-- Were every call to lock one shared mutex, no two threads would be inside their calls at once. -/
theorem sharedMutex_exclusive (mutex : Nat) (unlocked : state.held = [])
    (outside : ∀ thread, (state.phase thread).critical = false) (schedule : List Nat)
    (thread other : Nat) (inside : ((state.run (fun _ => mutex) schedule).phase thread).critical)
    (inside' : ((state.run (fun _ => mutex) schedule).phase other).critical) : thread = other :=
  ((show SharedLock mutex state from ⟨fun one _ critical => absurd critical (by simp [outside]),
    by simp [unlocked, outside], by simp [unlocked], by simp [unlocked]⟩).run schedule).exclusive
    thread other inside inside'

end Concurrent

/-! ## Two threads beginning at once -/

/-- A database object on a fresh engine and two threads calling `begin_transaction`. -/
def twoBegins : Concurrent Unit where
  sys := ⟨⟨some 0, some 1, [0], [], []⟩,
    ⟨((TxnTable.empty ()).create none).2,
      ((Handles.empty.alloc .env).2.alloc (.db { file := some "__seq.db" })).2⟩⟩
  request _ := .beginTransaction .ok
  phase _ := .idle
  held := []

/-- Both threads pass transaction 0 as the parent to `txn_begin`, leaving 2 over 1 with 2 a child of
0: no chain. Both serial orders leave 2 a child of 1. -/
theorem begin_transaction_race :
    ((twoBegins.run localMutex [0, 1]).phase 0).critical = true ∧
      ((twoBegins.run localMutex [0, 1]).phase 1).critical = true ∧
      (twoBegins.run localMutex [0, 1, 0, 1, 0, 1, 0, 1]).sys.database.txns = [2, 1, 0] ∧
      (twoBegins.run localMutex [0, 1, 0, 1, 0, 1, 0, 1]).sys.engine.txn.parentOf 2 =
        some (some 0) ∧
      ¬ Chain (twoBegins.run localMutex [0, 1, 0, 1, 0, 1, 0, 1]).sys.engine.txn.parentOf
        [2, 1, 0] ∧
      ((twoBegins.sys.beginTransaction .ok).2.beginTransaction .ok).2.database.txns = [2, 1, 0] ∧
      ((twoBegins.sys.beginTransaction .ok).2.beginTransaction .ok).2.engine.txn.parentOf 2 =
        some (some 1) := by
  refine ⟨rfl, rfl, rfl, rfl, fun chain => ?_, rfl, rfl⟩
  cases chain with
  | child found _ _ => exact absurd found (by decide)

end Bdb
