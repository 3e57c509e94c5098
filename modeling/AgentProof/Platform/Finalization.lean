import AgentProof.Machinery.Executions
import AgentProof.Machinery.Prog
import AgentProof.Platform.Schemas

/-!
# Platform/Finalization — `record_result` in PostgreSQL

`PostgresStore.record_result` as a transaction: a plain `SELECT`, a check and an assignment in the
session's memory, an `UPDATE` by primary key.  Other transactions see the `SELECT` and the commit
and nothing between them, so these two are its steps.

The doc calls finalization one-way.  Nothing ties the commit to the row that was checked, so two
transactions that both read an open execution both finalize it, and the second overwrites the
first (`not_oneWay_of_both_read`); `oneWay_of_execution` says that nothing else breaks the law.
-/

open Machinery Machinery.Prog

namespace AgentProof

/-! ## The database -/

/-- The committed rows of `task_executions`. -/
structure Database where
  taskExecutions : Dict UUID TaskExecution := []

/-- What a session sends: `session.get`, and the commit of a row it loaded and assigned to. -/
inductive RowCommand where
  | get (executionId : UUID)
  | commit (executionId : UUID) (loaded assigned : TaskExecution)

/-- What it gets back. -/
abbrev RowCommand.Resp : RowCommand → Type
  | .get _ => Option TaskExecution
  | .commit _ _ _ => Unit

/-- One column of the `UPDATE`: a session writes the columns whose value it changed. -/
def written {α : Type} [DecidableEq α] (loaded assigned current : α) : α :=
  if loaded = assigned then current else assigned

/-- The `UPDATE` of a row; the three list columns are assigned tuples, which equal no list. -/
def TaskExecution.update (current loaded assigned : TaskExecution) : TaskExecution :=
  { current with
    status := written loaded.status assigned.status current.status
    passed := written loaded.passed assigned.passed current.passed
    finalOutput := written loaded.finalOutput assigned.finalOutput current.finalOutput
    latencyMs := written loaded.latencyMs assigned.latencyMs current.latencyMs
    inputTokens := written loaded.inputTokens assigned.inputTokens current.inputTokens
    outputTokens := written loaded.outputTokens assigned.outputTokens current.outputTokens
    estimatedCostUsd :=
      written loaded.estimatedCostUsd assigned.estimatedCostUsd current.estimatedCostUsd
    missingExpectedActions := assigned.missingExpectedActions
    forbiddenActionsSeen := assigned.forbiddenActionsSeen
    finalStateMismatches := assigned.finalStateMismatches
    finishedAt := written loaded.finishedAt assigned.finishedAt current.finishedAt }

@[simp] theorem written_self {α : Type} [DecidableEq α] (loaded assigned : α) :
    written loaded assigned loaded = assigned := by
  rw [written]
  split <;> [assumption; rfl]

/-- A row that is still as it was loaded becomes the assigned one. -/
theorem TaskExecution.update_finalize (row : TaskExecution) (payload : TaskExecutionResult)
    (now : Timestamp) : row.update row (row.finalize payload now) = row.finalize payload now := by
  simp [update, finalize]

/-- The database at READ COMMITTED: a `SELECT` reads what is committed, and an `UPDATE` by primary
key applies to the committed row, whatever the transaction read before. -/
def Database.handle : Handler PyError RowCommand RowCommand.Resp Unit Database :=
  fun _ command db =>
    match command with
    | .get executionId => (.ok (Dict.get? db.taskExecutions executionId), db)
    | .commit executionId loaded assigned =>
      match Dict.get? db.taskExecutions executionId with
      | none => (.error (.other "StaleDataError" "0 were matched"), db)
      | some current =>
        (.ok (), { db with
          taskExecutions :=
            Dict.set db.taskExecutions executionId (current.update loaded assigned) })

/-! ## The transaction -/

/-- The 409 of `record_result`. -/
def alreadyFinalized : PyError := .httpException 409 "execution already finalized"

/-- `PostgresStore.record_result` -/
def PostgresStore.recordResult (now : Timestamp) (executionId : UUID)
    (payload : TaskExecutionResult) : Prog PyError RowCommand RowCommand.Resp TaskExecution := do
  match ← perform (RowCommand.get executionId) with
  | none => lift (.error (.httpException 404 "task execution not found"))
  | some row =>
    if row.status.terminal then
      lift (.error alreadyFinalized)
    else
      let assigned := row.finalize payload now
      perform (RowCommand.commit executionId row assigned)
      return assigned

/-- A transaction that loaded the row, from its commit on. -/
def PostgresStore.commitResult (executionId : UUID) (row assigned : TaskExecution) :
    Prog PyError RowCommand RowCommand.Resp TaskExecution := do
  perform (RowCommand.commit executionId row assigned)
  return assigned

/-- What the transaction goes on with, from what it read. -/
theorem PostgresStore.recordResult_eq (now : Timestamp) (executionId : UUID)
    (payload : TaskExecutionResult) :
    PostgresStore.recordResult now executionId payload =
      .call (.get executionId) fun
        | .error e => .done (.error e)
        | .ok none => .done (.error (.httpException 404 "task execution not found"))
        | .ok (some row) =>
          if row.status.terminal then .done (.error alreadyFinalized)
          else commitResult executionId row (row.finalize payload now) := by
  rw [recordResult, perform_bind]
  congr 1
  funext r
  rcases r with e | _ | row <;> rfl

/-- A row that is read unchanged is committed as it was assigned. -/
theorem Database.handle_commit {db : Database} {executionId : UUID} {row : TaskExecution}
    (hrow : Dict.get? db.taskExecutions executionId = some row) (payload : TaskExecutionResult)
    (now : Timestamp) (w : Unit) :
    Database.handle w (.commit executionId row (row.finalize payload now)) db =
      (.ok (), { db with
        taskExecutions := Dict.set db.taskExecutions executionId (row.finalize payload now) }) := by
  simp only [handle, hrow, TaskExecution.update_finalize]

/-- The transactions on one execution. -/
abbrev Transactions (ι : Type) : Type :=
  Threads PyError RowCommand RowCommand.Resp Database ι TaskExecution

variable {ι : Type} (now : ι → Timestamp) (executionId : UUID) (payload : ι → TaskExecutionResult)

/-- Each transaction is to record its own result. -/
def Transactions.initial (db : Database) : Transactions ι where
  shared := db
  thread i := PostgresStore.recordResult (now i) executionId (payload i)

/-- The committed row. -/
def Transactions.row? (t : Transactions ι) : Option TaskExecution :=
  Dict.get? t.shared.taskExecutions executionId

/-- **Finalization is one-way**, for an execution whose row was `row`. -/
structure Transactions.OneWay (row : TaskExecution) (t : Transactions ι) : Prop where
  atMostOne : ∀ i j rowᵢ rowⱼ, t.thread i = .done (.ok rowᵢ) → t.thread j = .done (.ok rowⱼ) → i = j
  others : ∀ i e, t.thread i = .done (.error e) → e = alreadyFinalized
  stored : ∀ i rowᵢ, t.thread i = .done (.ok rowᵢ) →
    rowᵢ = row.finalize (payload i) (now i) ∧ t.row? executionId = some rowᵢ
  untouched : (∀ i rowᵢ, t.thread i ≠ .done (.ok rowᵢ)) → t.row? executionId = some row

/-- The transaction is about to commit to a row that is finalized by now. -/
def Transactions.CommitsLate (t : Transactions ι) (i : ι) : Prop :=
  ∃ loaded assigned k current, t.thread i = .call (.commit executionId loaded assigned) k ∧
    t.row? executionId = some current ∧ current.status.terminal = true

/-! ## The runs in which it holds -/

/-- Where a transaction stands that has not won: at its start, before its commit, or refused. -/
inductive Waiting (row : TaskExecution) (i : ι) :
    Prog PyError RowCommand RowCommand.Resp TaskExecution → Prop where
  | start : Waiting row i (PostgresStore.recordResult (now i) executionId (payload i))
  | committing (hopen : row.status.terminal = false) :
      Waiting row i
        (PostgresStore.commitResult executionId row (row.finalize (payload i) (now i)))
  | refused : Waiting row i (.done (.error alreadyFinalized))

/-- The committed row, once `winner` has finalized it. -/
def settledRow (row : TaskExecution) : Option ι → TaskExecution
  | none => row
  | some i => row.finalize (payload i) (now i)

/-- At most one transaction has committed, and the row is what it left. -/
structure Transactions.SettledBy (row : TaskExecution) (winner : Option ι) (t : Transactions ι) :
    Prop where
  row_eq : t.row? executionId = some (settledRow now payload row winner)
  won : ∀ i, winner = some i → t.thread i = .done (.ok (row.finalize (payload i) (now i)))
  waiting : ∀ i, winner ≠ some i → Waiting now executionId payload row i (t.thread i)

variable {now executionId payload} {row : TaskExecution} {winner : Option ι} {t t' : Transactions ι}

/-- A finalized row is terminal. -/
theorem TaskExecution.finalize_terminal (row : TaskExecution) (payload : TaskExecutionResult)
    (now : Timestamp) : (row.finalize payload now).status.terminal = true :=
  payload.outcome.1

namespace Transactions.SettledBy

theorem initial {db : Database} (hrow : Dict.get? db.taskExecutions executionId = some row) :
    SettledBy now executionId payload row none (Transactions.initial now executionId payload db)
    where
  row_eq := hrow
  won i hi := absurd hi (by simp)
  waiting i _ := .start

/-- Only the winner has returned. -/
theorem winner_eq (h : SettledBy now executionId payload row winner t) {i : ι}
    {rowᵢ : TaskExecution} (hi : t.thread i = .done (.ok rowᵢ)) : winner = some i := by
  by_contra hne
  have hwaiting := h.waiting i hne
  rw [hi] at hwaiting
  generalize hp : (Prog.done (.ok rowᵢ) :
    Prog PyError RowCommand RowCommand.Resp TaskExecution) = p at hwaiting
  cases hwaiting <;> cases hp

/-- A transaction that goes on has not won. -/
theorem ne_of_call (h : SettledBy now executionId payload row winner t) {i : ι} {c : RowCommand}
    {k : Except PyError c.Resp → Prog PyError RowCommand RowCommand.Resp TaskExecution}
    (hi : t.thread i = .call c k) : winner ≠ some i := by
  intro hwin
  have hwon := h.won i hwin
  rw [hi] at hwon
  cases hwon

/-- **Where at most one has committed, finalization is one-way.** -/
theorem oneWay (h : SettledBy now executionId payload row winner t) :
    t.OneWay now executionId payload row where
  atMostOne i j _ _ hi hj := Option.some.inj ((h.winner_eq hi).symm.trans (h.winner_eq hj))
  others i e hi := by
    have hne : winner ≠ some i := by
      intro hwin
      have hwon := h.won i hwin
      rw [hi] at hwon
      cases hwon
    have hwaiting := h.waiting i hne
    rw [hi] at hwaiting
    generalize hp : (Prog.done (.error e) :
      Prog PyError RowCommand RowCommand.Resp TaskExecution) = p at hwaiting
    cases hwaiting with
    | start => cases hp
    | committing => cases hp
    | refused => exact Except.error.inj (Prog.done.inj hp)
  stored i rowᵢ hi := by
    have hwin := h.winner_eq hi
    have hwon := h.won i hwin
    rw [hi] at hwon
    obtain rfl := Except.ok.inj (Prog.done.inj hwon)
    refine ⟨rfl, ?_⟩
    rw [h.row_eq, hwin, settledRow]
  untouched hnone := by
    have hrow := h.row_eq
    cases winner with
    | none => exact hrow
    | some i => exact absurd (h.won i rfl) (hnone i _)

variable [DecidableEq ι] {i : ι}

/-- A transaction moves on and leaves the row. -/
theorem advance (h : SettledBy now executionId payload row winner t) (hi : winner ≠ some i)
    {program : Prog PyError RowCommand RowCommand.Resp TaskExecution}
    (hprogram : Waiting now executionId payload row i program) :
    SettledBy now executionId payload row winner (t.advance i t.shared program) where
  row_eq := h.row_eq
  won j hj := by
    have hji : j ≠ i := by
      rintro rfl
      exact hi hj
    rw [t.advance_thread_of_ne _ _ _ hji]
    exact h.won j hj
  waiting := Threads.forall_advance (Q := fun j p => winner ≠ some j →
    Waiting now executionId payload row j p) h.waiting fun _ => hprogram

/-- A transaction wins. -/
theorem win (h : SettledBy now executionId payload row none t) {db : Database}
    (hdb : Dict.get? db.taskExecutions executionId = some (row.finalize (payload i) (now i))) :
    SettledBy now executionId payload row (some i)
      (t.advance i db (.done (.ok (row.finalize (payload i) (now i))))) where
  row_eq := hdb
  won j hj := by
    obtain rfl := Option.some.inj hj
    exact t.advance_thread_self _ _ _
  waiting j hj := by
    have hji : j ≠ i := by
      rintro rfl
      exact hj rfl
    rw [t.advance_thread_of_ne _ _ _ hji]
    exact h.waiting j (by simp)

/-- **Step lemma**: a step that does not commit late leaves at most one winner, and the winner there
was. -/
theorem step (h : SettledBy now executionId payload row winner t)
    (hstep : Threads.Issues Database.handle i t t') (hlate : ¬ t.CommitsLate executionId i) :
    ∃ winner', SettledBy now executionId payload row winner' t' ∧
      ∀ j, winner = some j → winner' = some j := by
  obtain ⟨hi, w⟩ := hstep
  have hwin := h.ne_of_call hi
  have hwaiting := h.waiting i hwin
  have hrow := h.row_eq
  generalize hp : t.thread i = p at hwaiting
  cases hwaiting with
  | start =>
    rw [PostgresStore.recordResult_eq] at hp
    obtain ⟨rfl, hk⟩ := Prog.call.inj (hi.symm.trans hp)
    obtain rfl := eq_of_heq hk
    have hread : Dict.get? t.shared.taskExecutions executionId =
        some (settledRow now payload row winner) := hrow
    refine ⟨winner, h.advance hwin ?_, fun _ => id⟩
    simp only [Database.handle, hread]
    split
    case isTrue => exact .refused
    case isFalse hopen =>
      -- an open row that is read is the one there was before any commit
      cases winner with
      | none => exact .committing (Bool.eq_false_of_not_eq_true hopen)
      | some j => exact absurd (row.finalize_terminal (payload j) (now j)) hopen
  | committing hopen =>
    obtain ⟨rfl, hk⟩ := Prog.call.inj (hi.symm.trans hp)
    obtain rfl := eq_of_heq hk
    cases winner with
    | some j =>
      exact absurd ⟨row, _, _, _, hi, hrow, row.finalize_terminal (payload j) (now j)⟩ hlate
    | none =>
      have hread : Dict.get? t.shared.taskExecutions executionId = some row := hrow
      rw [Database.handle_commit hread]
      exact ⟨some i, h.win (Dict.get?_set_self ..), fun j hj => absurd hj (by simp)⟩
  | refused =>
    rw [hi] at hp
    cases hp

end Transactions.SettledBy

/-- **A late commit breaks it**: two transactions have returned. -/
theorem Transactions.SettledBy.not_oneWay [DecidableEq ι] {i : ι}
    (h : SettledBy now executionId payload row winner t)
    (hstep : Threads.Issues Database.handle i t t') (hlate : t.CommitsLate executionId i) :
    ¬ t'.OneWay now executionId payload row := by
  obtain ⟨loaded, assigned, k, current, hi, hcurrent, hterminal⟩ := hlate
  have hwin := h.ne_of_call hi
  have hwaiting := h.waiting i hwin
  generalize hp : t.thread i = p at hwaiting
  cases hwaiting with
  | start =>
    rw [hi, PostgresStore.recordResult_eq] at hp
    cases hp
  | refused =>
    rw [hi] at hp
    cases hp
  | committing hopen =>
    have hrow := h.row_eq
    obtain ⟨j, rfl⟩ : ∃ j, winner = some j := by
      cases winner with
      | some j => exact ⟨j, rfl⟩
      | none =>
        obtain rfl : current = row := Option.some.inj (hcurrent.symm.trans hrow)
        exact absurd hterminal (by simp [hopen])
    intro honeWay
    have hj := hstep.thread_of_done (h.won j rfl)
    obtain ⟨hi', w⟩ := hstep
    obtain ⟨rfl, hk⟩ := Prog.call.inj (hi'.symm.trans hp)
    obtain rfl := eq_of_heq hk
    have hread : Dict.get? t.shared.taskExecutions executionId =
        some (settledRow now payload row (some j)) := hrow
    have hanswer : (Database.handle w
        (.commit executionId row (row.finalize (payload i) (now i))) t.shared).1 = .ok () := by
      simp only [Database.handle, hread]
    have hi := t.advance_thread_self i (Database.handle w
      (.commit executionId row (row.finalize (payload i) (now i))) t.shared).2
      (.done (.ok (row.finalize (payload i) (now i))))
    rw [hanswer] at honeWay hj
    exact hwin (congrArg some (honeWay.atMostOne j i _ _ hj hi))

/-- A step of transaction `i` that does not commit late. -/
def Transactions.TimelyStep [DecidableEq ι] (executionId : UUID) (i : ι) (t t' : Transactions ι) :
    Prop :=
  Threads.Issues Database.handle i t t' ∧ ¬ t.CommitsLate executionId i

/-- **Finalization is one-way in every run that commits no transaction late**, and a next step
breaks it exactly if it commits late: for any number of transactions and any interleaving. -/
theorem oneWay_of_execution [DecidableEq ι] {db : Database}
    (hrow : Dict.get? db.taskExecutions executionId = some row) {labels : List ι}
    (h : Execution (Transactions.TimelyStep executionId)
      (Transactions.initial now executionId payload db) labels t) :
    t.OneWay now executionId payload row ∧
      (∀ i (t' : Transactions ι), Threads.Issues Database.handle i t t' →
        (t'.OneWay now executionId payload row ↔ ¬ t.CommitsLate executionId i)) ∧
      ∀ i rowᵢ, t.thread i = .done (.ok rowᵢ) → ∀ labels' (t' : Transactions ι),
        Execution (Transactions.TimelyStep executionId) t labels' t' →
        t'.row? executionId = some rowᵢ := by
  obtain ⟨winner, hsettled⟩ : ∃ winner, t.SettledBy now executionId payload row winner := by
    refine h.invariant (P := fun _ (t : Transactions ι) =>
      ∃ winner, t.SettledBy now executionId payload row winner) ⟨none, .initial hrow⟩ ?_
    rintro _ i u u' ⟨winner, hsettled⟩ ⟨hstep, hlate⟩
    obtain ⟨winner', hsettled', -⟩ := hsettled.step hstep hlate
    exact ⟨winner', hsettled'⟩
  refine ⟨hsettled.oneWay, fun i t' hstep => ⟨fun honeWay hlate => ?_, fun hlate => ?_⟩, ?_⟩
  · exact hsettled.not_oneWay hstep hlate honeWay
  · obtain ⟨winner', hsettled', -⟩ := hsettled.step hstep hlate
    exact hsettled'.oneWay
  · intro i rowᵢ hi labels' t' h'
    obtain rfl := hsettled.winner_eq hi
    have hsettled' : t'.SettledBy now executionId payload row (some i) := by
      refine h'.invariant (P := fun _ (t : Transactions ι) =>
        t.SettledBy now executionId payload row (some i)) hsettled ?_
      rintro _ j u u' hu ⟨hstep, hlate⟩
      obtain ⟨winner', hu', hwinner⟩ := hu.step hstep hlate
      obtain rfl := hwinner i rfl
      exact hu'
    have hwon := hsettled.won i rfl
    rw [hi] at hwon
    obtain rfl := Except.ok.inj (Prog.done.inj hwon)
    exact hsettled'.row_eq

/-! ### Two workers, one execution -/

/-- An execution that is to be run. -/
def pendingExecution : TaskExecution where
  id := "execution"
  runId := "run"
  taskId := "customer_refund_within_policy"
  taskSeed := 1
  createdAt := 0

/-- Two results for it: `false` failed, `true` passed. -/
def rivalResult (passed : Bool) : TaskExecutionResult where
  status := bif passed then .passed else .failed
  passed := passed
  finalOutput := bif passed then "Refund completed." else "[max_steps exceeded without a final answer]"
  latencyMs := 100
  inputTokens := 30
  outputTokens := 12
  estimatedCostUsd := .fin 0
  finalOutput_ne := by cases passed <;> decide
  cost_nonneg := PyFloat.zero_nonneg
  outcome := by cases passed <;> simp [TerminalStatusMatchesOutcome, ExecutionStatus.terminal]

/-- Two transactions that are to record them. -/
def rivals : Transactions Bool :=
  Transactions.initial (fun _ => 1) "execution" rivalResult ⟨[("execution", pendingExecution)]⟩

/-- **Both read the open execution, and both finalize it**: the second result replaces the
first. -/
theorem not_oneWay_of_both_read :
    ∃ t : Transactions Bool,
      Execution (Threads.Issues Database.handle) rivals [true, false, true, false] t ∧
      t.thread true = .done (.ok (pendingExecution.finalize (rivalResult true) 1)) ∧
      t.row? "execution" = some (pendingExecution.finalize (rivalResult false) 1) ∧
      ¬ Transactions.OneWay (fun _ => 1) "execution" rivalResult pendingExecution t := by
  have hrun : ∃ t : Transactions Bool,
      Execution (Threads.Issues Database.handle) rivals [true, false, true, false] t ∧
      t.thread true = .done (.ok (pendingExecution.finalize (rivalResult true) 1)) ∧
      t.thread false = .done (.ok (pendingExecution.finalize (rivalResult false) 1)) ∧
      t.row? "execution" = some (pendingExecution.finalize (rivalResult false) 1) :=
    ⟨_, .snoc (.snoc (.snoc (.snoc (.nil _) (.call rfl ())) (.call rfl ())) (.call rfl ()))
      (.call rfl ()), rfl, rfl, rfl⟩
  obtain ⟨t, hrun, htrue, hfalse, hrow⟩ := hrun
  exact ⟨t, hrun, htrue, hrow, fun h => absurd (h.atMostOne _ _ _ _ htrue hfalse) (by decide)⟩

/-- One transaction commits before the other reads. -/
theorem oneWay_of_execution_serial :
    ∃ t, Execution (Transactions.TimelyStep "execution") rivals [true, true, false] t ∧
      t.thread false = .done (.error alreadyFinalized) ∧
      Transactions.OneWay (fun _ => 1) "execution" rivalResult pendingExecution t := by
  have hrun : ∃ t, Execution (Transactions.TimelyStep "execution") rivals [true, true, false] t ∧
      t.thread false = .done (.error alreadyFinalized) := by
    refine ⟨_, .snoc (.snoc (.snoc (.nil _) ⟨.call rfl (), ?_⟩) ⟨.call rfl (), ?_⟩)
      ⟨.call rfl (), ?_⟩, rfl⟩
    · rintro ⟨_, _, _, _, h, -⟩
      cases h
    · rintro ⟨_, _, _, _, h, -⟩
      cases h
    · -- the commit: the row is still open
      rintro ⟨_, _, _, _, -, h, hterminal⟩
      cases h
      cases hterminal
  obtain ⟨t, hrun, hrefused⟩ := hrun
  exact ⟨t, hrun, hrefused, (oneWay_of_execution rfl hrun).1⟩

end AgentProof
