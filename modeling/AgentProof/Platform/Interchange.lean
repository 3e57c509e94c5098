import AgentProof.Platform.Mirror

/-!
# Platform/Interchange — the two stores, side by side

The same operations on a `PlatformStore` and on a `PostgresStore`, one after the other.  The
in-memory store does by hand what the constraints of the database do, but for one of them: it does
not ask whether the id of an event is taken.  `interchangeable_iff` says that this is all there is
between them.
-/

open Machinery Machinery.Prog

namespace AgentProof

/-- The two stores. -/
structure Stores where
  memory : PlatformStore := {}
  database : Tables := {}

/-- An operation on both.  Each store has its own clock, and a `SELECT` its order. -/
structure StoresCall extends StoreCall where
  commitTime : Timestamp
  scans : ℕ → Scan

namespace Stores

variable [Interpreter] [Sha256]

/-- The operation in memory. -/
def inMemory (call : StoresCall) (stores : Stores) : Except PyError StoreReply × PlatformStore :=
  stores.memory.perform call.now call.newId call.op

/-- The operation in the database, on the ids that store has generated. -/
def inDatabase (σ : UUID → UUID) (call : StoresCall) (stores : Stores) :
    Except PyError StoreReply × Tables :=
  (PostgresStore.transaction call.commitTime (σ call.newId) (call.op.rename σ)).exec Tables.handle
    call.scans stores.database

/-- What the operation leaves of both. -/
def next (σ : UUID → UUID) (call : StoresCall) (stores : Stores) : Stores where
  memory := (inMemory call stores).2
  database := (inDatabase σ call stores).2

/-- **Both give the same outcome.** -/
def Agree (σ : UUID → UUID) (call : StoresCall) (stores : Stores) : Prop :=
  SameOutcome σ (inMemory call stores).1 (inDatabase σ call stores).1

/-- The id that is offered is new. -/
def Fresh (call : StoresCall) (stores : Stores) : Prop := call.newId ∉ stores.memory.ids

instance (call : StoresCall) (stores : Stores) : Decidable (Fresh call stores) :=
  inferInstanceAs (Decidable (¬ _))

/-- The operation takes no event id again. -/
def NewEventId (call : StoresCall) (stores : Stores) : Prop :=
  ¬ stores.memory.ReusesEventId call.op

instance (call : StoresCall) (stores : Stores) : Decidable (NewEventId call stores) :=
  inferInstanceAs (Decidable (¬ _))

variable {σ : UUID → UUID} {calls : List StoresCall}

/-- **Run lemma**: stores that mirror each other agree as long as no event id is taken again, and no
longer. -/
theorem along_agree_iff (hσ : Function.Injective σ) {stores : Stores}
    (hstore : stores.memory.WellFormed) (hmirror : Mirrors σ stores.memory stores.database)
    (hfresh : Along (next σ) Fresh calls stores) :
    Along (next σ) (Agree σ) calls stores ↔ Along (next σ) NewEventId calls stores := by
  refine along_iff
    (R := fun stores => stores.memory.WellFormed ∧ Mirrors σ stores.memory stores.database)
    (fun call stores hstores hnew => ⟨fun hagree hreuses => ?_, fun hid => ?_⟩)
    (fun call stores hstores hnew hid => ⟨?_, ?_⟩) ⟨hstore, hmirror⟩ hfresh
  · exact hstores.2.not_sameOutcome hσ hreuses hagree
  · exact (hstores.2.corresponds hstores.1 hσ hnew hid).1
  · exact hstores.1.effect hnew (PlatformStore.perform_effect _ _ _ _)
  · exact (hstores.2.corresponds hstores.1 hσ hnew hid).2

end Stores

/-- **The two stores are interchangeable exactly along the sequences that append no event, to an
execution that exists and at a number that is free, under the id of an event there is.** -/
theorem interchangeable_iff [Interpreter] [Sha256] {σ : UUID → UUID} {calls : List StoresCall}
    (hσ : Function.Injective σ) (hfresh : Along (Stores.next σ) Stores.Fresh calls {}) :
    Along (Stores.next σ) (Stores.Agree σ) calls {} ↔
      Along (Stores.next σ) Stores.NewEventId calls {} :=
  Stores.along_agree_iff hσ .empty .empty hfresh

/-! ### Two sessions -/

/-- The ids of the database, beside those of the in-memory store. -/
def databaseId (id : UUID) : UUID := "database:" ++ id

theorem databaseId_injective : Function.Injective databaseId := by
  intro a b h
  rw [databaseId, databaseId, ← String.toList_inj, String.toList_append, String.toList_append] at h
  exact String.toList_inj.mp (List.append_cancel_left h)

/-- The calls of a session, on both stores. -/
def onBoth (calls : List StoreCall) : List StoresCall :=
  calls.map fun call => { call with commitTime := call.now + 1, scans := default }

/-- An execution, and what was appended to it. -/
def readBack : List StoreCall :=
  [⟨.getTrace "execution", 10, ""⟩, ⟨.getRunExecutions "run", 11, ""⟩,
    ⟨.getJudgeVerdicts "execution", 12, ""⟩, ⟨.getTrace "unused", 13, ""⟩]

/-- Two events of one id, at different numbers. -/
def twoEvents : List StoreCall :=
  session.take 4 ++
    [⟨.appendTraceEvent "execution" (customerEvent "event" 0), 5, ""⟩,
      ⟨.appendTraceEvent "execution" (customerEvent "event" 1), 6, ""⟩]

theorem interchangeable_iff_session :
    let _ := cpython
    let _ := sha256
    Along (Stores.next databaseId) (Stores.Agree databaseId) (onBoth (session ++ readBack)) {} := by
  intro _ _
  have hfresh : Along (Stores.next databaseId) Stores.Fresh (onBoth (session ++ readBack)) {} := by
    decide +kernel
  have hnew : Along (Stores.next databaseId) Stores.NewEventId (onBoth (session ++ readBack)) {} := by
    decide +kernel
  exact (interchangeable_iff databaseId_injective hfresh).mpr hnew

/-- **The in-memory store takes the second event, the database refuses it.** -/
theorem not_interchangeable :
    let _ := cpython
    let _ := sha256
    Along (Stores.next databaseId) Stores.Fresh (onBoth twoEvents) {} ∧
      ¬ Along (Stores.next databaseId) (Stores.Agree databaseId) (onBoth twoEvents) {} := by
  intro _ _
  have hfresh : Along (Stores.next databaseId) Stores.Fresh (onBoth twoEvents) {} := by
    decide +kernel
  have hreuses : ¬ Along (Stores.next databaseId) Stores.NewEventId (onBoth twoEvents) {} := by
    decide +kernel
  exact ⟨hfresh, fun hagree =>
    hreuses ((Stores.along_agree_iff databaseId_injective .empty .empty hfresh).mp hagree)⟩

end AgentProof
