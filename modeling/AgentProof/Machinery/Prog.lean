import AgentProof.Machinery.Executions
import Mathlib.Data.Nat.Notation
import Mathlib.Logic.Function.Basic
import Mathlib.Logic.Relation
import Mathlib.Tactic.Basic

/-!
# Machinery/Prog — programs that issue commands to a shared server

A `Prog` is what one party does between its commands: it has ended, or it issues a command and goes
on with the answer, which may be an exception.  The same program is run in two ways:

* **alone** — `Prog.exec` answers its commands one after the other;
* **among others** — `Threads.Step` lets any party issue its next command on the shared state, so a
  run is an interleaving.

A handler answers a command in circumstances `ω` nobody controls: the time, a fresh id, a fault.
-/

namespace Machinery

/-- A program over the commands `Cmd`, answered at `Resp`, that returns an `α` or raises an `ε`. -/
inductive Prog (ε Cmd : Type) (Resp : Cmd → Type) (α : Type) where
  | done (r : Except ε α)
  | call (c : Cmd) (k : Except ε (Resp c) → Prog ε Cmd Resp α)

namespace Prog

variable {ε Cmd : Type} {Resp : Cmd → Type} {α β : Type}

/-- Go on with the outcome of a program, whatever it is: the body of a `try`. -/
def andThen : Prog ε Cmd Resp α → (Except ε α → Prog ε Cmd Resp β) → Prog ε Cmd Resp β
  | done r, f => f r
  | call c k, f => call c fun r => (k r).andThen f

/-- Go on where a program returns. -/
def bind (p : Prog ε Cmd Resp α) (f : α → Prog ε Cmd Resp β) : Prog ε Cmd Resp β :=
  p.andThen fun
    | .ok a => f a
    | .error e => done (.error e)

instance instMonad : Monad (Prog ε Cmd Resp) where
  pure a := done (.ok a)
  bind := bind

/-- Issue one command. -/
def perform (c : Cmd) : Prog ε Cmd Resp (Resp c) := call c done

/-- A computation that issues no command. -/
def lift (r : Except ε α) : Prog ε Cmd Resp α := done r

@[simp] theorem pure_eq (a : α) : (pure a : Prog ε Cmd Resp α) = done (.ok a) := rfl

@[simp] theorem done_ok_bind (a : α) (f : α → Prog ε Cmd Resp β) :
    ((done (.ok a) : Prog ε Cmd Resp α) >>= f) = f a := rfl

@[simp] theorem done_error_bind (e : ε) (f : α → Prog ε Cmd Resp β) :
    ((done (.error e) : Prog ε Cmd Resp α) >>= f) = done (.error e) := rfl

@[simp] theorem call_bind (c : Cmd) (k : Except ε (Resp c) → Prog ε Cmd Resp α)
    (f : α → Prog ε Cmd Resp β) : (call c k >>= f) = call c fun r => k r >>= f := rfl

@[simp] theorem lift_ok_bind (a : α) (f : α → Prog ε Cmd Resp β) :
    ((lift (.ok a) : Prog ε Cmd Resp α) >>= f) = f a := rfl

@[simp] theorem lift_error_bind (e : ε) (f : α → Prog ε Cmd Resp β) :
    ((lift (.error e) : Prog ε Cmd Resp α) >>= f) = done (.error e) := rfl

theorem perform_bind (c : Cmd) (f : Resp c → Prog ε Cmd Resp β) :
    ((perform c : Prog ε Cmd Resp (Resp c)) >>= f) = call c fun r =>
      match r with
      | .ok a => f a
      | .error e => done (.error e) := by
  change call c _ = call c _
  congr 1
  funext r
  rcases r with e | a <;> rfl

/-- Sequencing is associative. -/
protected theorem bind_assoc {γ : Type} (p : Prog ε Cmd Resp α) (f : α → Prog ε Cmd Resp β)
    (g : β → Prog ε Cmd Resp γ) : p >>= f >>= g = p >>= fun a => f a >>= g := by
  induction p with
  | done r => cases r <;> rfl
  | call c k ih =>
    simp only [call_bind]
    congr 1
    funext r
    exact ih r

protected theorem id_map (p : Prog ε Cmd Resp α) : id <$> p = p := by
  induction p with
  | done r => cases r <;> rfl
  | call c k ih => exact congrArg (call c) (funext ih)

instance instLawfulMonad : LawfulMonad (Prog ε Cmd Resp) :=
  LawfulMonad.mk' _ Prog.id_map (fun _ _ => rfl) Prog.bind_assoc

/-- Every command the program can issue satisfies `P`, whatever the answers. -/
inductive Only (P : Cmd → Prop) : Prog ε Cmd Resp α → Prop where
  | done (r : Except ε α) : Only P (.done r)
  | call {c : Cmd} {k : Except ε (Resp c) → Prog ε Cmd Resp α} (hc : P c)
      (hk : ∀ r, Only P (k r)) : Only P (.call c k)

namespace Only

variable {P : Cmd → Prop}

theorem perform {c : Cmd} (hc : P c) : Only P (perform c : Prog ε Cmd Resp (Resp c)) :=
  .call hc .done

theorem lift (r : Except ε α) : Only P (lift r : Prog ε Cmd Resp α) := .done r

theorem bind {p : Prog ε Cmd Resp α} {f : α → Prog ε Cmd Resp β} (hp : Only P p)
    (hf : ∀ a, Only P (f a)) : Only P (p >>= f) := by
  induction hp with
  | done r =>
    cases r with
    | ok a => exact hf a
    | error e => exact .done _
  | call hc _ ih => exact .call hc ih

theorem mono {Q : Cmd → Prop} {p : Prog ε Cmd Resp α} (hp : Only P p) (h : ∀ c, P c → Q c) :
    Only Q p := by
  induction hp with
  | done r => exact .done r
  | call hc _ ih => exact .call (h _ hc) ih

end Only

/-! ## Alone -/

/-- How commands are answered: in some circumstances, on the shared state. -/
abbrev Handler (ε Cmd : Type) (Resp : Cmd → Type) (ω σ : Type) : Type :=
  ω → (c : Cmd) → σ → Except ε (Resp c) × σ

variable {ω σ : Type}

/-- The outcome of a program run alone, and the state it leaves; its `n`-th command is answered in
the circumstances `oracle n`. -/
def exec (handler : Handler ε Cmd Resp ω σ) :
    Prog ε Cmd Resp α → (oracle : ℕ → ω) → σ → Except ε α × σ
  | done r, _, s => (r, s)
  | call c k, oracle, s =>
    exec handler (k (handler (oracle 0) c s).1) (fun n => oracle (n + 1))
      (handler (oracle 0) c s).2

@[simp] theorem exec_done (handler : Handler ε Cmd Resp ω σ) (r : Except ε α) (oracle : ℕ → ω)
    (s : σ) : exec handler (done r) oracle s = (r, s) := rfl

theorem exec_call (handler : Handler ε Cmd Resp ω σ) (c : Cmd)
    (k : Except ε (Resp c) → Prog ε Cmd Resp α) (oracle : ℕ → ω) (s : σ) :
    exec handler (call c k) oracle s =
      exec handler (k (handler (oracle 0) c s).1) (fun n => oracle (n + 1))
        (handler (oracle 0) c s).2 := rfl

/-- **The invariant rule**: what every command keeps, a program keeps. -/
theorem exec_invariant {handler : Handler ε Cmd Resp ω σ} {P : σ → Prop}
    (hstep : ∀ w c s, P s → P (handler w c s).2) :
    ∀ (p : Prog ε Cmd Resp α) (oracle : ℕ → ω) {s : σ}, P s → P (exec handler p oracle s).2
  | done _, _, _, hs => hs
  | call c k, oracle, s, hs =>
    exec_invariant hstep (k (handler (oracle 0) c s).1) (fun n => oracle (n + 1))
      (hstep (oracle 0) c s hs)

/-- **The invariant rule for a fragment**: what the commands of a fragment keep, its programs keep. -/
theorem Only.exec_invariant {handler : Handler ε Cmd Resp ω σ} {C : Cmd → Prop} {P : σ → Prop}
    (hstep : ∀ w c s, C c → P s → P (handler w c s).2) {p : Prog ε Cmd Resp α} (hp : Only C p) :
    ∀ (oracle : ℕ → ω) {s : σ}, P s → P (exec handler p oracle s).2 := by
  induction hp with
  | done r => exact fun _ _ hs => hs
  | call hc _ ih => exact fun oracle s hs => ih _ _ (hstep (oracle 0) _ s hc hs)

/-- What a program does with the outcome of another changes nothing but the outcome. -/
theorem exec_map (handler : Handler ε Cmd Resp ω σ) (f : α → β) :
    ∀ (p : Prog ε Cmd Resp α) (oracle : ℕ → ω) (s : σ),
      (f <$> p).exec handler oracle s =
        ((p.exec handler oracle s).1.map f, (p.exec handler oracle s).2)
  | done (.ok _), _, _ => rfl
  | done (.error _), _, _ => rfl
  | call c k, oracle, s => exec_map handler f (k (handler (oracle 0) c s).1) _ _

/-- A command that is answered, and what follows. -/
theorem exec_perform_bind {handler : Handler ε Cmd Resp ω σ} {c : Cmd} {oracle : ℕ → ω} {s : σ}
    {a : Resp c} (h : (handler (oracle 0) c s).1 = .ok a) (f : Resp c → Prog ε Cmd Resp β) :
    ((perform c : Prog ε Cmd Resp (Resp c)) >>= f).exec handler oracle s =
      (f a).exec handler (fun n => oracle (n + 1)) (handler (oracle 0) c s).2 := by
  rw [perform_bind, exec_call, h]

/-- A command in the body of a `try`. -/
theorem exec_perform_andThen (handler : Handler ε Cmd Resp ω σ) (c : Cmd)
    (f : Except ε (Resp c) → Prog ε Cmd Resp β) (oracle : ℕ → ω) (s : σ) :
    ((perform c : Prog ε Cmd Resp (Resp c)).andThen f).exec handler oracle s =
      (f (handler (oracle 0) c s).1).exec handler (fun n => oracle (n + 1))
        (handler (oracle 0) c s).2 := rfl

/-! ### On a larger server -/

section Embed

variable {Cmd' : Type} {Resp' : Cmd' → Type} {ω' σ' : Type} {inject : Cmd → Cmd'}
  {answer : ∀ c, Resp' (inject c) → Resp c}

/-- The program with its commands sent to a larger server, and the answers read back. -/
def embed (inject : Cmd → Cmd') (answer : ∀ c, Resp' (inject c) → Resp c) :
    Prog ε Cmd Resp α → Prog ε Cmd' Resp' α
  | done r => done r
  | call c k => call (inject c) fun r => (k (r.map (answer c))).embed inject answer

/-- A server that answers the injected commands from a part of its state, and leaves the rest. -/
structure Extends (handler' : Handler ε Cmd' Resp' ω' σ') (handler : Handler ε Cmd Resp ω σ)
    (inject : Cmd → Cmd') (answer : ∀ c, Resp' (inject c) → Resp c) (circumstance : ω' → ω)
    (view : σ' → σ)
    (put : σ' → σ → σ') : Prop where
  view_put : ∀ s a, view (put s a) = a
  put_view : ∀ s, put s (view s) = s
  put_put : ∀ s a b, put (put s a) b = put s b
  answer : ∀ w c s, (handler' w (inject c) s).1.map (answer c) =
    (handler (circumstance w) c (view s)).1
  state : ∀ w c s, (handler' w (inject c) s).2 = put s (handler (circumstance w) c (view s)).2

/-- **The program does on the larger server what it does on its own.** -/
theorem Extends.exec_embed {handler' : Handler ε Cmd' Resp' ω' σ'} {handler : Handler ε Cmd Resp ω σ}
    {circumstance : ω' → ω} {view : σ' → σ} {put : σ' → σ → σ'}
    (h : Extends handler' handler inject answer circumstance view put) :
    ∀ (p : Prog ε Cmd Resp α) (oracle : ℕ → ω') (s : σ'),
      (p.embed inject answer).exec handler' oracle s =
        ((p.exec handler (fun n => circumstance (oracle n)) (view s)).1,
          put s (p.exec handler (fun n => circumstance (oracle n)) (view s)).2)
  | done r, oracle, s => by rw [embed, exec_done, exec_done, h.put_view]
  | call c k, oracle, s => by
    rw [embed, exec_call, exec_call, h.exec_embed, h.answer, h.state, h.view_put, h.put_put]

end Embed

end Prog

/-! ## Among others -/

/-- A shared state and the program each party still has to run. -/
structure Threads (ε Cmd : Type) (Resp : Cmd → Type) (σ ι α : Type) where
  shared : σ
  thread : ι → Prog ε Cmd Resp α

namespace Threads

variable {ε Cmd : Type} {Resp : Cmd → Type} {ω σ ι α : Type} [DecidableEq ι]

/-- Party `i` moves on to a program, and the shared state with it. -/
def advance (t : Threads ε Cmd Resp σ ι α) (i : ι) (shared : σ) (program : Prog ε Cmd Resp α) :
    Threads ε Cmd Resp σ ι α where
  shared := shared
  thread := Function.update t.thread i program

section Advance

variable (t : Threads ε Cmd Resp σ ι α) (i : ι) (shared : σ) (program : Prog ε Cmd Resp α)

@[simp] theorem advance_shared : (t.advance i shared program).shared = shared := rfl

@[simp] theorem advance_thread_self : (t.advance i shared program).thread i = program :=
  Function.update_self ..

theorem advance_thread_of_ne {j : ι} (h : j ≠ i) :
    (t.advance i shared program).thread j = t.thread j := Function.update_of_ne h ..

variable {t i shared program} in
/-- What holds of every party, and of the one that moved, holds after the move. -/
theorem forall_advance {Q : ι → Prog ε Cmd Resp α → Prop} (h : ∀ j, Q j (t.thread j))
    (hi : Q i program) (j : ι) : Q j ((t.advance i shared program).thread j) := by
  by_cases hji : j = i
  · subst hji
    rwa [advance_thread_self]
  · rw [advance_thread_of_ne _ _ _ _ hji]
    exact h j

/-- The last of two moves of a party counts. -/
theorem advance_advance (shared' : σ) (program' : Prog ε Cmd Resp α) :
    (t.advance i shared program).advance i shared' program' = t.advance i shared' program' := by
  rw [advance, advance, advance, Function.update_idem]

/-- A party that moves to where it is stays there. -/
theorem advance_self {program : Prog ε Cmd Resp α} (h : t.thread i = program) :
    t.advance i t.shared program = t := by
  rw [advance, ← h, Function.update_eq_self]

end Advance

/-- One party issues its next command. -/
inductive Step (handler : Prog.Handler ε Cmd Resp ω σ) :
    Threads ε Cmd Resp σ ι α → Threads ε Cmd Resp σ ι α → Prop where
  | call {t : Threads ε Cmd Resp σ ι α} {i : ι} {c : Cmd}
      {k : Except ε (Resp c) → Prog ε Cmd Resp α} (hi : t.thread i = .call c k) (w : ω) :
      Step handler t (t.advance i (handler w c t.shared).2 (k (handler w c t.shared).1))

/-- Party `i` issues its next command: `Step`, with the party as a label. -/
inductive Issues (handler : Prog.Handler ε Cmd Resp ω σ) (i : ι) :
    Threads ε Cmd Resp σ ι α → Threads ε Cmd Resp σ ι α → Prop where
  | call {t : Threads ε Cmd Resp σ ι α} {c : Cmd} {k : Except ε (Resp c) → Prog ε Cmd Resp α}
      (hi : t.thread i = .call c k) (w : ω) :
      Issues handler i t (t.advance i (handler w c t.shared).2 (k (handler w c t.shared).1))

omit [DecidableEq ι] in
/-- A party that has ended is not the one that goes on. -/
theorem ne_of_call {t : Threads ε Cmd Resp σ ι α} {i j : ι} {c : Cmd}
    {k : Except ε (Resp c) → Prog ε Cmd Resp α} {r : Except ε α} (hi : t.thread i = .call c k)
    (hj : t.thread j = .done r) : j ≠ i := by
  rintro rfl
  rw [hj] at hi
  cases hi

/-- A party that has ended stays where it is. -/
theorem Issues.thread_of_done {handler : Prog.Handler ε Cmd Resp ω σ} {i j : ι}
    {t t' : Threads ε Cmd Resp σ ι α} {r : Except ε α} (h : Issues handler i t t')
    (hj : t.thread j = .done r) : t'.thread j = .done r := by
  obtain ⟨hi, w⟩ := h
  rw [advance_thread_of_ne _ _ _ _ (ne_of_call hi hj), hj]

/-- A party that has not ended can go on. -/
theorem exists_issues (handler : Prog.Handler ε Cmd Resp ω σ) (w : ω)
    (t : Threads ε Cmd Resp σ ι α) (i : ι) :
    (∃ r, t.thread i = .done r) ∨ ∃ t', Issues handler i t t' := by
  cases hi : t.thread i with
  | done r => exact .inl ⟨r, rfl⟩
  | call c k => exact .inr ⟨_, .call hi w⟩

/-- Parties issue their commands in a given order, in given circumstances. -/
def play (handler : Prog.Handler ε Cmd Resp ω σ) (w : ω) :
    List ι → Threads ε Cmd Resp σ ι α → Option (Threads ε Cmd Resp σ ι α)
  | [], t => some t
  | i :: labels, t =>
    match t.thread i with
    | .done _ => none
    | .call c k =>
      play handler w labels (t.advance i (handler w c t.shared).2 (k (handler w c t.shared).1))

/-- Commands that are issued in an order are an execution. -/
theorem execution_play {handler : Prog.Handler ε Cmd Resp ω σ} {w : ω} :
    ∀ {labels : List ι} {t t' : Threads ε Cmd Resp σ ι α}, play handler w labels t = some t' →
      Execution (Issues handler) t labels t'
  | [], t, _, h => by
    obtain rfl := Option.some.inj h
    exact .nil t
  | i :: labels, t, _, h => by
    rw [play] at h
    cases hi : t.thread i with
    | done r => simp [hi] at h
    | call c k =>
      rw [hi] at h
      exact .cons (.call hi w) (execution_play h)

/-- What a party has ended with. -/
def outcome? (t : Threads ε Cmd Resp σ ι α) (i : ι) : Option (Except ε α) :=
  match t.thread i with
  | .done r => some r
  | .call _ _ => none

/-- The states an interleaving reaches. -/
def Reachable (handler : Prog.Handler ε Cmd Resp ω σ) :
    Threads ε Cmd Resp σ ι α → Threads ε Cmd Resp σ ι α → Prop :=
  Relation.ReflTransGen (Step handler)

/-- **The invariant rule**: what holds at the start and is kept by every step holds of every state
an interleaving reaches. -/
theorem Reachable.invariant {handler : Prog.Handler ε Cmd Resp ω σ}
    {P : Threads ε Cmd Resp σ ι α → Prop} {t t' : Threads ε Cmd Resp σ ι α}
    (h : Reachable handler t t') (hinit : P t)
    (hstep : ∀ u u', P u → Step handler u u' → P u') : P t' := by
  induction h with
  | refl => exact hinit
  | tail _ hlast ih => exact hstep _ _ ih hlast

/-- What one handler does another can do. -/
theorem Reachable.mono {ω' : Type} {handler : Prog.Handler ε Cmd Resp ω σ}
    {handler' : Prog.Handler ε Cmd Resp ω' σ}
    (hhandler : ∀ w c s, ∃ w', handler' w' c s = handler w c s) {t t' : Threads ε Cmd Resp σ ι α}
    (h : Reachable handler t t') : Reachable handler' t t' := by
  refine Relation.ReflTransGen.mono ?_ _ _ h
  rintro t _ @⟨i, c, k, hi, w⟩
  obtain ⟨w', hw⟩ := hhandler w c t.shared
  rw [← hw]
  exact .call hi w'

/-- A program that a party runs alone, to its end, is an interleaving. -/
theorem Reachable.exec (handler : Prog.Handler ε Cmd Resp ω σ) {i : ι} :
    ∀ {p : Prog ε Cmd Resp α} {t : Threads ε Cmd Resp σ ι α} (oracle : ℕ → ω), t.thread i = p →
      Reachable handler t
        (t.advance i (p.exec handler oracle t.shared).2 (.done (p.exec handler oracle t.shared).1))
  | .done r, t, _, hi => by
    rw [Prog.exec_done, advance_self t i hi]
    exact .refl
  | .call c k, t, oracle, hi => by
    have hrest := Reachable.exec handler (fun n => oracle (n + 1))
      (t.advance_thread_self i (handler (oracle 0) c t.shared).2
        (k (handler (oracle 0) c t.shared).1))
    rw [advance_advance] at hrest
    exact .head (.call hi (oracle 0)) hrest

/-! ### Leaving parties out -/

/-- The commands of `own` do not tell `R`-related states apart, and the commands of `foreign` leave
a state related to what it was. -/
structure Frame (handler : Prog.Handler ε Cmd Resp ω σ) (own foreign : Cmd → Prop)
    (R : σ → σ → Prop) : Prop where
  own : ∀ w c s s', own c → R s s' →
    (handler w c s).1 = (handler w c s').1 ∧ R (handler w c s).2 (handler w c s').2
  foreign : ∀ w c s s', foreign c → R s s' → R (handler w c s).2 s'

omit [DecidableEq ι] in
/-- **A program of own commands does the same to related states.** -/
theorem Frame.exec {handler : Prog.Handler ε Cmd Resp ω σ} {own foreign : Cmd → Prop}
    {R : σ → σ → Prop} (h : Frame handler own foreign R) {p : Prog ε Cmd Resp α} (hp : p.Only own) :
    ∀ (oracle : ℕ → ω) {s s' : σ}, R s s' →
      (p.exec handler oracle s).1 = (p.exec handler oracle s').1 ∧
        R (p.exec handler oracle s).2 (p.exec handler oracle s').2 := by
  induction hp with
  | done r => exact fun _ _ _ hs => ⟨rfl, hs⟩
  | call hc _ ih =>
    intro oracle s s' hs
    obtain ⟨hanswer, hstate⟩ := h.own (oracle 0) _ s s' hc hs
    rw [Prog.exec_call, Prog.exec_call, hanswer]
    exact ih _ _ hstate

/-- `u` is `t` without the parties outside `keep`, up to what those do to the shared state. -/
structure Without (own foreign : Cmd → Prop) (R : σ → σ → Prop) (keep : ι → Prop)
    (t : Threads ε Cmd Resp σ ι α) (u : Threads ε Cmd Resp σ { i // keep i } α) : Prop where
  kept : ∀ i, (t.thread i.1).Only own ∧ u.thread i = t.thread i.1
  others : ∀ i, ¬ keep i → (t.thread i).Only foreign
  shared : R t.shared u.shared

section Restrict

variable {handler : Prog.Handler ε Cmd Resp ω σ} {own foreign : Cmd → Prop} {R : σ → σ → Prop}
  {keep : ι → Prop} {t t' : Threads ε Cmd Resp σ ι α} {u : Threads ε Cmd Resp σ { i // keep i } α}

/-- A step of a party that is kept is a step of the rest; any other is none. -/
theorem Without.step (hframe : Frame handler own foreign R) (h : Without own foreign R keep t u)
    (hstep : Step handler t t') :
    ∃ u', Reachable handler u u' ∧ Without own foreign R keep t' u' := by
  obtain @⟨i, c, k, hi, w⟩ := hstep
  by_cases hkeep : keep i
  · obtain ⟨honly, hthread⟩ := h.kept ⟨i, hkeep⟩
    rw [hi] at honly hthread
    cases honly with
    | call hc hk =>
      obtain ⟨hanswer, hshared⟩ := hframe.own w c t.shared u.shared hc h.shared
      refine ⟨_, .single (.call hthread w), fun j => ?_, fun j hj => ?_, hshared⟩
      · by_cases hij : j = ⟨i, hkeep⟩
        · subst hij
          rw [advance_thread_self, advance_thread_self, hanswer]
          exact ⟨hk _, rfl⟩
        · have hne : j.1 ≠ i := fun heq => hij (Subtype.ext heq)
          rw [advance_thread_of_ne _ _ _ _ hij, advance_thread_of_ne _ _ _ _ hne]
          exact h.kept j
      · have hne : j ≠ i := fun heq => hj (heq ▸ hkeep)
        rw [advance_thread_of_ne _ _ _ _ hne]
        exact h.others j hj
  · have honly := h.others i hkeep
    rw [hi] at honly
    cases honly with
    | call hc hk =>
      refine ⟨u, .refl, fun j => ?_, fun j hj => ?_, hframe.foreign w c t.shared u.shared hc h.shared⟩
      · have hne : j.1 ≠ i := fun heq => hkeep (heq ▸ j.2)
        rw [advance_thread_of_ne _ _ _ _ hne]
        exact h.kept j
      · by_cases hij : j = i
        · subst hij
          rw [advance_thread_self]
          exact hk _
        · rw [advance_thread_of_ne _ _ _ _ hij]
          exact h.others j hj

/-- **The frame rule**: parties whose commands are foreign to the others can be left out of an
interleaving. -/
theorem Reachable.restrict (hframe : Frame handler own foreign R)
    (h : Reachable handler t t') (hinit : Without own foreign R keep t u) :
    ∃ u', Reachable handler u u' ∧ Without own foreign R keep t' u' :=
  h.invariant (P := fun v => ∃ u', Reachable handler u u' ∧ Without own foreign R keep v u')
    ⟨u, .refl, hinit⟩ fun _ _ ⟨u', hreach, hwithout⟩ hstep => by
      obtain ⟨u'', hreach', hwithout'⟩ := hwithout.step hframe hstep
      exact ⟨u'', hreach.trans hreach', hwithout'⟩

end Restrict

end Threads

end Machinery
