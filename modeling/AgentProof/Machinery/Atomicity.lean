import AgentProof.Machinery.Prog

/-!
# Machinery/Atomicity — programs among others that could have run alone

Other parties may come between the commands of a program.  It is *atomic* all the same if it leaves
the shared state until its last command, and if whatever is left of it does at any time what the
whole program would do, were it to begin then (`Prog.Atomic`).

`Threads.serializable`: an interleaving of atomic programs is an execution in which the parties run
alone, one after the other, each at the time of its last command — with the same answers, and the
same shared state.
-/

namespace Machinery

namespace Prog

variable {ε Cmd : Type} {Resp : Cmd → Type} {ω σ α β : Type} {handler : Handler ε Cmd Resp ω σ}

/-! ## What is left of a program -/

/-- Run alone from `s`, the first program can do whatever the second does. -/
def Replays (handler : Handler ε Cmd Resp ω σ) (p q : Prog ε Cmd Resp α) (s : σ) : Prop :=
  ∀ oracle, ∃ oracle', p.exec handler oracle' s = q.exec handler oracle s

theorem Replays.refl (p : Prog ε Cmd Resp α) (s : σ) : Replays handler p p s :=
  fun oracle => ⟨oracle, rfl⟩

theorem Replays.trans {p q r : Prog ε Cmd Resp α} {s : σ} (h : Replays handler p q s)
    (h' : Replays handler q r s) : Replays handler p r s := by
  intro oracle
  obtain ⟨oracle', heq'⟩ := h' oracle
  obtain ⟨oracle'', heq⟩ := h oracle'
  exact ⟨oracle'', heq.trans heq'⟩

/-- A command that leaves the state can be issued first. -/
theorem Replays.call {c : Cmd} {k : Except ε (Resp c) → Prog ε Cmd Resp α} {s : σ} {w : ω}
    {r : Except ε (Resp c)} (h : handler w c s = (r, s)) : Replays handler (call c k) (k r) s := by
  intro oracle
  refine ⟨fun n => n.casesOn w oracle, ?_⟩
  change (k (handler w c s).1).exec handler oracle (handler w c s).2 = _
  rw [h]

theorem Replays.map {p q : Prog ε Cmd Resp α} {s : σ} (h : Replays handler p q s) (f : α → β) :
    Replays handler (f <$> p) (f <$> q) s := by
  intro oracle
  obtain ⟨oracle', heq⟩ := h oracle
  exact ⟨oracle', by rw [exec_map, exec_map, heq]⟩

section

variable (handler) (grows : σ → σ → Prop) (timely : Cmd → σ → Prop)

/-- `p` is atomic, with the second program left of it at `s`: however the state grows, what is left
does what `p` would, and leaves the state until its last command.  Commands are issued when they are
timely. -/
def Atomic (p : Prog ε Cmd Resp α) : Prog ε Cmd Resp α → σ → Prop
  | done _, _ => False
  | call c k, s => ∀ s', grows s s' → timely c s' → Replays handler p (call c k) s' ∧
      ∀ w, (∃ r, k (handler w c s').1 = done r) ∨
        (handler w c s').2 = s' ∧ Atomic p (k (handler w c s').1) s'

/-- What the commands of a system may do to its state. -/
structure Growth : Prop where
  refl : ∀ s, grows s s
  trans : ∀ {s s' s''}, grows s s' → grows s' s'' → grows s s''
  handle : ∀ w c s, grows s (handler w c s).2

end

variable {grows : σ → σ → Prop} {timely : Cmd → σ → Prop}

namespace Atomic

/-- A program stays atomic while the state grows. -/
theorem mono (hgrowth : Growth handler grows) {p q : Prog ε Cmd Resp α} {s s' : σ}
    (h : Atomic handler grows timely p q s) (hs : grows s s') :
    Atomic handler grows timely p q s' := by
  cases q with
  | done r => exact h
  | call c k => exact fun s'' hs' => h s'' (hgrowth.trans hs hs')

theorem map {p : Prog ε Cmd Resp α} (f : α → β) :
    ∀ {q : Prog ε Cmd Resp α} {s : σ}, Atomic handler grows timely p q s →
      Atomic handler grows timely (f <$> p) (f <$> q) s := by
  intro q
  induction q with
  | done r => exact fun h => h.elim
  | call c k ih =>
    intro s h s' hs htimely
    obtain ⟨hreplays, hcall⟩ := h s' hs htimely
    refine ⟨hreplays.map f, fun w => ?_⟩
    rcases hcall w with ⟨r, hr⟩ | ⟨hleaves, hrest⟩
    · refine .inl ⟨r.map f, ?_⟩
      change f <$> k (handler w c s').1 = _
      rw [hr]
      rcases r with e | a <;> rfl
    · exact .inr ⟨hleaves, ih _ hrest⟩

variable {p : Prog ε Cmd Resp α} {c : Cmd} {k : Except ε (Resp c) → Prog ε Cmd Resp α} {s : σ}

/-- A program at its last command. -/
theorem last (hreplays : ∀ s', grows s s' → timely c s' → Replays handler p (.call c k) s')
    (h : ∀ w s', ∃ r, k (handler w c s').1 = done r) :
    Atomic handler grows timely p (.call c k) s :=
  fun s' hs htimely => ⟨hreplays s' hs htimely, fun w => .inl (h w s')⟩

/-- A program of one command is atomic. -/
theorem single (h : ∀ w s', ∃ r, k (handler w c s').1 = done r) :
    Atomic handler grows timely (.call c k) (.call c k) s :=
  last (fun s' _ _ => .refl _ s') h

/-- A program at its first command, which leaves the state. -/
theorem read (answer : σ → Except ε (Resp c)) (hread : ∀ w s', handler w c s' = (answer s', s'))
    (h : ∀ s', grows s s' → (∃ r, k (answer s') = done r) ∨
      Atomic handler grows timely (.call c k) (k (answer s')) s') :
    Atomic handler grows timely (.call c k) (.call c k) s := by
  refine fun s' hs _ => ⟨.refl _ s', fun w => ?_⟩
  rw [hread w s']
  exact (h s' hs).imp_right fun hatomic => ⟨rfl, hatomic⟩

/-- **Check, then act**: a program that reads, and then issues one command at most, is atomic if it
would read as much later on. -/
theorem check [Nonempty ω] (answer : σ → Except ε (Resp c))
    (hread : ∀ w s', handler w c s' = (answer s', s'))
    (h : ∀ s', grows s s' → (∃ r, k (answer s') = done r) ∨
      ∃ c' k', k (answer s') = .call c' k' ∧ (∀ w s'', ∃ r, k' (handler w c' s'').1 = done r) ∧
        ∀ s'', grows s' s'' → timely c' s'' → k (answer s'') = k (answer s')) :
    Atomic handler grows timely (.call c k) (.call c k) s := by
  refine read answer hread fun s' hs => (h s' hs).imp_right ?_
  rintro ⟨c', k', hk, hlast, hagain⟩
  rw [hk]
  refine last (fun s'' hs' htimely => ?_) hlast
  obtain ⟨w⟩ := ‹Nonempty ω›
  have hreplays : Replays handler (.call c k) (k (answer s'')) s'' := .call (hread w s'')
  rwa [hagain s'' hs' htimely, hk] at hreplays

end Atomic

end Prog

/-! ## Among others -/

namespace Threads

open Prog (Growth Atomic)

variable {ε Cmd : Type} {Resp : Cmd → Type} {ω σ ι α : Type} [DecidableEq ι]
  (handler : Prog.Handler ε Cmd Resp ω σ) (grows : σ → σ → Prop) (timely : Cmd → σ → Prop)

/-- Party `i` issues its next command, and it is timely. -/
def IssuesTimely (i : ι) (t t' : Threads ε Cmd Resp σ ι α) : Prop :=
  Issues handler i t t' ∧ ∀ c k, t.thread i = .call c k → timely c t.shared

/-- Party `i`, which has not ended, runs to its end before any other goes on. -/
inductive RunsAlone (i : ι) : Threads ε Cmd Resp σ ι α → Threads ε Cmd Resp σ ι α → Prop where
  | exec {t : Threads ε Cmd Resp σ ι α} {c : Cmd} {k : Except ε (Resp c) → Prog ε Cmd Resp α}
      (hi : t.thread i = .call c k) (oracle : ℕ → ω) :
      RunsAlone i t (t.advance i ((t.thread i).exec handler oracle t.shared).2
        (.done ((t.thread i).exec handler oracle t.shared).1))

/-- `u` is `t` with the parties that have not ended back at the start. -/
structure Serialized (start t u : Threads ε Cmd Resp σ ι α) : Prop where
  shared : u.shared = t.shared
  starts : ∀ i, ∃ c k, start.thread i = .call c k
  stands : ∀ i, (∃ r, t.thread i = .done r ∧ u.thread i = .done r) ∨
    u.thread i = start.thread i ∧
      Atomic handler grows timely (start.thread i) (t.thread i) t.shared

variable {handler grows timely} {start t t' u : Threads ε Cmd Resp σ ι α}

namespace Serialized

omit [DecidableEq ι] in
theorem initial (h : ∀ i, Atomic handler grows timely (t.thread i) (t.thread i) t.shared) :
    Serialized handler grows timely t t t where
  shared := rfl
  starts i := by
    have hatomic := h i
    cases hi : t.thread i with
    | call c k => exact ⟨c, k, rfl⟩
    | done r =>
      rw [hi] at hatomic
      exact hatomic.elim
  stands i := .inr ⟨rfl, h i⟩

/-- The other parties stand where they stood. -/
theorem stands_of_ne (hgrowth : Growth handler grows) (h : Serialized handler grows timely start t u)
    {i j : ι} (hji : j ≠ i) {s : σ} (hs : grows t.shared s) (p : Prog ε Cmd Resp α) :
    (∃ r, (t.advance i s p).thread j = .done r ∧ u.thread j = .done r) ∨
      u.thread j = start.thread j ∧
        Atomic handler grows timely (start.thread j) ((t.advance i s p).thread j) s := by
  rw [t.advance_thread_of_ne _ _ _ hji]
  exact (h.stands j).imp_right fun hstands => ⟨hstands.1, hstands.2.mono hgrowth hs⟩

/-- **Step lemma**: the last command of a party is the party run alone, any other is no step. -/
theorem step (hgrowth : Growth handler grows) (h : Serialized handler grows timely start t u) {i : ι}
    (hstep : IssuesTimely handler timely i t t') :
    Serialized handler grows timely start t' u ∨
      ∃ u', RunsAlone handler i u u' ∧ Serialized handler grows timely start t' u' := by
  obtain ⟨@⟨c, k, hi, w⟩, htimely⟩ := hstep
  have hs := hgrowth.handle w c t.shared
  rcases h.stands i with ⟨r, hr, -⟩ | ⟨hstart, hatomic⟩
  · rw [hi] at hr
    cases hr
  · rw [hi] at hatomic
    obtain ⟨hreplays, hcall⟩ := hatomic t.shared (hgrowth.refl _) (htimely c k hi)
    rcases hcall w with ⟨r, hr⟩ | ⟨hleaves, hrest⟩
    · right
      obtain ⟨oracle, heq⟩ := hreplays fun _ => w
      have hdone : (u.thread i).exec handler oracle u.shared = (r, (handler w c t.shared).2) := by
        rw [hstart, h.shared, heq, Prog.exec_call, hr, Prog.exec_done]
      obtain ⟨c', k', hcall'⟩ := h.starts i
      refine ⟨_, .exec (hstart.trans hcall') oracle, ?_, h.starts, fun j => ?_⟩
      · rw [hdone]
        rfl
      · by_cases hji : j = i
        · subst hji
          rw [advance_thread_self, advance_thread_self, hdone]
          exact .inl ⟨r, hr, rfl⟩
        · rw [u.advance_thread_of_ne _ _ _ hji]
          exact h.stands_of_ne hgrowth hji hs _
    · refine .inl ⟨h.shared.trans hleaves.symm, h.starts, fun j => ?_⟩
      by_cases hji : j = i
      · subst hji
        rw [advance_thread_self]
        exact .inr ⟨hstart, hleaves.symm ▸ hrest⟩
      · exact h.stands_of_ne hgrowth hji hs _

omit [DecidableEq ι] in
/-- The same parties have ended, with the same outcomes. -/
theorem outcome?_eq (h : Serialized handler grows timely start t u) (i : ι) :
    u.outcome? i = t.outcome? i := by
  rcases h.stands i with ⟨r, ht, hu⟩ | ⟨hu, hatomic⟩
  · rw [outcome?, outcome?, ht, hu]
  · obtain ⟨c, k, hstart⟩ := h.starts i
    cases ht : t.thread i with
    | done r =>
      rw [ht] at hatomic
      exact hatomic.elim
    | call c' k' => rw [outcome?, outcome?, hu, hstart, ht]

end Serialized

variable (handler) in
/-- **The run is serializable**: the parties that have ended could have run alone, one after the
other, to the same outcomes and the same shared state, in an order in which the run issued commands
of theirs. -/
def Serializable (start : Threads ε Cmd Resp σ ι α) (labels : List ι)
    (t : Threads ε Cmd Resp σ ι α) : Prop :=
  ∃ order u, order.Sublist labels ∧ Execution (RunsAlone handler) start order u ∧
    u.shared = t.shared ∧ ∀ i, u.outcome? i = t.outcome? i

/-- **An interleaving of atomic programs is serializable.** -/
theorem serializable (hgrowth : Growth handler grows)
    (hatomic : ∀ i, Atomic handler grows timely (start.thread i) (start.thread i) start.shared)
    {labels : List ι} (h : Execution (IssuesTimely handler timely) start labels t) :
    Serializable handler start labels t := by
  obtain ⟨order, u, hsub, hrun, hserialized⟩ : ∃ order u, order.Sublist labels ∧
      Execution (RunsAlone handler) start order u ∧
      Serialized handler grows timely start t u := by
    refine h.invariant (P := fun labels t => ∃ order u, order.Sublist labels ∧
      Execution (RunsAlone handler) start order u ∧ Serialized handler grows timely start t u)
      ⟨[], start, .slnil, .nil start, .initial hatomic⟩ ?_
    rintro labels i v v' ⟨order, u, hsub, hrun, hserialized⟩ hstep
    rcases hserialized.step hgrowth hstep with hstays | ⟨u', halone, hserialized'⟩
    · exact ⟨order, u, hsub.trans (List.sublist_append_left _ _), hrun, hstays⟩
    · exact ⟨order ++ [i], u', hsub.append (.refl _), hrun.snoc halone, hserialized'⟩
  exact ⟨order, u, hsub, hrun, hserialized.shared, hserialized.outcome?_eq⟩

end Threads

end Machinery
