import AgentProof.Machinery.Atomicity

/-!
# Machinery/Blocks — commands that are carried out by programs

A program over one kind of commands is run on a server for another: each of its commands is carried
out by a program of its own, its *block* (`Prog.expand`).  Other parties then come between the
commands of a block.

If the blocks are atomic, it is as if each were run alone, at the time of its last command: an
interleaving of the expanded programs is one of the programs themselves (`Blockwise.step`).
-/

namespace Machinery

namespace Prog

variable {ε Cmd Cmd' : Type} {Resp : Cmd → Type} {Resp' : Cmd' → Type} {ω σ α : Type}

/-- The program, with every command carried out by its block. -/
def expand (block : (c : Cmd) → Prog ε Cmd' Resp' (Resp c)) :
    Prog ε Cmd Resp α → Prog ε Cmd' Resp' α
  | done r => done r
  | call c k => (block c).andThen fun r => (k r).expand block

/-- Commands are answered by their blocks, run alone. -/
def ofBlocks (handler : Handler ε Cmd' Resp' ω σ) (block : (c : Cmd) → Prog ε Cmd' Resp' (Resp c)) :
    Handler ε Cmd Resp (ℕ → ω) σ :=
  fun oracle c s => (block c).exec handler oracle s

/-- The program, with the circumstances of its commands sent along. -/
def supply (oracle : ℕ → ω) : Prog ε Cmd Resp α → Prog ε (Cmd × ω) (fun c => Resp c.1) α
  | done r => done r
  | call c k => call (c, oracle 0) fun r => (k r).supply fun n => oracle (n + 1)

/-- What may be left of a program after some of its commands. -/
inductive Residual (p : Prog ε Cmd Resp α) : Prog ε Cmd Resp α → Prop where
  | refl : Residual p p
  | answer {c : Cmd} {k : Except ε (Resp c) → Prog ε Cmd Resp α} (h : Residual p (.call c k))
      (r : Except ε (Resp c)) : Residual p (k r)

/-- What is left of a program issues no other commands. -/
theorem Only.residual {P : Cmd → Prop} {p q : Prog ε Cmd Resp α} (hp : Only P p)
    (h : Residual p q) : Only P q := by
  induction h with
  | refl => exact hp
  | answer _ r ih =>
    cases ih with
    | call _ hk => exact hk r

section

variable (handler : Handler ε Cmd' Resp' ω σ) (grows : σ → σ → Prop) (timely : Cmd' → σ → Prop)
  (block : (c : Cmd) → Prog ε Cmd' Resp' (Resp c))

/-- A party that is to run the first program runs the second: both have ended, or some of the block
of the next command is left, which is atomic. -/
def Stands (s : σ) (p : Prog ε Cmd Resp α) (q : Prog ε Cmd' Resp' α) : Prop :=
  (∃ r, p = .done r ∧ q = .done r) ∨
    ∃ c k rest, p = .call c k ∧ q = andThen rest (fun r => (k r).expand block) ∧
      Residual (block c) rest ∧ Atomic handler grows timely (block c) rest s

end

variable {handler : Handler ε Cmd' Resp' ω σ} {grows : σ → σ → Prop} {timely : Cmd' → σ → Prop}
  {block : (c : Cmd) → Prog ε Cmd' Resp' (Resp c)} {s s' : σ}

/-- A party at the start of a program. -/
theorem Stands.expand (hblocks : ∀ c, Atomic handler grows timely (block c) (block c) s)
    (p : Prog ε Cmd Resp α) : Stands handler grows timely block s p (p.expand block) := by
  cases p with
  | done r => exact .inl ⟨r, rfl, rfl⟩
  | call c k => exact .inr ⟨c, k, block c, rfl, rfl, .refl, hblocks c⟩

theorem Stands.mono (hgrowth : Growth handler grows) (hs : grows s s') {p : Prog ε Cmd Resp α}
    {q : Prog ε Cmd' Resp' α} (h : Stands handler grows timely block s p q) :
    Stands handler grows timely block s' p q := by
  refine h.imp_right ?_
  rintro ⟨c, k, rest, hp, hq, hresidual, hatomic⟩
  exact ⟨c, k, rest, hp, hq, hresidual, hatomic.mono hgrowth hs⟩

/-- The next command of a party is one of the block it is in. -/
theorem Stands.call {p : Prog ε Cmd Resp α} {c' : Cmd'}
    {k' : Except ε (Resp' c') → Prog ε Cmd' Resp' α}
    (h : Stands handler grows timely block s p (.call c' k')) :
    ∃ c k kRest, p = .call c k ∧ (∀ r, k' r = (kRest r).andThen fun r => (k r).expand block) ∧
      Residual (block c) (.call c' kRest) ∧
      Atomic handler grows timely (block c) (.call c' kRest) s := by
  rcases h with ⟨r, -, hq⟩ | ⟨c, k, rest, hp, hq, hresidual, hatomic⟩
  · cases hq
  · cases rest with
    | done r => exact hatomic.elim
    | call c'' kRest =>
      cases hq
      exact ⟨c, k, kRest, hp, fun _ => rfl, hresidual, hatomic⟩

end Prog

namespace Threads

open Prog (Growth Atomic Stands)

variable {ε Cmd Cmd' : Type} {Resp : Cmd → Type} {Resp' : Cmd' → Type} {ω σ ι α : Type}
  [DecidableEq ι]

section

variable (handler : Prog.Handler ε Cmd' Resp' ω σ) (grows : σ → σ → Prop)
  (timely : Cmd' → σ → Prop) (block : (c : Cmd) → Prog ε Cmd' Resp' (Resp c))

/-- The parties of `t` run what those of `u` are to run. -/
structure Blockwise (t : Threads ε Cmd' Resp' σ ι α) (u : Threads ε Cmd Resp σ ι α) : Prop where
  shared : u.shared = t.shared
  stands : ∀ i, Stands handler grows timely block t.shared (u.thread i) (t.thread i)

end

variable {handler : Prog.Handler ε Cmd' Resp' ω σ} {grows : σ → σ → Prop}
  {timely : Cmd' → σ → Prop} {block : (c : Cmd) → Prog ε Cmd' Resp' (Resp c)}
  {t t' : Threads ε Cmd' Resp' σ ι α} {u : Threads ε Cmd Resp σ ι α}

/-- What is left of a party's program issues no other commands than the program. -/
theorem Reachable.only {handler : Prog.Handler ε Cmd Resp ω σ} {P : ι → Cmd → Prop}
    {v v' : Threads ε Cmd Resp σ ι α} (h : Reachable handler v v')
    (hinit : ∀ i, (v.thread i).Only (P i)) : ∀ i, (v'.thread i).Only (P i) := by
  refine h.invariant (P := fun v => ∀ i, (v.thread i).Only (P i)) hinit ?_
  rintro v v' hv ⟨hi, w⟩ j
  rename_i i c k
  by_cases hji : j = i
  · subst hji
    have honly := hv j
    rw [hi] at honly
    cases honly with
    | call _ hk =>
      rw [advance_thread_self]
      exact hk _
  · rw [advance_thread_of_ne _ _ _ _ hji]
    exact hv j

/-- **Step lemma**: the last command of a block is the command it is for, any other is no step. -/
theorem Blockwise.step (hgrowth : Growth handler grows)
    (hblocks : ∀ s, grows t.shared s → ∀ c, Atomic handler grows timely (block c) (block c) s)
    (h : Blockwise handler grows timely block t u) {i : ι}
    (hstep : IssuesTimely handler timely i t t') :
    Blockwise handler grows timely block t' u ∨
      ∃ u', Issues (Prog.ofBlocks handler block) i u u' ∧
        Blockwise handler grows timely block t' u' := by
  obtain ⟨@⟨c', k', hi, w⟩, htimely⟩ := hstep
  have hs := hgrowth.handle w c' t.shared
  have hstands := h.stands i
  rw [hi] at hstands
  obtain ⟨c, k, kRest, hu, hk', hresidual, hatomic⟩ := hstands.call
  obtain ⟨hreplays, hcall⟩ := hatomic t.shared (hgrowth.refl _) (htimely c' k' hi)
  rcases hcall w with ⟨r, hr⟩ | ⟨hleaves, hrest⟩
  · right
    obtain ⟨oracle, heq⟩ := hreplays fun _ => w
    have hanswer : Prog.ofBlocks handler block oracle c u.shared = (r, (handler w c' t.shared).2) := by
      rw [h.shared, Prog.ofBlocks, heq, Prog.exec_call, hr, Prog.exec_done]
    refine ⟨_, .call hu oracle, ?_, fun j => ?_⟩
    · rw [hanswer]
      rfl
    · rw [hanswer]
      by_cases hji : j = i
      · subst hji
        rw [advance_thread_self, advance_thread_self, hk', hr]
        exact .expand (fun c => hblocks _ hs c) _
      · rw [advance_thread_of_ne _ _ _ _ hji, advance_thread_of_ne _ _ _ _ hji]
        exact (h.stands j).mono hgrowth hs
  · refine .inl ⟨h.shared.trans hleaves.symm, fun j => ?_⟩
    by_cases hji : j = i
    · subst hji
      rw [advance_thread_self, hu, hk']
      exact .inr ⟨c, k, _, rfl, rfl, hresidual.answer _, hleaves.symm ▸ hrest⟩
    · rw [advance_thread_of_ne _ _ _ _ hji]
      exact (h.stands j).mono hgrowth hs

end Threads

end Machinery
