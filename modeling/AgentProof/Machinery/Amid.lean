import AgentProof.Machinery.Prog
import AgentProof.Machinery.Raising

/-!
# Machinery/Amid — reading a state that others change

A program of reads, each answered by the state as it is by then; between two reads others move the
state on.  While nothing moves, it is what its parts compute (`Amid.of_answered`).
-/

namespace Machinery

namespace Prog

open Machinery.Raising

variable {ε Cmd : Type} {Resp : Cmd → Type} {σ α β : Type}

/-! ## In a state that stands still -/

/-- What a program of reads computes of the answers. -/
def answered (answer : (c : Cmd) → Except ε (Resp c)) : Prog ε Cmd Resp α → Except ε α
  | done r => r
  | call c k => answered answer (k (answer c))

/-- What it computes of the answers before and after a move that comes after so many reads. -/
def answeredTwice (before after : (c : Cmd) → Except ε (Resp c)) :
    ℕ → Prog ε Cmd Resp α → Except ε α
  | 0, p => answered after p
  | _ + 1, done r => r
  | n + 1, call c k => answeredTwice before after n (k (before c))

section

variable (answer : (c : Cmd) → Except ε (Resp c))

/-- A program is its parts, one after the other. -/
theorem answered_bind (p : Prog ε Cmd Resp α) (f : α → Prog ε Cmd Resp β) :
    answered answer (p >>= f) = answered answer p >>= fun a => answered answer (f a) := by
  induction p with
  | done r => cases r <;> rfl
  | call c k ih => exact ih _

/-- A loop is the loop over what its rounds compute. -/
theorem answered_mapM (f : α → Prog ε Cmd Resp β) (as : List α) :
    answered answer (as.mapM f) = as.mapM fun a => answered answer (f a) := by
  induction as with
  | nil => rfl
  | cons a as ih =>
    rw [List.mapM_cons, List.mapM_cons, answered_bind]
    refine except_bind_congr fun b _ => ?_
    rw [answered_bind, ih]
    rfl

end

/-! ## In a state that others change -/

/-- **A program of reads among others**: it starts in one state and ends in another, with an
outcome; before every read the others may move the state on. -/
inductive Amid (moves : σ → σ → Prop) (answer : (c : Cmd) → σ → Except ε (Resp c)) :
    Prog ε Cmd Resp α → σ → σ → Except ε α → Prop
  | done (r : Except ε α) (s : σ) : Amid moves answer (done r) s s r
  | call {c : Cmd} {k : Except ε (Resp c) → Prog ε Cmd Resp α} {s s' s'' : σ} {r : Except ε α}
      (hwait : moves s s') (h : Amid moves answer (k (answer c s')) s' s'' r) :
      Amid moves answer (call c k) s s'' r

namespace Amid

variable {moves : σ → σ → Prop} {answer : (c : Cmd) → σ → Except ε (Resp c)}
  {s s' : σ}

/-- **While nothing moves**, a program has the outcome it computes. -/
theorem of_answered (hrefl : ∀ s, moves s s) (s : σ) : ∀ p : Prog ε Cmd Resp α,
    Amid moves answer p s s (answered (fun c => answer c s) p)
  | .done r => .done r s
  | .call c k => .call (hrefl s) (of_answered hrefl s (k (answer c s)))

/-- **If all moves come at once**, after so many reads, a program has the outcome it computes. -/
theorem exists_of_answeredTwice (hrefl : ∀ s, moves s s) (hmove : moves s s') :
    ∀ (n : ℕ) (p : Prog ε Cmd Resp α), ∃ s'', (s'' = s ∨ s'' = s') ∧ Amid moves answer p s s''
      (answeredTwice (fun c => answer c s) (fun c => answer c s') n p)
  | 0, .done r | _ + 1, .done r => ⟨s, .inl rfl, .done r s⟩
  | 0, .call c k => ⟨s', .inr rfl, .call hmove (of_answered hrefl s' (k (answer c s')))⟩
  | n + 1, .call c k => by
    obtain ⟨s'', hs'', h⟩ := exists_of_answeredTwice hrefl hmove n (k (answer c s))
    exact ⟨s'', hs'', .call (hrefl s) h⟩

/-- Time passes. -/
theorem moves_of (hrefl : ∀ s, moves s s) (htrans : ∀ {s s' s''}, moves s s' → moves s' s'' →
    moves s s'') {p : Prog ε Cmd Resp α} {r : Except ε α} (h : Amid moves answer p s s' r) :
    moves s s' := by
  induction h with
  | done r s => exact hrefl s
  | call hwait _ ih => exact htrans hwait ih

/-- **The parts of a program**, one after the other. -/
theorem bind {p : Prog ε Cmd Resp α} {f : α → Prog ε Cmd Resp β} {r : Except ε β}
    (h : Amid moves answer (p >>= f) s s' r) :
    (∃ a s₁, Amid moves answer p s s₁ (.ok a) ∧ Amid moves answer (f a) s₁ s' r) ∨
      ∃ e, Amid moves answer p s s' (.error e) ∧ r = .error e := by
  induction p generalizing s with
  | done x =>
    cases x with
    | ok a => exact .inl ⟨a, s, .done _ _, h⟩
    | error e =>
      cases h with
      | done => exact .inr ⟨e, .done _ _, rfl⟩
  | call c k ih =>
    cases h with
    | call hwait h =>
      rcases ih _ h with ⟨a, s₁, hp, hf⟩ | ⟨e, hp, rfl⟩
      · exact .inl ⟨a, s₁, .call hwait hp, hf⟩
      · exact .inr ⟨e, .call hwait hp, rfl⟩

/-- A read that is answered, and what follows. -/
theorem perform_bind {c : Cmd} {f : Resp c → Prog ε Cmd Resp β} {r : Except ε β}
    (h : Amid moves answer ((perform c : Prog ε Cmd Resp (Resp c)) >>= f) s s' r)
    {a : σ → Resp c} (hanswer : ∀ s₁, moves s s₁ → answer c s₁ = .ok (a s₁)) :
    ∃ s₁, moves s s₁ ∧ Amid moves answer (f (a s₁)) s₁ s' r := by
  rw [Prog.perform_bind] at h
  cases h with
  | @call _ _ _ s₁ _ _ hwait h =>
    rw [hanswer s₁ hwait] at h
    exact ⟨s₁, hwait, h⟩

/-- **The rule for a loop**: what every round ends with, whenever it is run between two states, is
what the loop lists. -/
theorem mapM (hrefl : ∀ s, moves s s) (htrans : ∀ {s s' s''}, moves s s' → moves s' s'' →
    moves s s'') {f : α → Prog ε Cmd Resp β} {Q : α → β → Prop} {start final : σ} :
    ∀ {as : List α}, (∀ a ∈ as, ∀ s s' r, moves start s → moves s' final →
      Amid moves answer (f a) s s' r → ∃ b, r = .ok b ∧ Q a b) →
    ∀ {s s' : σ} {r : Except ε (List β)}, moves start s → moves s' final →
      Amid moves answer (as.mapM f) s s' r → ∃ bs, r = .ok bs ∧ List.Forall₂ Q as bs
  | [], _, s, s', r, _, _, h => by
    cases h with
    | done => exact ⟨[], rfl, .nil⟩
  | a :: as, hround, s, s', r, hstart, hfinal, h => by
    rw [List.mapM_cons] at h
    rcases h.bind with ⟨b, s₁, hfirst, hrest⟩ | ⟨e, hfirst, rfl⟩
    · have hmoves := hfirst.moves_of hrefl htrans
      have hmoves' := hrest.moves_of hrefl htrans
      obtain ⟨b', hb', hQ⟩ := hround a (.head _) _ _ _ hstart (htrans hmoves' hfinal) hfirst
      obtain rfl := Except.ok.inj hb'
      rcases hrest.bind with ⟨bs, s₂, hloop, hreturn⟩ | ⟨e, hloop, rfl⟩
      · have hmoves'' := hreturn.moves_of hrefl htrans
        obtain ⟨bs', hbs, hall⟩ := mapM hrefl htrans
          (fun a ha => hround a (.tail _ ha)) (htrans hstart hmoves) (htrans hmoves'' hfinal) hloop
        obtain rfl := Except.ok.inj hbs
        cases hreturn with
        | done => exact ⟨b :: bs, rfl, .cons hQ hall⟩
      · obtain ⟨bs', hbs, -⟩ := mapM hrefl htrans
          (fun a ha => hround a (.tail _ ha)) (htrans hstart hmoves) hfinal hloop
        cases hbs
    · obtain ⟨b, hb, -⟩ := hround a (.head _) _ _ _ hstart hfinal hfirst
      cases hb

end Amid

end Prog

end Machinery
