import Mathlib.Data.List.Forall2
import Mathlib.Tactic.Basic

/-!
# Machinery/Raising — computations that raise and keep their state

`EStateM ε σ` is a computation over a mutable state whose exceptions do not undo what was written
before they were raised.  Two ways to reason about one:

* **by inversion** — `bind_eq_ok` takes a run apart into the runs of its parts;
* **by relating two runs** — `RelatedBy R E x y Q` says that from `R`-related states the two either
  both return, `Q`-related values, or both raise, `E`-related exceptions, and end in `R`-related
  states; `Related R x y Q` does not compare the exceptions.
-/

namespace Machinery

variable {ε ε' σ τ α β γ δ : Type}

/-- A pure computation that may raise, as a step of one over a state. -/
instance instMonadLiftExcept : MonadLift (Except ε) (EStateM ε σ) where
  monadLift x := fun s => match x with
    | .ok a => .ok a s
    | .error e => .error e s

/-- The state a run ends in. -/
def stateOf : EStateM.Result ε σ α → σ
  | .ok _ s => s
  | .error _ s => s

@[simp] theorem stateOf_ok (a : α) (s : σ) : stateOf (.ok a s : EStateM.Result ε σ α) = s := rfl

@[simp] theorem stateOf_error (e : ε) (s : σ) :
    stateOf (.error e s : EStateM.Result ε σ α) = s := rfl

/-- The run returned. -/
def returned : EStateM.Result ε σ α → Bool
  | .ok _ _ => true
  | .error _ _ => false

theorem exists_of_returned {r : EStateM.Result ε σ α} (h : returned r = true) :
    ∃ a s, r = .ok a s := by
  cases r with
  | ok a s => exact ⟨a, s, rfl⟩
  | error e s => exact absurd h (by simp [returned])

namespace Raising

/-! ## One step at a time -/

theorem bind_apply (x : EStateM ε σ α) (f : α → EStateM ε σ β) (s : σ) :
    (x >>= f) s = match x s with
      | .ok a s' => f a s'
      | .error e s' => .error e s' := by
  change EStateM.bind x f s = _
  rw [EStateM.bind]
  cases x s <;> rfl

theorem map_apply (f : α → β) (x : EStateM ε σ α) (s : σ) :
    (f <$> x) s = match x s with
      | .ok a s' => .ok (f a) s'
      | .error e s' => .error e s' := by
  change EStateM.map f x s = _
  rw [EStateM.map]
  cases x s <;> rfl

@[simp] theorem pure_apply (a : α) (s : σ) : (pure a : EStateM ε σ α) s = .ok a s := rfl

@[simp] theorem throw_apply (e : ε) (s : σ) : (throw e : EStateM ε σ α) s = .error e s := rfl

@[simp] theorem lift_ok_apply (a : α) (s : σ) :
    (liftM (Except.ok a : Except ε α) : EStateM ε σ α) s = .ok a s := rfl

@[simp] theorem lift_error_apply (e : ε) (s : σ) :
    (liftM (Except.error e : Except ε α) : EStateM ε σ α) s = .error e s := rfl

@[simp] theorem lift_ok_bind (a : α) (f : α → EStateM ε σ β) :
    (liftM (Except.ok a : Except ε α) >>= f : EStateM ε σ β) = f a := rfl

@[simp] theorem lift_error_bind (e : ε) (f : α → EStateM ε σ β) :
    (liftM (Except.error e : Except ε α) >>= f : EStateM ε σ β) = throw e := rfl

@[simp] theorem throw_bind (e : ε) (f : α → EStateM ε σ β) :
    ((throw e : EStateM ε σ α) >>= f) = throw e := rfl

theorem bind_of_ok {x : EStateM ε σ α} {s s' : σ} {a : α} (h : x s = .ok a s')
    (f : α → EStateM ε σ β) : (x >>= f) s = f a s' := by rw [bind_apply, h]

theorem bind_of_error {x : EStateM ε σ α} {s s' : σ} {e : ε} (h : x s = .error e s')
    (f : α → EStateM ε σ β) : (x >>= f) s = .error e s' := by rw [bind_apply, h]

/-- **Inversion of a run that returns.** -/
theorem bind_eq_ok {x : EStateM ε σ α} {f : α → EStateM ε σ β} {s s' : σ} {b : β} :
    (x >>= f) s = .ok b s' ↔ ∃ a s₁, x s = .ok a s₁ ∧ f a s₁ = .ok b s' := by
  rw [bind_apply]
  cases x s <;> simp [and_assoc]

/-- **Inversion of a run that raises**: the first part raised, or it returned and the second
raised. -/
theorem bind_eq_error {x : EStateM ε σ α} {f : α → EStateM ε σ β} {s s' : σ} {e : ε} :
    (x >>= f) s = .error e s' ↔
      x s = .error e s' ∨ ∃ a s₁, x s = .ok a s₁ ∧ f a s₁ = .error e s' := by
  rw [bind_apply]
  cases x s <;> simp [and_assoc]

@[simp] theorem pure_eq_ok {a b : α} {s s' : σ} :
    (pure a : EStateM ε σ α) s = .ok b s' ↔ a = b ∧ s = s' := by
  rw [pure_apply, EStateM.Result.ok.injEq]

@[simp] theorem lift_eq_ok {x : Except ε α} {a : α} {s s' : σ} :
    (liftM x : EStateM ε σ α) s = .ok a s' ↔ x = .ok a ∧ s = s' := by
  cases x <;> simp

/-- A computation that can be seen to return does. -/
theorem exists_of_isOk {x : Except ε α} (h : x.isOk = true) : ∃ a, x = .ok a := by
  cases x with
  | ok a => exact ⟨a, rfl⟩
  | error e => exact absurd h (by simp [Except.isOk, Except.toBool])

/-- **Inversion of a pure computation that returns.** -/
theorem except_bind_eq_ok {x : Except ε α} {f : α → Except ε β} {b : β} :
    (x >>= f) = .ok b ↔ ∃ a, x = .ok a ∧ f a = .ok b := by
  cases x <;> simp [bind, Except.bind]

/-- Computations that go on alike from what is returned. -/
theorem except_bind_congr {x : Except ε α} {f g : α → Except ε β}
    (h : ∀ a, x = .ok a → f a = g a) : x >>= f = x >>= g := by
  cases x with
  | error e => rfl
  | ok a => exact h a rfl

/-- **What a `mapM` that returns lists**: item by item, what the computation returned. -/
theorem forall₂_of_mapM {f : α → Except ε β} : ∀ {as : List α} {bs : List β},
    as.mapM f = .ok bs → List.Forall₂ (fun a b => f a = .ok b) as bs
  | [], bs, h => by
    obtain rfl : bs = [] := (Except.ok.inj h).symm
    exact .nil
  | a :: as, bs, h => by
    rw [List.mapM_cons] at h
    obtain ⟨b, ha, h⟩ := except_bind_eq_ok.mp h
    obtain ⟨bs', has, h⟩ := except_bind_eq_ok.mp h
    obtain rfl := Except.ok.inj h
    exact .cons ha (forall₂_of_mapM has)

/-- **A `mapM` returns** when the computation returns for each item, and lists what it returned. -/
theorem mapM_eq_ok_iff {f : α → Except ε β} {as : List α} {bs : List β} :
    as.mapM f = .ok bs ↔ List.Forall₂ (fun a b => f a = .ok b) as bs := by
  refine ⟨forall₂_of_mapM, fun h => ?_⟩
  induction h with
  | nil => rfl
  | cons ha _ ih =>
    rw [List.mapM_cons, ha]
    change (List.mapM f _ >>= _) = _
    rw [ih]
    rfl

/-- A computation that undoes `g` up to `h`, on every item of a list. -/
theorem mapM_map_ok {f : β → Except ε γ} {g : α → β} {h : α → γ} (hf : ∀ a, f (g a) = .ok (h a))
    (as : List α) : (as.map g).mapM f = .ok (as.map h) := by
  rw [mapM_eq_ok_iff, List.forall₂_map_left_iff, List.forall₂_map_right_iff, List.forall₂_same]
  exact fun a _ => hf a

/-- A `mapM` returns when the computation returns for each item. -/
theorem exists_mapM_eq_ok {f : α → Except ε β} : ∀ {as : List α},
    (∀ a ∈ as, ∃ b, f a = .ok b) → ∃ bs, as.mapM f = .ok bs
  | [], _ => ⟨[], rfl⟩
  | a :: as, h => by
    obtain ⟨b, hb⟩ := h a List.mem_cons_self
    obtain ⟨bs, hbs⟩ := exists_mapM_eq_ok fun a' ha' => h a' (List.mem_cons_of_mem a ha')
    exact ⟨b :: bs, mapM_eq_ok_iff.mpr (.cons hb (forall₂_of_mapM hbs))⟩

/-- Two lists that agree item by item with a third one agree with each other. -/
theorem forall₂_of_common {r : α → β → Prop} {r' : α → γ → Prop} {q : β → γ → Prop}
    (hq : ∀ a b c, r a b → r' a c → q b c) {as : List α} {bs : List β} {cs : List γ}
    (h : List.Forall₂ r as bs) (h' : List.Forall₂ r' as cs) : List.Forall₂ q bs cs := by
  induction h generalizing cs with
  | nil =>
    cases h'
    exact .nil
  | cons hab _ ih =>
    cases h' with
    | cons hac hrest => exact .cons (hq _ _ _ hab hac) (ih hrest)

/-- Each item of two lists that agree item by item agrees with one of the other list. -/
theorem exists_of_forall₂ {r : α → β → Prop} {as : List α} {bs : List β}
    (h : List.Forall₂ r as bs) :
    (∀ a ∈ as, ∃ b ∈ bs, r a b) ∧ ∀ b ∈ bs, ∃ a ∈ as, r a b := by
  induction h with
  | nil => simp
  | @cons a b as bs hab _ ih =>
    refine ⟨List.forall_mem_cons.mpr ⟨⟨b, List.mem_cons_self, hab⟩, fun a' ha' => ?_⟩,
      List.forall_mem_cons.mpr ⟨⟨a, List.mem_cons_self, hab⟩, fun b' hb' => ?_⟩⟩
    · obtain ⟨b', hb', hab'⟩ := ih.1 a' ha'
      exact ⟨b', List.mem_cons_of_mem b hb', hab'⟩
    · obtain ⟨a', ha', hab'⟩ := ih.2 b' hb'
      exact ⟨a', List.mem_cons_of_mem a ha', hab'⟩

/-- Two lists that agree item by item have the same images. -/
theorem map_eq_map_of_forall₂ {r : α → β → Prop} {f : α → γ} {g : β → γ} {as : List α}
    {bs : List β} (h : List.Forall₂ r as bs) (hfg : ∀ a b, r a b → f a = g b) :
    as.map f = bs.map g := by
  rw [← List.forall₂_eq_eq_eq, List.forall₂_map_left_iff, List.forall₂_map_right_iff]
  exact h.imp hfg

/-- As many items of each list satisfy a predicate, if items that agree do. -/
theorem countP_eq_of_forall₂ {p : α → Bool} {q : β → Bool} {as : List α} {bs : List β}
    (h : List.Forall₂ (fun a b => p a = q b) as bs) : as.countP p = bs.countP q := by
  induction h with
  | nil => rfl
  | cons hab _ ih => rw [List.countP_cons, List.countP_cons, ih, hab]

/-- What a `mapM` that returns lists, it made of one of the items. -/
theorem exists_of_mem_mapM {f : α → Except ε β} {as : List α} {bs : List β} {b : β}
    (h : as.mapM f = .ok bs) (hmem : b ∈ bs) : ∃ a ∈ as, f a = .ok b :=
  (exists_of_forall₂ (forall₂_of_mapM h)).2 b hmem

/-- A `mapM` that returns made something of each item. -/
theorem exists_of_mapM {f : α → Except ε β} {as : List α} {bs : List β} {a : α}
    (h : as.mapM f = .ok bs) (hmem : a ∈ as) : ∃ b ∈ bs, f a = .ok b :=
  (exists_of_forall₂ (forall₂_of_mapM h)).1 a hmem

/-- A check of every item succeeds exactly if each check does. -/
theorem allM_eq_ok_true_iff {α : Type} {p : α → Except ε Bool} {as : List α} :
    as.allM p = .ok true ↔ ∀ a ∈ as, p a = .ok true := by
  induction as with
  | nil => simp [List.allM, pure, Except.pure]
  | cons a as ih =>
    rw [List.allM, except_bind_eq_ok, List.forall_mem_cons, ← ih]
    constructor
    · rintro ⟨_ | _, ha, has⟩
      · cases has
      · exact ⟨ha, has⟩
    · rintro ⟨ha, has⟩
      exact ⟨true, ha, has⟩

/-- What a pure computation returns can be tested. -/
instance decidableExistsOk (x : Except ε α) (P : α → Prop) [DecidablePred P] :
    Decidable (∃ a, x = .ok a ∧ P a) :=
  match x with
  | .ok a => decidable_of_iff (P a) (by simp)
  | .error _ => .isFalse (by simp)

/-- A test of what a pure computation returns, if it does. -/
instance decidableForallOk (x : Except ε α) (P : α → Prop) [DecidablePred P] :
    Decidable (∀ a, x = .ok a → P a) :=
  match x with
  | .ok a => decidable_of_iff (P a) (by simp)
  | .error _ => .isTrue (by simp)

/-! ## A part of the state -/

/-- A computation over a part of the state. -/
def zoom (read : σ → τ) (write : σ → τ → σ) (x : EStateM ε τ α) : EStateM ε σ α := fun s =>
  match x (read s) with
  | .ok a t => .ok a (write s t)
  | .error e t => .error e (write s t)

/-- Run a computation and hand its exception on as a value: the body of a `try`. -/
def attempt (x : EStateM ε σ α) : EStateM ε' σ (Except ε α) := fun s =>
  match x s with
  | .ok a s' => .ok (.ok a) s'
  | .error e s' => .ok (.error e) s'

theorem zoom_eq_ok {read : σ → τ} {write : σ → τ → σ} {x : EStateM ε τ α} {s s' : σ} {a : α} :
    zoom read write x s = .ok a s' ↔ ∃ t, x (read s) = .ok a t ∧ s' = write s t := by
  rw [zoom]
  cases x (read s) <;> simp [eq_comm, and_assoc]

/-! ## What a run may raise -/

/-- From `s`, the computation raises nothing outside `P`. -/
def RaisesOnly (P : ε → Prop) (x : EStateM ε σ α) (s : σ) : Prop :=
  ∀ e s', x s = .error e s' → P e

namespace RaisesOnly

variable {P : ε → Prop} {s : σ}

theorem pure (a : α) : RaisesOnly P (Pure.pure a) s := fun _ _ h => by simp at h

theorem throw {e : ε} (h : P e) : RaisesOnly P (MonadExcept.throw e : EStateM ε σ α) s :=
  fun e' s' h' => by
    obtain ⟨rfl, -⟩ := EStateM.Result.error.inj h'
    exact h

theorem lift {x : Except ε α} (h : ∀ e, x = .error e → P e) :
    RaisesOnly P (liftM x : EStateM ε σ α) s := fun e s' h' => by
  cases x with
  | ok a => simp at h'
  | error e₀ =>
    obtain ⟨rfl, -⟩ := EStateM.Result.error.inj h'
    exact h _ rfl

/-- **The second part is looked at only where the first returned.** -/
theorem bind {x : EStateM ε σ α} {f : α → EStateM ε σ β} (hx : RaisesOnly P x s)
    (hf : ∀ a s', x s = .ok a s' → RaisesOnly P (f a) s') : RaisesOnly P (x >>= f) s :=
  fun e s' h => by
    rcases bind_eq_error.mp h with h | ⟨a, s₁, ha, h⟩
    · exact hx e s' h
    · exact hf a s₁ ha e s' h

theorem map {x : EStateM ε σ α} {f : α → β} (hx : RaisesOnly P x s) :
    RaisesOnly P (f <$> x) s := fun e s' h => by
  rw [map_apply] at h
  cases hs : x s with
  | ok a s₁ => simp [hs] at h
  | error e₀ s₁ =>
    rw [hs] at h
    obtain ⟨rfl, rfl⟩ := EStateM.Result.error.inj h
    exact hx _ _ hs

/-- A pure part that returned `a`. -/
theorem lift_bind {x : Except ε α} {f : α → EStateM ε σ β} (hx : ∀ e, x = .error e → P e)
    (hf : ∀ a, x = .ok a → RaisesOnly P (f a) s) : RaisesOnly P (liftM x >>= f) s :=
  .bind (.lift hx) fun a s' h => by
    obtain ⟨ha, rfl⟩ := lift_eq_ok.mp h
    exact hf a ha

end RaisesOnly

/-! ## Relating two runs -/

/-- Two outcomes agree: both return related values, or both raise related exceptions; either way in
related states. -/
def ResultRelBy (R : σ → τ → Prop) (E : ε → ε' → Prop) (Q : α → β → Prop) :
    EStateM.Result ε σ α → EStateM.Result ε' τ β → Prop
  | .ok a s, .ok b t => Q a b ∧ R s t
  | .error e s, .error e' t => E e e' ∧ R s t
  | _, _ => False

/-- Two outcomes agree: both return related values, or both raise; either way in related states. -/
def ResultRel (R : σ → τ → Prop) (Q : α → β → Prop) :
    EStateM.Result ε σ α → EStateM.Result ε' τ β → Prop
  | .ok a s, .ok b t => Q a b ∧ R s t
  | .error _ s, .error _ t => R s t
  | _, _ => False

theorem resultRel_iff {R : σ → τ → Prop} {Q : α → β → Prop} {r : EStateM.Result ε σ α}
    {r' : EStateM.Result ε' τ β} :
    ResultRel R Q r r' ↔ ResultRelBy R (fun _ _ => True) Q r r' := by
  cases r <;> cases r' <;> simp [ResultRel, ResultRelBy]

/-- Related runs end in related states. -/
theorem ResultRelBy.states {R : σ → τ → Prop} {E : ε → ε' → Prop} {Q : α → β → Prop}
    {r : EStateM.Result ε σ α} {r' : EStateM.Result ε' τ β} (h : ResultRelBy R E Q r r') :
    R (stateOf r) (stateOf r') := by
  cases r <;> cases r' <;> first | exact h.2 | exact h.elim

/-- Related runs end in related states. -/
theorem ResultRel.states {R : σ → τ → Prop} {Q : α → β → Prop}
    {r : EStateM.Result ε σ α} {r' : EStateM.Result ε' τ β} (h : ResultRel R Q r r') :
    R (stateOf r) (stateOf r') := (resultRel_iff.mp h).states

/-- Two pure computations agree, in what they return or in what they raise. -/
def ExceptRelBy (E : ε → ε' → Prop) (Q : α → β → Prop) : Except ε α → Except ε' β → Prop
  | .ok a, .ok b => Q a b
  | .error e, .error e' => E e e'
  | _, _ => False

/-- Two pure computations agree. -/
def ExceptRel (Q : α → β → Prop) : Except ε α → Except ε' β → Prop
  | .ok a, .ok b => Q a b
  | .error _, .error _ => True
  | _, _ => False

theorem exceptRel_iff {Q : α → β → Prop} {x : Except ε α} {y : Except ε' β} :
    ExceptRel Q x y ↔ ExceptRelBy (fun _ _ => True) Q x y := by
  cases x <;> cases y <;> rfl

/-- One pure computation, where what it returns is related to itself. -/
theorem ExceptRelBy.of_ok {Q : α → α → Prop} {x : Except ε α} (h : ∀ a, x = .ok a → Q a a) :
    ExceptRelBy Eq Q x x := by
  cases x with
  | error e => exact rfl
  | ok a => exact h a rfl

/-- A pure computation agrees with itself. -/
theorem ExceptRelBy.refl (x : Except ε α) : ExceptRelBy Eq Eq x x := .of_ok fun _ _ => rfl

/-- A pure computation agrees with itself. -/
theorem ExceptRel.refl (x : Except ε α) : ExceptRel Eq x x := by
  cases x with
  | error e => exact trivial
  | ok a => exact rfl

/-- **The relational triple**: `R`-related states are taken to agreeing outcomes. -/
def RelatedBy (R : σ → τ → Prop) (E : ε → ε' → Prop) (x : EStateM ε σ α) (y : EStateM ε' τ β)
    (Q : α → β → Prop) : Prop :=
  ∀ s t, R s t → ResultRelBy R E Q (x s) (y t)

namespace RelatedBy

variable {R : σ → τ → Prop} {E : ε → ε' → Prop} {Q : α → β → Prop} {P : γ → δ → Prop}

theorem pure {a : α} {b : β} (h : Q a b) :
    RelatedBy R E (Pure.pure a : EStateM ε σ α) (Pure.pure b : EStateM ε' τ β) Q :=
  fun _ _ hst => ⟨h, hst⟩

theorem throw {e : ε} {e' : ε'} (h : E e e') :
    RelatedBy R E (MonadExcept.throw e : EStateM ε σ α) (MonadExcept.throw e' : EStateM ε' τ β) Q :=
  fun _ _ hst => ⟨h, hst⟩

theorem lift {x : Except ε α} {y : Except ε' β} (h : ExceptRelBy E Q x y) :
    RelatedBy R E (liftM x : EStateM ε σ α) (liftM y : EStateM ε' τ β) Q := fun s t hst => by
  cases x <;> cases y <;> first | exact ⟨h, hst⟩ | exact h.elim

/-- A weaker relation of the values. -/
theorem mono {Q' : α → β → Prop} {x : EStateM ε σ α} {y : EStateM ε' τ β}
    (h : RelatedBy R E x y Q) (hQ : ∀ a b, Q a b → Q' a b) : RelatedBy R E x y Q' := by
  intro s t hst
  have h' := h s t hst
  cases hx : x s <;> cases hy : y t <;> rw [hx, hy] at h'
  · exact ⟨hQ _ _ h'.1, h'.2⟩
  · exact h'.elim
  · exact h'.elim
  · exact h'

/-- **Related parts compose.** -/
theorem bind {x : EStateM ε σ α} {y : EStateM ε' τ β} {f : α → EStateM ε σ γ}
    {g : β → EStateM ε' τ δ} (hxy : RelatedBy R E x y Q)
    (hfg : ∀ a b, Q a b → RelatedBy R E (f a) (g b) P) :
    RelatedBy R E (x >>= f) (y >>= g) P := by
  intro s t hst
  have h := hxy s t hst
  rw [bind_apply, bind_apply]
  cases hx : x s <;> cases hy : y t <;> rw [hx, hy] at h
  · exact hfg _ _ h.1 _ _ h.2
  · exact h.elim
  · exact h.elim
  · exact h

/-- Two conditionals on equivalent conditions. -/
theorem ite {c c' : Prop} [Decidable c] [Decidable c'] (hc : c ↔ c')
    {x x' : EStateM ε σ α} {y y' : EStateM ε' τ β} (ht : RelatedBy R E x y Q)
    (he : RelatedBy R E x' y' Q) :
    RelatedBy R E (if c then x else x') (if c' then y else y') Q := by
  by_cases h : c
  · rwa [if_pos h, if_pos (hc.mp h)]
  · rwa [if_neg h, if_neg (fun h' => h (hc.mpr h'))]

/-- **Guards on equivalent conditions**: what follows is looked at only where they pass. -/
theorem guard_not {c c' : Prop} [Decidable c] [Decidable c'] (hc : c ↔ c') {e : ε} {e' : ε'}
    (he : E e e') {f : γ → EStateM ε σ α} {g : δ → EStateM ε' τ β} {x : EStateM ε σ α}
    {y : EStateM ε' τ β} (h : ¬c → RelatedBy R E x y Q) :
    RelatedBy R E (if c then MonadExcept.throw e >>= f else x)
      (if c' then MonadExcept.throw e' >>= g else y) Q := by
  by_cases hthrow : c
  · rw [if_pos hthrow, if_pos (hc.mp hthrow), throw_bind, throw_bind]
    exact throw he
  · rw [if_neg hthrow, if_neg fun h' => hthrow (hc.mpr h')]
    exact h hthrow

/-- Guards, and what follows whether they pass or not. -/
theorem guard {c c' : Prop} [Decidable c] [Decidable c'] (hc : c ↔ c') {e : ε} {e' : ε'}
    (he : E e e') {f : γ → EStateM ε σ α} {g : δ → EStateM ε' τ β} {x : EStateM ε σ α}
    {y : EStateM ε' τ β} (h : RelatedBy R E x y Q) :
    RelatedBy R E (if c then MonadExcept.throw e >>= f else x)
      (if c' then MonadExcept.throw e' >>= g else y) Q :=
  guard_not hc he fun _ => h

/-- A pure part, then what follows. -/
theorem lift_bind {x : Except ε α} {y : Except ε' β} {f : α → EStateM ε σ γ}
    {g : β → EStateM ε' τ δ} (hxy : ExceptRelBy E Q x y)
    (hfg : ∀ a b, Q a b → RelatedBy R E (f a) (g b) P) :
    RelatedBy R E (liftM x >>= f) (liftM y >>= g) P :=
  bind (lift hxy) hfg

/-- Pure parts that return, then what follows. -/
theorem ok_bind {a : α} {b : β} {f : α → EStateM ε σ γ} {g : β → EStateM ε' τ δ}
    (h : RelatedBy R E (f a) (g b) P) :
    RelatedBy R E (liftM (.ok a : Except ε α) >>= f) (liftM (.ok b : Except ε' β) >>= g) P := by
  refine lift_bind (Q := fun x y => x = a ∧ y = b) ⟨rfl, rfl⟩ ?_
  rintro _ _ ⟨rfl, rfl⟩
  exact h

theorem map {x : EStateM ε σ α} {y : EStateM ε' τ β} {f : α → γ} {g : β → δ}
    (h : RelatedBy R E x y Q) (hfg : ∀ a b, Q a b → P (f a) (g b)) :
    RelatedBy R E (f <$> x) (g <$> y) P := by
  intro s t hst
  have h' := h s t hst
  rw [map_apply, map_apply]
  cases hx : x s <;> cases hy : y t <;> rw [hx, hy] at h'
  · exact ⟨hfg _ _ h'.1, h'.2⟩
  · exact h'.elim
  · exact h'.elim
  · exact h'

/-- Parts that return one and the same value, then what follows. -/
theorem bind_same {x : EStateM ε σ α} {y : EStateM ε' τ α} {f : α → EStateM ε σ γ}
    {g : α → EStateM ε' τ δ} (hxy : RelatedBy R E x y Eq)
    (hfg : ∀ a, RelatedBy R E (f a) (g a) P) : RelatedBy R E (x >>= f) (y >>= g) P :=
  bind hxy fun a _ h => h ▸ hfg a

/-- One and the same pure part, then what follows. -/
theorem lift_same (x : Except ε α) {f : α → EStateM ε σ γ} {g : α → EStateM ε τ δ}
    (hfg : ∀ a, RelatedBy R Eq (f a) (g a) P) :
    RelatedBy R Eq (liftM x >>= f) (liftM x >>= g) P :=
  lift_bind (.refl x) fun a _ h => h ▸ hfg a

end RelatedBy

/-- The relational triple that does not compare the exceptions. -/
def Related (R : σ → τ → Prop) (x : EStateM ε σ α) (y : EStateM ε' τ β) (Q : α → β → Prop) : Prop :=
  ∀ s t, R s t → ResultRel R Q (x s) (y t)

theorem related_iff {R : σ → τ → Prop} {Q : α → β → Prop} {x : EStateM ε σ α}
    {y : EStateM ε' τ β} : Related R x y Q ↔ RelatedBy R (fun _ _ => True) x y Q :=
  forall_congr' fun _ => forall_congr' fun _ => imp_congr_right fun _ => resultRel_iff

namespace Related

variable {R : σ → τ → Prop} {Q : α → β → Prop} {P : γ → δ → Prop}

theorem pure {a : α} {b : β} (h : Q a b) :
    Related R (Pure.pure a : EStateM ε σ α) (Pure.pure b : EStateM ε' τ β) Q :=
  related_iff.mpr (.pure h)

theorem throw (e : ε) (e' : ε') :
    Related R (MonadExcept.throw e : EStateM ε σ α) (MonadExcept.throw e' : EStateM ε' τ β) Q :=
  related_iff.mpr (.throw trivial)

theorem lift {x : Except ε α} {y : Except ε' β} (h : ExceptRel Q x y) :
    Related R (liftM x : EStateM ε σ α) (liftM y : EStateM ε' τ β) Q :=
  related_iff.mpr (.lift (exceptRel_iff.mp h))

/-- A weaker relation of the values. -/
theorem mono {Q' : α → β → Prop} {x : EStateM ε σ α} {y : EStateM ε' τ β} (h : Related R x y Q)
    (hQ : ∀ a b, Q a b → Q' a b) : Related R x y Q' :=
  related_iff.mpr ((related_iff.mp h).mono hQ)

/-- **Related parts compose.** -/
theorem bind {x : EStateM ε σ α} {y : EStateM ε' τ β} {f : α → EStateM ε σ γ}
    {g : β → EStateM ε' τ δ} (hxy : Related R x y Q)
    (hfg : ∀ a b, Q a b → Related R (f a) (g b) P) : Related R (x >>= f) (y >>= g) P :=
  related_iff.mpr ((related_iff.mp hxy).bind fun a b hab => related_iff.mp (hfg a b hab))

/-- Two conditionals on equivalent conditions. -/
theorem ite {c c' : Prop} [Decidable c] [Decidable c'] (hc : c ↔ c')
    {x x' : EStateM ε σ α} {y y' : EStateM ε' τ β} (ht : Related R x y Q)
    (he : Related R x' y' Q) :
    Related R (if c then x else x') (if c' then y else y') Q :=
  related_iff.mpr (.ite hc (related_iff.mp ht) (related_iff.mp he))

/-- **Guards on equivalent conditions**: what follows is looked at only where they pass. -/
theorem guard {c c' : Prop} [Decidable c] [Decidable c'] (hc : c ↔ c') {e : ε} {e' : ε'}
    {f : γ → EStateM ε σ α} {g : δ → EStateM ε' τ β} {x : EStateM ε σ α} {y : EStateM ε' τ β}
    (h : Related R x y Q) :
    Related R (if c then MonadExcept.throw e >>= f else x)
      (if c' then MonadExcept.throw e' >>= g else y) Q :=
  related_iff.mpr (.guard hc trivial (related_iff.mp h))

/-- A pure part, then what follows. -/
theorem lift_bind {x : Except ε α} {y : Except ε' β} {f : α → EStateM ε σ γ}
    {g : β → EStateM ε' τ δ} (hxy : ExceptRel Q x y)
    (hfg : ∀ a b, Q a b → Related R (f a) (g b) P) : Related R (liftM x >>= f) (liftM y >>= g) P :=
  bind (lift hxy) hfg

theorem map {x : EStateM ε σ α} {y : EStateM ε' τ β} {f : α → γ} {g : β → δ}
    (h : Related R x y Q) (hfg : ∀ a b, Q a b → P (f a) (g b)) :
    Related R (f <$> x) (g <$> y) P :=
  related_iff.mpr ((related_iff.mp h).map hfg)

end Related

end Raising

end Machinery
