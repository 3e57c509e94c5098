import Mathlib.Data.List.Basic
import Mathlib.Tactic.Basic

/-!
# Machinery/Codes — texts that are read back

A writer gives each value a text.  A reader that knows no lengths has to find where the text of a
value ends: `ReadBack` says that whatever two values are written, and however the two texts go on,
equal texts come from equal values and go on equally.  What follows a value begins with a *stop*.

* `append_inj_of_stopped` — a token ends where its characters end;
* `ReadBack.terminated` — a word over a prefix code, up to its terminator;
* `ReadBack.separated` — a list, up to its closing letter;
* `ReadBack.pair` — a key and its value.
-/

namespace Machinery

variable {α β γ : Type*} {stop : γ → Prop}

/-- A text that is empty or begins with a stop. -/
def Stopped (stop : γ → Prop) (rest : List γ) : Prop := ∀ c ∈ rest.head?, stop c

theorem stopped_nil : Stopped stop [] := by simp [Stopped]

theorem stopped_cons {c : γ} {rest : List γ} : Stopped stop (c :: rest) ↔ stop c := by
  simp [Stopped]

theorem stopped_true (rest : List γ) : Stopped (fun _ => True) rest := fun _ _ => trivial

/-- **A token ends where its characters end.** -/
theorem append_inj_of_stopped : ∀ {u v rest rest' : List γ}, (∀ c ∈ u, ¬ stop c) →
    (∀ c ∈ v, ¬ stop c) → Stopped stop rest → Stopped stop rest' → u ++ rest = v ++ rest' →
    u = v ∧ rest = rest'
  | [], [], _, _, _, _, _, _, h => ⟨rfl, h⟩
  | [], c :: v, rest, _, _, hv, hrest, _, h => by
    rw [List.nil_append, List.cons_append] at h
    rw [h, stopped_cons] at hrest
    exact absurd hrest (hv c List.mem_cons_self)
  | c :: u, [], _, rest', hu, _, _, hrest', h => by
    rw [List.nil_append, List.cons_append] at h
    rw [← h, stopped_cons] at hrest'
    exact absurd hrest' (hu c List.mem_cons_self)
  | c :: u, d :: v, _, _, hu, hv, hrest, hrest', h => by
    obtain ⟨rfl, htail⟩ := List.cons.inj h
    obtain ⟨rfl, heq⟩ := append_inj_of_stopped (fun d hd => hu d (List.mem_cons_of_mem _ hd))
      (fun d hd => hv d (List.mem_cons_of_mem _ hd)) hrest hrest' htail
    exact ⟨rfl, heq⟩

/-- What `f` writes for `a` is read back among the values of `P`, where a stop follows. -/
def ReadBack (f : α → List γ) (P : α → Prop) (stop : γ → Prop) (a : α) : Prop :=
  ∀ b rest rest', P b → Stopped stop rest → Stopped stop rest' → f a ++ rest = f b ++ rest' →
    a = b ∧ rest = rest'

namespace ReadBack

variable {f : α → List γ} {P : α → Prop}

/-- A value is told from its text. -/
theorem eq_of_eq {a b : α} (h : ReadBack f P stop a) (hb : P b) (heq : f a = f b) : a = b :=
  (h b [] [] hb stopped_nil stopped_nil (by rw [heq])).1

/-- **A word over a prefix code is read back up to its terminator**, which begins no letter. -/
theorem terminated {g : β → List γ} {last : γ}
    (hg : ∀ b, ReadBack g (fun _ => True) (fun _ => True) b)
    (hlast : ∀ b, ∃ c text, g b = c :: text ∧ c ≠ last) (word : List β) :
    ReadBack (fun word => word.flatMap g ++ [last]) (fun _ => True) (fun _ => True) word := by
  intro word' rest rest' _ _ _ h
  simp only [List.append_assoc, List.singleton_append] at h
  induction word generalizing word' with
  | nil =>
    cases word' with
    | nil => exact ⟨rfl, by simpa using h⟩
    | cons b word' =>
      obtain ⟨c, text, hb, hne⟩ := hlast b
      rw [List.flatMap_cons, hb] at h
      exact absurd (List.cons.inj h).1.symm hne
  | cons a word ih =>
    cases word' with
    | nil =>
      obtain ⟨c, text, ha, hne⟩ := hlast a
      rw [List.flatMap_cons, ha] at h
      exact absurd (List.cons.inj h).1 hne
    | cons b word' =>
      rw [List.flatMap_cons, List.flatMap_cons, List.append_assoc, List.append_assoc] at h
      obtain ⟨rfl, htail⟩ := hg a b _ _ trivial (stopped_true _) (stopped_true _) h
      obtain ⟨rfl, heq⟩ := ih word' htail
      exact ⟨rfl, heq⟩

/-- **A key and its value**, with a separator between them. -/
theorem pair {g : β → List γ} {Q : β → Prop} {colon : γ} {a : α} {b : β}
    (ha : ReadBack f (fun _ => True) (fun _ => True) a) (hb : ReadBack g Q stop b) :
    ReadBack (fun e : α × β => f e.1 ++ colon :: g e.2) (fun e => Q e.2) stop (a, b) := by
  rintro ⟨a', b'⟩ rest rest' hQ hrest hrest' h
  simp only [List.append_assoc, List.cons_append] at h
  obtain ⟨rfl, hvalue⟩ := ha a' _ _ trivial (stopped_true _) (stopped_true _) h
  obtain ⟨rfl, heq⟩ := hb b' rest rest' hQ hrest hrest' (List.cons.inj hvalue).2
  exact ⟨rfl, heq⟩

/-! ### Lists -/

/-- What follows the first item of a list. -/
private def following (f : α → List γ) (comma close : γ) (rest : List γ) : List α → List γ
  | [] => close :: rest
  | a :: as => comma :: (List.intercalate [comma] ((a :: as).map f) ++ close :: rest)

private theorem intercalate_cons (f : α → List γ) (comma close : γ) (rest : List γ) (a : α)
    (as : List α) :
    List.intercalate [comma] ((a :: as).map f) ++ close :: rest =
      f a ++ following f comma close rest as := by
  cases as with
  | nil => simp [following]
  | cons b as => simp [following, List.intercalate]

private theorem stopped_following {comma close : γ} (hcomma : stop comma) (hclose : stop close)
    (rest : List γ) (as : List α) : Stopped stop (following f comma close rest as) := by
  cases as with
  | nil => exact stopped_cons.mpr hclose
  | cons b as => exact stopped_cons.mpr hcomma

/-- **A list is read back up to its closing letter**, which begins no item. -/
theorem separated {comma close : γ} (hcomma : stop comma) (hclose : stop close)
    (hne : comma ≠ close) (hbegin : ∀ a, P a → ∃ c text, f a = c :: text ∧ c ≠ close) :
    ∀ {as : List α}, (∀ a ∈ as, P a) → (∀ a ∈ as, ReadBack f P stop a) →
      ReadBack (fun as => List.intercalate [comma] (as.map f) ++ [close]) (fun as => ∀ a ∈ as, P a)
        (fun _ => True) as := by
  intro as hP has bs rest rest' hbs _ _ h
  simp only [List.append_assoc, List.singleton_append] at h
  induction as generalizing bs with
  | nil =>
    cases bs with
    | nil => exact ⟨rfl, by simpa using h⟩
    | cons b bs =>
      obtain ⟨c, text, hb, hc⟩ := hbegin b (hbs b List.mem_cons_self)
      rw [intercalate_cons, hb] at h
      exact absurd (List.cons.inj h).1.symm hc
  | cons a as ih =>
    cases bs with
    | nil =>
      obtain ⟨c, text, ha, hc⟩ := hbegin a (hP a List.mem_cons_self)
      rw [intercalate_cons, ha] at h
      exact absurd (List.cons.inj h).1 hc
    | cons b bs =>
      rw [intercalate_cons, intercalate_cons] at h
      obtain ⟨rfl, hfollowing⟩ := has a List.mem_cons_self b _ _ (hbs b List.mem_cons_self)
        (stopped_following hcomma hclose _ _) (stopped_following hcomma hclose _ _) h
      cases as with
      | nil =>
        cases bs with
        | nil => exact ⟨rfl, (List.cons.inj hfollowing).2⟩
        | cons b bs => exact absurd (List.cons.inj hfollowing).1.symm hne
      | cons a' as =>
        cases bs with
        | nil => exact absurd (List.cons.inj hfollowing).1 hne
        | cons b bs =>
          obtain ⟨htail, heq⟩ := ih (fun a ha => hP a (List.mem_cons_of_mem _ ha))
            (fun a ha => has a (List.mem_cons_of_mem _ ha)) (b :: bs)
            (fun b hb => hbs b (List.mem_cons_of_mem _ hb)) (List.cons.inj hfollowing).2
          exact ⟨congrArg _ htail, heq⟩

end ReadBack

end Machinery
