import AgentProof.ToolEnvironment.Outcomes

/-!
# ToolEnvironment/Shared — what two environments share

Two environments that differ somewhere agree on everything that is read and written elsewhere.
`Shares R c` says that `R`-related environments hold one and the same collection `c` and stay
related when it is assigned; the steps over such a collection, and the operations made of them,
agree with themselves.
-/

open Machinery Machinery.Raising

namespace AgentProof

/-! ## Wired environments -/

/-- The services of a wired environment. -/
theorem SupportToolEnvironment.Wired.services {env : SupportToolEnvironment} (h : env.Wired) :
    env.customer = ⟨.shared⟩ ∧ env.policy = ⟨.shared⟩ ∧ env.order = ⟨.shared, .service⟩ ∧
      env.refund = ⟨.shared, .service⟩ ∧ env.ticket = ⟨.shared⟩ := by
  rw [h]
  exact ⟨rfl, rfl, rfl, rfl, rfl⟩

theorem SupportToolEnvironment.Wired.put {env : SupportToolEnvironment} (h : env.Wired)
    (c : Collection) (j : Json) : (env.put c j).Wired := by
  rw [SupportToolEnvironment.Wired] at h ⊢
  rw [SupportToolEnvironment.put, h]

/-- Two wired environments, their collections related one by one. -/
structure RelatedEnvs (Rel : Collection → Json → Json → Prop) (env env' : SupportToolEnvironment) :
    Prop where
  wired : env.Wired
  wired' : env'.Wired
  rel : ∀ c, Rel c (env.state.get c) (env'.state.get c)

/-- Related values are assigned to one collection. -/
theorem RelatedEnvs.put {Rel : Collection → Json → Json → Prop} {env env' : SupportToolEnvironment}
    (h : RelatedEnvs Rel env env') {c : Collection} {a b : Json} (hc : Rel c a b) :
    RelatedEnvs Rel (env.put c a) (env'.put c b) where
  wired := h.wired.put c a
  wired' := h.wired'.put c b
  rel c' := by
    rw [SupportToolEnvironment.put_state, SupportToolEnvironment.put_state]
    by_cases hcc : c = c'
    · subst hcc
      rw [SupportState.get_put_self, SupportState.get_put_self]
      exact hc
    · rw [SupportState.get_put_of_ne _ hcc, SupportState.get_put_of_ne _ hcc]
      exact h.rel c'

/-- What is looked up in two collections. -/
theorem find_relatedBy [Interpreter] {Rel : Collection → Json → Json → Prop}
    {Q : Json → Json → Prop} {c : Collection} {id : Json} (what : String)
    (h : ∀ a b, Rel c a b → ExceptRelBy Eq (fun v w => v = .null ∧ w = .null ∨
      v ≠ .null ∧ w ≠ .null ∧ Q v w) (a.dictGet id .null) (b.dictGet id .null)) :
    RelatedBy (RelatedEnvs Rel) Eq (find .shared c what id) (find .shared c what id) Q := by
  have hread : RelatedBy (RelatedEnvs Rel) Eq (readCollection .shared c) (readCollection .shared c)
      (Rel c) := fun _ _ hst => ⟨hst.rel c, hst⟩
  refine hread.bind fun a b hab => .lift_bind (h a b hab) fun v w hvw => ?_
  rcases hvw with ⟨rfl, rfl⟩ | ⟨hv, hw, hvw⟩
  · exact .guard_not Iff.rfl rfl fun hne => absurd rfl hne
  · exact .guard (iff_of_false hv hw) rfl (.pure hvw)

/-- What is stored in two collections. -/
theorem store_relatedBy {Rel : Collection → Json → Json → Prop} {c : Collection}
    {id entity entity' : Json} (h : ∀ a b, Rel c a b →
      ExceptRelBy Eq (Rel c) (a.setItem id entity) (b.setItem id entity')) :
    RelatedBy (RelatedEnvs Rel) Eq (store c id entity) (store c id entity') fun _ _ => True := by
  intro s t hst
  have hset := h _ _ (hst.rel c)
  simp only [store]
  cases hs : (s.state.get c).setItem id entity <;> cases ht : (t.state.get c).setItem id entity' <;>
    rw [hs, ht] at hset
  · exact ⟨hset, hst⟩
  · exact hset.elim
  · exact hset.elim
  · exact ⟨trivial, hst.put hset⟩

section Related

variable {R : SupportToolEnvironment → SupportToolEnvironment → Prop}

/-- A policy check that a wired service asks for. -/
theorem callPolicy_relatedBy {E : PyError → PyError → Prop} {Q : Json → Json → Prop} {name : String}
    {method method' : PolicyService → Tool Json}
    (hwired : ∀ env env', R env env' → env.Wired ∧ env'.Wired)
    (h : RelatedBy R E (method ⟨.shared⟩) (method' ⟨.shared⟩) Q) :
    RelatedBy R E (callPolicy .service name method) (callPolicy .service name method') Q := by
  intro s t hst
  obtain ⟨hs, ht⟩ := hwired s t hst
  obtain ⟨-, hs, -⟩ := hs.services
  obtain ⟨-, ht, -⟩ := ht.services
  simp only [callPolicy, hs, ht]
  exact h s t hst

/-- The owner of two orders that read alike. -/
theorem requireOwner_relatedBy [Interpreter] {a b : Json}
    (h : a.subscript "customer_id" = b.subscript "customer_id") (orderId req : Json) :
    RelatedBy R Eq (requireOwner a orderId req) (requireOwner b orderId req) fun _ _ => True := by
  rw [requireOwner, requireOwner, h]
  exact .lift_same _ fun owner => .ite Iff.rfl (.throw rfl) (.pure trivial)

/-! ## A shared collection -/

variable {c : Collection}

/-- **A collection that related environments share.** -/
structure Shares (R : SupportToolEnvironment → SupportToolEnvironment → Prop) (c : Collection) :
    Prop where
  get : ∀ {env env'}, R env env' → env.state.get c = env'.state.get c
  put : ∀ {env env'}, R env env' → ∀ j, R (env.put c j) (env'.put c j)

/-- A collection whose values are related by equality. -/
theorem RelatedEnvs.shares {Rel : Collection → Json → Json → Prop} (hc : Rel c = Eq) :
    Shares (RelatedEnvs Rel) c where
  get h := by
    have hrel := h.rel c
    rwa [hc] at hrel
  put h j := h.put (by rw [hc])

namespace Shares

variable (h : Shares R c)

include h

theorem readCollection :
    RelatedBy R Eq (readCollection .shared c) (AgentProof.readCollection .shared c) Eq :=
  fun _ _ hst => ⟨h.get hst, hst⟩

theorem writeBack (id entity : Json) :
    RelatedBy R Eq (writeBack c id entity) (AgentProof.writeBack c id entity) fun _ _ => True := by
  intro s t hst
  simp only [AgentProof.writeBack, h.get hst]
  split
  · exact ⟨trivial, h.put hst _⟩
  · exact ⟨trivial, hst⟩

theorem store (id entity : Json) :
    RelatedBy R Eq (store c id entity) (AgentProof.store c id entity) fun _ _ => True := by
  intro s t hst
  simp only [AgentProof.store, h.get hst]
  split
  · exact ⟨trivial, h.put hst _⟩
  · exact ⟨rfl, hst⟩

theorem find [Interpreter] (what : String) (id : Json) :
    RelatedBy R Eq (find .shared c what id) (AgentProof.find .shared c what id) Eq := by
  refine .bind_same h.readCollection fun entities => .lift_same _ fun entity => ?_
  exact .guard Iff.rfl rfl (.pure rfl)

end Shares

/-! ## The operations over one collection -/

section Operations

variable [Interpreter]

theorem getCustomer_shared (h : Shares R .customers) (id : Json) :
    RelatedBy R Eq (CustomerService.getCustomer ⟨.shared⟩ id)
      (CustomerService.getCustomer ⟨.shared⟩ id) Eq :=
  h.find "Customer" id

omit [Interpreter] in
/-- A field of a ticket is assigned and written through. -/
theorem setField_shared (h : Shares R .tickets) (id ticket : Json) (key : String) (value : Json) :
    RelatedBy R Eq (TicketService.setField id ticket key value)
      (TicketService.setField id ticket key value) Eq :=
  .lift_same _ fun ticket => (h.writeBack id ticket).bind fun _ _ _ => .pure rfl

omit [Interpreter] in
theorem appendNote_shared (h : Shares R .tickets) (id ticket note : Json) :
    RelatedBy R Eq (TicketService.appendNote id ticket note)
      (TicketService.appendNote id ticket note) Eq := by
  refine .lift_same _ fun notes => .lift_same _ fun notes => .lift_same _ fun ticket => ?_
  exact (h.writeBack id ticket).bind fun _ _ _ => .pure rfl

theorem updateTicket_shared (h : Shares R .tickets) (id status note : Json) :
    RelatedBy R Eq (TicketService.updateTicket ⟨.shared⟩ id status note)
      (TicketService.updateTicket ⟨.shared⟩ id status note) Eq := by
  refine .bind_same (h.find "Ticket" id) fun ticket => ?_
  have hrest : ∀ ticket : Json,
      RelatedBy R Eq (if note ≠ .null then TicketService.appendNote id ticket note else pure ticket)
        (if note ≠ .null then TicketService.appendNote id ticket note else pure ticket) Eq :=
    fun ticket => .ite Iff.rfl (appendNote_shared h id ticket note) (.pure rfl)
  refine .ite Iff.rfl ?_ (hrest ticket)
  exact .bind_same (setField_shared h id ticket "status" status) hrest

theorem escalateTicket_shared (h : Shares R .tickets) (id reason : Json) :
    RelatedBy R Eq (TicketService.escalateTicket ⟨.shared⟩ id reason)
      (TicketService.escalateTicket ⟨.shared⟩ id reason) Eq := by
  refine .bind_same (h.find "Ticket" id) fun ticket => .lift_same _ fun status => ?_
  refine .lift_same _ fun escalatable => .guard Iff.rfl rfl ?_
  refine .bind_same (setField_shared h id ticket "status" _) fun ticket => ?_
  refine .lift_same _ fun count => .lift_same _ fun count => ?_
  refine .bind_same (setField_shared h id ticket "escalation_count" count) fun ticket => ?_
  exact appendNote_shared h id ticket reason

end Operations

end Related

end AgentProof
