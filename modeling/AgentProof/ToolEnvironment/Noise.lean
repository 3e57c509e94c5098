import AgentProof.ToolEnvironment.Congruence

/-!
# ToolEnvironment/Noise — a field that no operation reads

Two environments that differ by one more field on one entity.  No operation reads or writes the
field, so a call returns in both or raises the same exception in both, and leaves environments that
differ by the field again (`NoiseSite.call_noised`).
-/

open Machinery Machinery.Raising

namespace AgentProof

/-! ## The relation -/

/-- The fields of an entity that the services read or write. -/
def servedFields : List String :=
  ["customer_id", "status", "delivered_days_ago", "total_cents", "items", "notes",
    "escalation_count"]

/-- Where a field is added: to an entity of a seeded collection, under a name that no service
uses. -/
structure NoiseSite where
  collection : Collection
  id : String
  field : String
  value : Json
  seeded : collection ≠ .refunds ∧ collection ≠ .replacements
  unserved : field ∉ servedFields

namespace NoiseSite

variable (site : NoiseSite)

/-- The entity is the one with the field. -/
def At (c : Collection) (id : Json) : Prop := c = site.collection ∧ id = .str site.id

/-- An entity, and the same entity with the field. -/
structure Noised (entity entity' : Dict String Json) : Prop where
  absent : Dict.get? entity site.field = none
  present : Dict.get? entity' site.field = some site.value
  without : Dict.without entity' site.field = entity

/-- What two runs read under an id: one value, or the entity without and with the field. -/
inductive Read (c : Collection) (id : Json) : Json → Json → Prop
  | same (h : ¬site.At c id) (j : Json) : Read c id j j
  | noised (h : site.At c id) {entity entity' : Dict String Json}
      (hnoised : site.Noised entity entity') : Read c id (.obj entity) (.obj entity')

/-- Two states that differ by the field. -/
structure States (s t : SupportState) : Prop where
  others : ∀ c, c ≠ site.collection → t.get c = s.get c
  entity : ∃ entries entity entity', s.get site.collection = .obj entries ∧
    Dict.get? entries site.id = some (.obj entity) ∧
    t.get site.collection = .obj (Dict.set entries site.id (.obj entity')) ∧
    site.Noised entity entity'

/-- Two environments that differ by the field. -/
structure Envs (env env' : SupportToolEnvironment) : Prop where
  wired : env.Wired
  wired' : env'.Wired
  states : site.States env.state env'.state

variable {site}

theorem ne_of_served {k : String} (hk : k ∈ servedFields) : site.field ≠ k := by
  rintro rfl
  exact site.unserved hk

theorem Noised.get? {entity entity' : Dict String Json} (h : site.Noised entity entity')
    {k : String} (hk : site.field ≠ k) : Dict.get? entity' k = Dict.get? entity k := by
  rw [← Dict.get?_without_of_ne entity' hk, h.without]

/-- Another field is assigned. -/
theorem Noised.set {entity entity' : Dict String Json} (h : site.Noised entity entity')
    {k : String} (hk : site.field ≠ k) (v : Json) :
    site.Noised (Dict.set entity k v) (Dict.set entity' k v) where
  absent := by rw [Dict.get?_set_of_ne _ hk.symm, h.absent]
  present := by rw [Dict.get?_set_of_ne _ hk.symm, h.present]
  without := by rw [Dict.without_set_of_ne _ hk, h.without]

/-- **The field, set on an entity that does not have it.** -/
theorem noised_set {entity : Dict String Json} (h : Dict.get? entity site.field = none) :
    site.Noised entity (Dict.set entity site.field site.value) where
  absent := h
  present := Dict.get?_set_self _ _ _
  without := by rw [Dict.without_set_self, Dict.without_of_get?_eq_none h]

/-! ## Reading an entity -/

section Read

variable {c : Collection} {id a b : Json}

theorem Read.subscript (h : site.Read c id a b) {k : String} (hk : k ∈ servedFields) :
    a.subscript k = b.subscript k := by
  cases h with
  | same => rfl
  | noised _ hnoised => rw [Json.subscript, Json.subscript, hnoised.get? (ne_of_served hk)]

theorem Read.dictGet (h : site.Read c id a b) {k : String} (hk : k ∈ servedFields)
    (default : Json) : a.dictGet (.str k) default = b.dictGet (.str k) default := by
  cases h with
  | same => rfl
  | noised _ hnoised =>
    rw [Json.dictGet_obj_str, Json.dictGet_obj_str, hnoised.get? (ne_of_served hk)]

theorem Read.setdefault (h : site.Read c id a b) {k : String} (hk : k ∈ servedFields)
    (default : Json) : a.setdefault k default = b.setdefault k default := by
  cases h with
  | same => rfl
  | noised _ hnoised => rw [Json.setdefault_obj, Json.setdefault_obj, hnoised.get? (ne_of_served hk)]

/-- A field that the services write. -/
theorem Read.setItem (h : site.Read c id a b) {k : String} (hk : k ∈ servedFields) (v : Json) :
    ExceptRelBy Eq (site.Read c id) (a.setItem (.str k) v) (b.setItem (.str k) v) := by
  cases h with
  | same h =>
    cases a with
    | obj fields => exact .same h _
    | _ => exact rfl
  | noised h hnoised => exact .noised h (hnoised.set (ne_of_served hk) v)

theorem Read.null_iff (h : site.Read c id a b) : a = .null ↔ b = .null := by
  cases h <;> simp

theorem Read.deliveredWithin (h : site.Read c id a b) (days : ℤ) :
    PolicyService.deliveredWithin a days = PolicyService.deliveredWithin b days := by
  rw [PolicyService.deliveredWithin, PolicyService.deliveredWithin,
    h.subscript (k := "status") (by decide), h.subscript (k := "delivered_days_ago") (by decide)]

end Read

/-! ## The states -/

variable {env env' : SupportToolEnvironment}

theorem Envs.get (h : site.Envs env env') {c : Collection} (hc : c ≠ site.collection) :
    env'.state.get c = env.state.get c := h.states.others c hc

/-- The collections that the environment does not seed are the same. -/
theorem ne_collection {c : Collection} (hc : c = .refunds ∨ c = .replacements) :
    c ≠ site.collection := by
  rintro rfl
  rcases hc with hc | hc
  · exact site.seeded.1 hc
  · exact site.seeded.2 hc

/-- Another collection is assigned. -/
theorem Envs.put_other (h : site.Envs env env') {c : Collection} (hc : c ≠ site.collection)
    (j : Json) : site.Envs (env.put c j) (env'.put c j) where
  wired := h.wired.put c j
  wired' := h.wired'.put c j
  states :=
    { others := fun c' hc' => by
        rw [SupportToolEnvironment.put_state, SupportToolEnvironment.put_state]
        by_cases hcc : c = c'
        · rw [hcc, SupportState.get_put_self, SupportState.get_put_self]
        · rw [SupportState.get_put_of_ne _ hcc, SupportState.get_put_of_ne _ hcc, h.get hc']
      entity := by
        rw [SupportToolEnvironment.put_state, SupportToolEnvironment.put_state,
          SupportState.get_put_of_ne _ hc, SupportState.get_put_of_ne _ hc]
        exact h.states.entity }

theorem shares {c : Collection} (hc : c ≠ site.collection) : Shares site.Envs c where
  get h := (h.get hc).symm
  put h := h.put_other hc

/-- The collection of the entity is assigned. -/
theorem Envs.put_entity (h : site.Envs env env') {entries entity entity' : Dict String Json}
    (hentity : Dict.get? entries site.id = some (.obj entity))
    (hnoised : site.Noised entity entity') :
    site.Envs (env.put site.collection (.obj entries))
      (env'.put site.collection (.obj (Dict.set entries site.id (.obj entity')))) where
  wired := h.wired.put _ _
  wired' := h.wired'.put _ _
  states :=
    { others := fun c hc => by
        rw [SupportToolEnvironment.put_state, SupportToolEnvironment.put_state,
          SupportState.get_put_of_ne _ hc.symm, SupportState.get_put_of_ne _ hc.symm, h.get hc]
      entity := ⟨entries, entity, entity', SupportState.get_put_self _ _ _, hentity,
        SupportState.get_put_self _ _ _, hnoised⟩ }

/-! ## Steps -/

section Steps

variable {c : Collection} {id a b : Json}

/-- Two computations that agree, exceptions included. -/
abbrev Agrees (site : NoiseSite) {α β : Type} (x : Tool α) (y : Tool β) (Q : α → β → Prop) : Prop :=
  RelatedBy site.Envs Eq x y Q

/-- An assignment is not read under another key. -/
theorem dictGet_set_of_ne (entries : Dict String Json) {k : String} (hid : id ≠ .str k)
    (v default : Json) : (Json.obj (Dict.set entries k v)).dictGet id default =
      (Json.obj entries).dictGet id default := by
  cases id with
  | str k' =>
    have hne : k ≠ k' := fun h => hid (h ▸ rfl)
    rw [Json.dictGet_obj_str, Json.dictGet_obj_str, Dict.get?_set_of_ne _ hne]
  | _ => rfl

/-- **What the two environments hold under an id.** -/
theorem dictGet_noised (h : site.Envs env env') (c : Collection) (id : Json) :
    ExceptRelBy Eq (site.Read c id) ((env.state.get c).dictGet id .null)
      ((env'.state.get c).dictGet id .null) := by
  by_cases hc : c = site.collection
  · subst hc
    obtain ⟨entries, entity, entity', hs, hentity, ht, hnoised⟩ := h.states.entity
    rw [hs, ht]
    by_cases hid : id = .str site.id
    · subst hid
      rw [Json.dictGet_obj_str, Json.dictGet_obj_str, hentity, Dict.get?_set_self]
      exact .noised ⟨rfl, rfl⟩ hnoised
    · rw [dictGet_set_of_ne entries hid]
      exact .of_ok fun v _ => .same (fun hat => hid hat.2) v
  · rw [h.get hc]
    exact .of_ok fun v _ => .same (fun hat => hc hat.1) v

/-- **An entity that was read is written back.** -/
theorem writeBack_noised (h : site.Read c id a b) :
    Agrees site (writeBack c id a) (writeBack c id b) fun _ _ => True := by
  intro s t hst
  by_cases hc : c = site.collection
  · subst hc
    obtain ⟨entries, entity, entity', hs, hentity, ht, hnoised⟩ := hst.states.entity
    cases id with
    | str k =>
      rw [writeBack_apply hs, writeBack_apply ht]
      refine ⟨trivial, ?_⟩
      cases h with
      | same hat =>
        have hne : site.id ≠ k := fun hk => hat ⟨rfl, hk ▸ rfl⟩
        have hhas : Dict.has entries site.id = true := Dict.has_iff.mpr ⟨_, hentity⟩
        rw [Dict.set_comm hne hhas]
        exact hst.put_entity (by rw [Dict.get?_set_of_ne _ hne.symm, hentity]) hnoised
      | noised hat hnoised' =>
        obtain rfl : k = site.id := Json.str.inj hat.2
        have hput := hst.put_entity (Dict.get?_set_self entries site.id _) hnoised'
        rw [Dict.set_set] at hput ⊢
        exact hput
    | _ =>
      simp only [writeBack, hs, ht]
      exact ⟨trivial, hst⟩
  · cases h with
    | noised hat => exact absurd hat.1 hc
    | same => exact (shares hc).writeBack id a s t hst

variable [Interpreter]

theorem find_noised (site : NoiseSite) (c : Collection) (what : String) (id : Json) :
    Agrees site (find .shared c what id) (find .shared c what id) (site.Read c id) := by
  have hread : Agrees site (readCollection .shared c) (readCollection .shared c) fun x y =>
      ExceptRelBy Eq (site.Read c id) (x.dictGet id .null) (y.dictGet id .null) :=
    fun _ _ h => ⟨dictGet_noised h c id, h⟩
  refine hread.bind fun entities entities' hentities => ?_
  refine .lift_bind hentities fun a b hab => ?_
  exact .guard hab.null_iff rfl (.pure hab)

theorem requireOwner_noised (h : site.Read c id a b) (orderId req : Json) :
    Agrees site (requireOwner a orderId req) (requireOwner b orderId req) fun _ _ => True :=
  requireOwner_relatedBy (h.subscript (by decide)) orderId req

end Steps

/-! ## The operations -/

end NoiseSite

/-- The collection of the entity an operation is about, and the parameter that names it. -/
def Operation.subject : Operation → Collection × String
  | .getCustomer => (.customers, "customer_id")
  | .updateTicket | .escalateTicket => (.tickets, "ticket_id")
  | _ => (.orders, "order_id")

namespace NoiseSite

variable {site : NoiseSite}

/-- What two calls return: one value, or the entity of the call without and with the field. -/
def Returns (site : NoiseSite) (c : Collection) (id a b : Json) : Prop :=
  a = b ∨ site.At c id ∧ ∃ entity entity', a = .obj entity ∧ b = .obj entity' ∧
    site.Noised entity entity'

theorem Read.returns {c : Collection} {id a b : Json} (h : site.Read c id a b) :
    site.Returns c id a b := by
  cases h with
  | same => exact .inl rfl
  | noised h hnoised => exact .inr ⟨h, _, _, rfl, rfl, hnoised⟩

section Operations

variable [Interpreter]

theorem getCustomer_noised (site : NoiseSite) (id : Json) :
    Agrees site (CustomerService.getCustomer ⟨.shared⟩ id)
      (CustomerService.getCustomer ⟨.shared⟩ id) (site.Returns .customers id) :=
  (find_noised site .customers "Customer" id).mono fun _ _ h => h.returns

theorem getOrder_noised (site : NoiseSite) (id : Json) :
    Agrees site (OrderService.getOrder ⟨.shared, .service⟩ id)
      (OrderService.getOrder ⟨.shared, .service⟩ id) (site.Returns .orders id) :=
  (find_noised site .orders "Order" id).mono fun _ _ h => h.returns

theorem cancelOrder_noised (site : NoiseSite) (id req : Json) :
    Agrees site (OrderService.cancelOrder ⟨.shared, .service⟩ id req)
      (OrderService.cancelOrder ⟨.shared, .service⟩ id req) (site.Returns .orders id) := by
  refine (find_noised site .orders "Order" id).bind fun order order' h => ?_
  refine (requireOwner_noised h id req).bind fun _ _ _ => ?_
  rw [h.subscript (k := "status") (by decide)]
  refine .lift_same _ fun status => ?_
  refine .lift_same _ fun cancellable => ?_
  refine .guard Iff.rfl rfl ?_
  refine .lift_bind (h.setItem (by decide) _) fun order order' h => ?_
  exact (writeBack_noised h).bind fun _ _ _ => .pure h.returns

theorem checkRefundPolicy_noised (site : NoiseSite) (id : Json) :
    Agrees site (PolicyService.checkRefundPolicy ⟨.shared⟩ id)
      (PolicyService.checkRefundPolicy ⟨.shared⟩ id) Eq := by
  refine (find_noised site .orders "Order" id).bind fun order order' h => ?_
  rw [h.deliveredWithin, h.subscript (k := "total_cents") (by decide)]
  refine .lift_same _ fun eligible => .ite Iff.rfl ?_ ?_
  · exact .lift_same _ fun total => .pure rfl
  · exact .pure rfl

theorem checkReplacementPolicy_noised (site : NoiseSite) (id : Json) :
    Agrees site (PolicyService.checkReplacementPolicy ⟨.shared⟩ id)
      (PolicyService.checkReplacementPolicy ⟨.shared⟩ id) Eq := by
  refine (find_noised site .orders "Order" id).bind fun order order' h => ?_
  rw [h.deliveredWithin]
  exact .lift_same _ fun eligible => .pure rfl

omit [Interpreter] in
/-- A policy check that a wired service asks for. -/
theorem callPolicy_noised {name : String} {method : PolicyService → Tool Json}
    (h : Agrees site (method ⟨.shared⟩) (method ⟨.shared⟩) Eq) :
    Agrees site (callPolicy .service name method) (callPolicy .service name method) Eq :=
  callPolicy_relatedBy (fun _ _ h => ⟨h.wired, h.wired'⟩) h

theorem replaceItem_noised (site : NoiseSite) (id req sku reason : Json) :
    Agrees site (OrderService.replaceItem ⟨.shared, .service⟩ id req sku reason)
      (OrderService.replaceItem ⟨.shared, .service⟩ id req sku reason) Eq := by
  refine (find_noised site .orders "Order" id).bind fun order order' h => ?_
  refine (requireOwner_noised h id req).bind fun _ _ _ => ?_
  rw [h.dictGet (k := "items") (by decide)]
  refine .lift_same _ fun items => .lift_same _ fun items => .lift_same _ fun onOrder => ?_
  refine .guard Iff.rfl rfl ?_
  refine .bind_same (shares (ne_collection (.inr rfl))).readCollection fun replacements => ?_
  refine .lift_same _ fun replaced => .guard Iff.rfl rfl ?_
  refine .bind_same (callPolicy_noised (checkReplacementPolicy_noised site id)) fun policy => ?_
  refine .lift_same _ fun eligible => .guard Iff.rfl rfl ?_
  exact ((shares (ne_collection (.inr rfl))).store id _).bind fun _ _ _ => .pure rfl

theorem createRefund_noised (site : NoiseSite) (id req amount reason : Json) :
    Agrees site (RefundService.createRefund ⟨.shared, .service⟩ id req amount reason)
      (RefundService.createRefund ⟨.shared, .service⟩ id req amount reason) Eq := by
  refine (find_noised site .orders "Order" id).bind fun order order' h => ?_
  refine (requireOwner_noised h id req).bind fun _ _ _ => ?_
  refine .bind_same (shares (ne_collection (.inl rfl))).readCollection fun refunds => ?_
  refine .lift_same _ fun refunded => .guard Iff.rfl rfl ?_
  refine .bind_same (callPolicy_noised (checkRefundPolicy_noised site id)) fun policy => ?_
  refine .lift_same _ fun eligible => .guard Iff.rfl rfl ?_
  refine .lift_same _ fun max => .lift_same _ fun exceeds => .guard Iff.rfl rfl ?_
  exact ((shares (ne_collection (.inl rfl))).store id _).bind fun _ _ _ => .pure rfl

section Tickets

variable {id ticket ticket' : Json}

omit [Interpreter] in
/-- A field of a ticket is assigned and written through. -/
theorem setField_noised (h : site.Read .tickets id ticket ticket') {key : String}
    (hkey : key ∈ servedFields) (value : Json) :
    Agrees site (TicketService.setField id ticket key value)
      (TicketService.setField id ticket' key value) (site.Read .tickets id) :=
  .lift_bind (h.setItem hkey value) fun _ _ h => (writeBack_noised h).bind fun _ _ _ => .pure h

omit [Interpreter] in
theorem appendNote_noised (h : site.Read .tickets id ticket ticket') (note : Json) :
    Agrees site (TicketService.appendNote id ticket note)
      (TicketService.appendNote id ticket' note) (site.Read .tickets id) := by
  rw [TicketService.appendNote, TicketService.appendNote, h.setdefault (k := "notes") (by decide)]
  refine .lift_same _ fun notes => .lift_same _ fun notes => ?_
  refine .lift_bind (h.setItem (by decide) notes) fun ticket ticket' h => ?_
  exact (writeBack_noised h).bind fun _ _ _ => .pure h

end Tickets

theorem updateTicket_noised (site : NoiseSite) (id status note : Json) :
    Agrees site (TicketService.updateTicket ⟨.shared⟩ id status note)
      (TicketService.updateTicket ⟨.shared⟩ id status note) (site.Returns .tickets id) := by
  refine (find_noised site .tickets "Ticket" id).bind fun ticket ticket' h => ?_
  have hrest : ∀ {ticket ticket' : Json}, site.Read .tickets id ticket ticket' →
      Agrees site (if note ≠ .null then TicketService.appendNote id ticket note else pure ticket)
        (if note ≠ .null then TicketService.appendNote id ticket' note else pure ticket')
        (site.Returns .tickets id) := fun h =>
    .ite Iff.rfl ((appendNote_noised h note).mono fun _ _ h => h.returns) (.pure h.returns)
  refine .ite Iff.rfl ?_ (hrest h)
  exact (setField_noised h (by decide) status).bind fun _ _ h => hrest h

theorem escalateTicket_noised (site : NoiseSite) (id reason : Json) :
    Agrees site (TicketService.escalateTicket ⟨.shared⟩ id reason)
      (TicketService.escalateTicket ⟨.shared⟩ id reason) (site.Returns .tickets id) := by
  refine (find_noised site .tickets "Ticket" id).bind fun ticket ticket' h => ?_
  rw [h.subscript (k := "status") (by decide)]
  refine .lift_same _ fun status => .lift_same _ fun escalatable => .guard Iff.rfl rfl ?_
  refine (setField_noised h (by decide) _).bind fun ticket ticket' h => ?_
  rw [h.dictGet (k := "escalation_count") (by decide)]
  refine .lift_same _ fun count => .lift_same _ fun count => ?_
  refine (setField_noised h (by decide) count).bind fun ticket ticket' h => ?_
  exact (appendNote_noised h reason).mono fun _ _ h => h.returns

/-- **Every operation agrees with itself.** -/
theorem body_noised (site : NoiseSite) (op : Operation) (a : String → Json) :
    Agrees site (op.body a) (op.body a) (site.Returns op.subject.1 (a op.subject.2)) := by
  intro s t hst
  obtain ⟨hcustomer, hpolicy, horder, hrefund, hticket⟩ := hst.wired.services
  obtain ⟨hcustomer', hpolicy', horder', hrefund', hticket'⟩ := hst.wired'.services
  simp only [Operation.body, hcustomer, hpolicy, horder, hrefund, hticket, hcustomer', hpolicy',
    horder', hrefund', hticket']
  cases op with
  | getCustomer => exact getCustomer_noised site _ s t hst
  | getOrder => exact getOrder_noised site _ s t hst
  | cancelOrder => exact cancelOrder_noised site _ _ s t hst
  | replaceItem => exact (replaceItem_noised site _ _ _ _).mono (fun _ _ => .inl) s t hst
  | checkRefundPolicy => exact (checkRefundPolicy_noised site _).mono (fun _ _ => .inl) s t hst
  | checkReplacementPolicy =>
    exact (checkReplacementPolicy_noised site _).mono (fun _ _ => .inl) s t hst
  | createRefund => exact (createRefund_noised site _ _ _ _).mono (fun _ _ => .inl) s t hst
  | updateTicket => exact updateTicket_noised site _ _ _ s t hst
  | escalateTicket => exact escalateTicket_noised site _ _ s t hst

/-- **Every call of an operation agrees with itself**: it returns in both environments, or raises
the same exception in both. -/
theorem call_noised (site : NoiseSite) (op : Operation) (arguments : Dict String Json) :
    Agrees site (op.call arguments) (op.call arguments)
      (site.Returns op.subject.1 (argument arguments op.subject.2)) := by
  rw [Operation.call]
  cases hbind : bindArguments op.qualname op.signature arguments with
  | error e => exact .throw rfl
  | ok a =>
    obtain rfl := bindArguments_eq_ok hbind
    exact body_noised site op _

end Operations

end NoiseSite

end AgentProof
