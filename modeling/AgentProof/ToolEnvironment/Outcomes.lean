import AgentProof.ToolEnvironment.Services

/-!
# ToolEnvironment/Outcomes — how each operation can end

One `_cases` theorem an operation: it raised and changed nothing, or it returned, and then every
check of its body held and the state is the one written.  A ticket operation has a third outcome, an
exception after a write; `RewritesTicket` says that it needs an ill-formed ticket.
-/

open Machinery Machinery.Raising

namespace AgentProof

/-! ## Inversion of the operations on values -/

namespace Json

variable {F : Type}

theorem subscript_eq_ok {j v : Json F} {key : String} :
    j.subscript key = .ok v ↔ ∃ fields, j = .obj fields ∧ Dict.get? fields key = some v := by
  cases j with
  | obj fields => cases h : Dict.get? fields key <;> simp [subscript, h]
  | _ => simp [subscript]

theorem append_eq_ok {j item v : Json F} :
    j.append item = .ok v ↔ ∃ items, j = .arr items ∧ v = .arr (items ++ [item]) := by
  cases j <;> simp [append, eq_comm]

theorem dictGet_obj_str (fields : Dict String (Json F)) (k : String) (default : Json F) :
    (Json.obj fields).dictGet (.str k) default = .ok ((Dict.get? fields k).getD default) := rfl

theorem setdefault_obj (fields : Dict String (Json F)) (k : String) (default : Json F) :
    (Json.obj fields).setdefault k default = .ok ((Dict.get? fields k).getD default) := rfl

theorem setItem_obj_str (fields : Dict String (Json F)) (k : String) (v : Json F) :
    (Json.obj fields).setItem (.str k) v = .ok (.obj (Dict.set fields k v)) := rfl

variable [Floats F]

theorem number?_canon (j : Json F) : j.canon.number? = j.number? := by
  cases j with
  | bool b => cases b <;> rfl
  | float x =>
    rw [canon]
    cases hx : (Floats.any x).integer? with
    | none => rfl
    | some n => exact congrArg some (AnyFloat.number_eq_of_integer? hx).symm
  | _ => rfl

/-- A `NaN` is a number that is one. -/
theorem isNan_eq_true_iff {j : Json F} :
    j.isNan = true ↔ ∃ x, j.number? = some x ∧ x.isNan = true := by
  cases j with
  | float x => simp [isNan, number?]
  | _ => simp [isNan, number?, AnyFloat.ofInt, AnyFloat.isNan]

variable [DecidableEq F]

theorem contains_obj_str (fields : Dict String (Json F)) (k : String) :
    (Json.obj fields).contains (.str k) = .ok (Dict.has fields k) := rfl

/-- A value found in a set of strings is one of them. -/
theorem inSet_eq_true {j : Json F} {members : List String} :
    j.inSet members = .ok true ↔ ∃ m ∈ members, j = .str m := by
  by_cases h : j.hashable
  · simp only [inSet, h, if_true, Except.ok.injEq, List.any_eq_true, pySame_iff]
    exact exists_congr fun m => and_congr_right fun _ => canon_eq_str_iff
  · refine ⟨fun h' => ?_, ?_⟩
    · simp [inSet, h] at h'
    · rintro ⟨m, -, rfl⟩
      exact absurd rfl h

theorem gt_eq_ok {a b : Json F} {r : Bool} : a.gt b = .ok r ↔ lt? b a = some r := by
  cases h : lt? b a <;> simp [gt, h]

theorem le_eq_ok {a b : Json F} {r : Bool} : a.le b = .ok r ↔ le? a b = some r := by
  cases h : le? a b <;> simp [le, h]

/-- A number of at most `n`. -/
def AtMost (j : Json F) (n : ℤ) : Prop := ∃ x, j.number? = some x ∧ x.le (.ofInt n) = true

/-- A number compares with an integer. -/
theorem compareCanon_int_right (orEqual : Bool) (j : Json F) (n : ℤ) :
    compareCanon orEqual j (.int n) = j.number?.map fun x =>
      if orEqual then x.le (.ofInt n) else x.lt (.ofInt n) := by
  cases j <;> simp [compareCanon, number?]

theorem lt?_int_right (j : Json F) (n : ℤ) :
    lt? j (.int n) = j.number?.map fun x => x.lt (.ofInt n) := by
  have hcanon : canon (F := F) (.int n) = .int n := canon.eq_6 n
  rw [lt?, hcanon, compareCanon_int_right, number?_canon]
  rfl

/-- An integer compares with numbers only. -/
theorem lt?_int_left (n : ℤ) (j : Json F) :
    lt? (.int n) j = j.number?.map fun x => (AnyFloat.ofInt n).lt x := by
  have hcanon : canon (F := F) (.int n) = .int n := canon.eq_6 n
  have h : ∀ c : Json F, compareCanon false (.int n) c =
      c.number?.map fun x => (AnyFloat.ofInt n).lt x := by
    intro c
    cases c <;> simp [compareCanon, number?]
  rw [lt?, hcanon, h, number?_canon]

theorem le_int_iff {j : Json F} {n : ℤ} : j.le (.int n) = .ok true ↔ j.AtMost n := by
  have hcanon : canon (F := F) (.int n) = .int n := canon.eq_6 n
  rw [le_eq_ok, le?, hcanon, compareCanon_int_right, number?_canon, AtMost]
  cases j.number? <;> simp

/-- **What is not above an integer** is at most the integer, or a `NaN`. -/
theorem gt_int_eq_false_iff {j : Json F} {n : ℤ} :
    j.gt (.int n) = .ok false ↔ j.AtMost n ∨ j.isNan = true := by
  rw [gt_eq_ok, lt?_int_left, AtMost, isNan_eq_true_iff]
  cases j.number? <;> simp [AnyFloat.ofInt_lt_eq_false_iff]

/-- The number a value is, where floats are finite. -/
theorem number?_eq_num? (j : Json) : j.number? = j.num?.map fun q => .finite (.fin q) := by
  cases j with
  | bool b => cases b <;> rfl
  | _ => rfl

/-- A number above another. -/
theorem gt_of_num? {a b : Json} {p q : ℚ} (ha : a.num? = some p) (hb : b.num? = some q) :
    a.gt b = .ok (decide (q < p)) := by
  have hnumber : ∀ {j : Json} {r : ℚ}, j.num? = some r →
      j.canon.number? = some (.finite (.fin r)) := fun {j r} hj => by
    rw [number?_canon, number?_eq_num?, hj, Option.map_some]
  have hcompare : ∀ {c d : Json}, c.number? = some (.finite (.fin q)) →
      d.number? = some (.finite (.fin p)) → compareCanon false c d = some (decide (q < p)) := by
    intro c d hc hd
    cases c with
    | str _ | arr _ => cases hc
    | _ =>
      simp only [compareCanon, hc, hd]
      rfl
  rw [gt_eq_ok, lt?, hcompare (hnumber hb) (hnumber ha)]

end Json

variable {F : Type}

/-! ## The collections, and the policy service -/

theorem writeBack_apply {env : SupportToolEnvironment F} {c : Collection}
    {entities : List (String × Json F)} (h : env.state.get c = .obj entities) (k : String)
    (entity : Json F) :
    writeBack c (.str k) entity env = .ok () (env.put c (.obj (Dict.set entities k entity))) := by
  simp only [writeBack, h]

theorem store_cases (c : Collection) (k : String) (entity : Json F)
    (env : SupportToolEnvironment F) :
    (∃ e, store c (.str k) entity env = .error e env) ∨
    ∃ entities, env.state.get c = .obj entities ∧
      store c (.str k) entity env =
        .ok () (env.put c (.obj (Dict.set entities k entity))) := by
  simp only [store]
  cases h : env.state.get c with
  | obj entities => exact .inr ⟨entities, rfl, rfl⟩
  | _ => exact .inl ⟨_, rfl⟩

theorem callPolicy_cases (ref : PolicyRef F) (name : String)
    (method : PolicyService F → ToolOf F (Json F)) (env : SupportToolEnvironment F) :
    (∃ e, callPolicy ref name method env = .error e env) ∨
      callPolicy ref name method env = method env.policy env := by
  cases ref with
  | service => exact .inr rfl
  | value j => exact .inl ⟨_, rfl⟩

/-! ## Tickets -/

/-- A ticket as the seed tasks have it: a status, `notes` a list and `escalation_count` an integer
when they are there. -/
structure TicketWellFormed (ticket : Dict String (Json F)) : Prop where
  status : ∃ status, Dict.get? ticket "status" = some status
  notes : ∀ notes, Dict.get? ticket "notes" = some notes → ∃ items, notes = .arr items
  count : ∀ count, Dict.get? ticket "escalation_count" = some count → ∃ n, count = .int n

/-- The fields the ticket operations write. -/
def ticketFields : List String := ["status", "escalation_count", "notes"]

/-- What a ticket operation makes of a ticket: its other fields are as they were, and a well-formed
ticket stays well formed. -/
structure TicketRewrite (ticket ticket' : Dict String (Json F)) : Prop where
  frame : ∀ key, key ∉ ticketFields → Dict.get? ticket' key = Dict.get? ticket key
  wellFormed : TicketWellFormed ticket → TicketWellFormed ticket'

theorem TicketRewrite.refl (ticket : Dict String (Json F)) : TicketRewrite ticket ticket :=
  ⟨fun _ _ => rfl, id⟩

theorem TicketRewrite.trans {t t' t'' : Dict String (Json F)} (h : TicketRewrite t t')
    (h' : TicketRewrite t' t'') : TicketRewrite t t'' :=
  ⟨fun key hkey => (h'.frame key hkey).trans (h.frame key hkey),
    fun hw => h'.wellFormed (h.wellFormed hw)⟩

theorem TicketRewrite.setStatus (ticket : Dict String (Json F)) (status : Json F) :
    TicketRewrite ticket (Dict.set ticket "status" status) where
  frame key hkey := Dict.get?_set_of_ne _ (by rintro rfl; simp [ticketFields] at hkey) _
  wellFormed h :=
    { status := ⟨status, Dict.get?_set_self _ _ _⟩
      notes := by rw [Dict.get?_set_of_ne _ (by decide)]; exact h.notes
      count := by rw [Dict.get?_set_of_ne _ (by decide)]; exact h.count }

theorem TicketRewrite.setNotes (ticket : Dict String (Json F)) (items : List (Json F)) :
    TicketRewrite ticket (Dict.set ticket "notes" (.arr items)) where
  frame key hkey := Dict.get?_set_of_ne _ (by rintro rfl; simp [ticketFields] at hkey) _
  wellFormed h :=
    { status := by rw [Dict.get?_set_of_ne _ (by decide)]; exact h.status
      notes := by
        rw [Dict.get?_set_self]
        exact fun notes hnotes => ⟨items, (Option.some.inj hnotes).symm⟩
      count := by rw [Dict.get?_set_of_ne _ (by decide)]; exact h.count }

/-- The count of a well-formed ticket goes up to an integer. -/
theorem TicketWellFormed.addOne [Floats F] {ticket : Dict String (Json F)}
    (h : TicketWellFormed ticket) :
    ∃ n, ((Dict.get? ticket "escalation_count").getD (.int 0)).addOne = .ok (.int n) := by
  cases hcount : Dict.get? ticket "escalation_count" with
  | none => exact ⟨1, rfl⟩
  | some count =>
    obtain ⟨n, rfl⟩ := h.count count hcount
    exact ⟨n + 1, rfl⟩

theorem TicketRewrite.setCount [Floats F] {ticket : Dict String (Json F)} {count : Json F}
    (hcount : ((Dict.get? ticket "escalation_count").getD (.int 0)).addOne = .ok count) :
    TicketRewrite ticket (Dict.set ticket "escalation_count" count) where
  frame key hkey := Dict.get?_set_of_ne _ (by rintro rfl; simp [ticketFields] at hkey) _
  wellFormed h :=
    { status := by rw [Dict.get?_set_of_ne _ (by decide)]; exact h.status
      notes := by rw [Dict.get?_set_of_ne _ (by decide)]; exact h.notes
      count := by
        obtain ⟨n, hn⟩ := h.addOne
        rw [Dict.get?_set_self]
        rintro _ ⟨⟩
        exact ⟨n, Except.ok.inj (hcount.symm.trans hn)⟩ }

theorem setField_apply {env : SupportToolEnvironment F} {tickets : List (String × Json F)}
    (h : env.state.tickets = .obj tickets) (k : String) (ticket : Dict String (Json F))
    (key : String) (value : Json F) :
    TicketService.setField (.str k) (.obj ticket) key value env =
      .ok (.obj (Dict.set ticket key value))
        (env.put .tickets (.obj (Dict.set tickets k (.obj (Dict.set ticket key value))))) := by
  have hback := writeBack_apply (c := .tickets) h k (.obj (Dict.set ticket key value))
  simp [TicketService.setField, bind_apply, map_apply, Json.setItem_obj_str, hback]

/-- A note is appended, unless `notes` is not a list. -/
theorem appendNote_cases {env : SupportToolEnvironment F} {tickets : List (String × Json F)}
    (h : env.state.tickets = .obj tickets) (k : String) (ticket : Dict String (Json F))
    (note : Json F) :
    (∃ e, TicketService.appendNote (.str k) (.obj ticket) note env = .error e env ∧
      ¬ TicketWellFormed ticket) ∨
    ∃ ticket', TicketRewrite ticket ticket' ∧
      TicketService.appendNote (.str k) (.obj ticket) note env =
        .ok (.obj ticket') (env.put .tickets (.obj (Dict.set tickets k (.obj ticket')))) := by
  rw [TicketService.appendNote, Json.setdefault_obj]
  cases happend : ((Dict.get? ticket "notes").getD (.arr [])).append note with
  | error e =>
    refine .inl ⟨e, by simp [bind_apply, happend], fun hw => ?_⟩
    cases hnotes : Dict.get? ticket "notes" with
    | none => simp [hnotes, Json.append] at happend
    | some notes =>
      obtain ⟨items, rfl⟩ := hw.notes notes hnotes
      simp [hnotes, Json.append] at happend
  | ok notes =>
    obtain ⟨items, -, rfl⟩ := Json.append_eq_ok.mp happend
    have hback := writeBack_apply (c := .tickets) h k
      (.obj (Dict.set ticket "notes" (.arr (items ++ [note]))))
    exact .inr ⟨_, .setNotes ticket (items ++ [note]), by
      simp [bind_apply, map_apply, happend, Json.setItem_obj_str, hback]⟩

/-- A call rewrites one ticket; it returns if that ticket was well formed. -/
def RewritesTicket (ticketId : Json F) (env : SupportToolEnvironment F)
    (r : EStateM.Result (PyError F) (SupportToolEnvironment F) (Json F)) : Prop :=
  ∃ tickets k ticket ticket', env.state.tickets = .obj tickets ∧ ticketId = .str k ∧
    Dict.get? tickets k = some (.obj ticket) ∧ TicketRewrite ticket ticket' ∧
    stateOf r = env.put .tickets (.obj (Dict.set tickets k (.obj ticket'))) ∧
    (TicketWellFormed ticket → ∃ v s, r = .ok v s)

section Rewriting

variable {env : SupportToolEnvironment F} {tickets : List (String × Json F)} {k : String}
  {ticket ticket' : Dict String (Json F)}

/-- The environment after one ticket was rewritten. -/
theorem RewritesTicket.ok (htickets : env.state.tickets = .obj tickets)
    (hk : Dict.get? tickets k = some (.obj ticket)) (h : TicketRewrite ticket ticket')
    (v : Json F) :
    RewritesTicket (.str k) env
      (.ok v (env.put .tickets (.obj (Dict.set tickets k (.obj ticket'))))) :=
  ⟨tickets, k, ticket, ticket', htickets, rfl, hk, h, rfl, fun _ => ⟨_, _, rfl⟩⟩

/-- A note after another write to the same ticket. -/
theorem RewritesTicket.appendNote (htickets : env.state.tickets = .obj tickets)
    (hk : Dict.get? tickets k = some (.obj ticket)) (h : TicketRewrite ticket ticket')
    (note : Json F) :
    RewritesTicket (.str k) env (TicketService.appendNote (.str k) (.obj ticket') note
      (env.put .tickets (.obj (Dict.set tickets k (.obj ticket'))))) := by
  have hput : (env.put .tickets (.obj (Dict.set tickets k (.obj ticket')))).state.tickets =
      .obj (Dict.set tickets k (.obj ticket')) := rfl
  rcases appendNote_cases hput k ticket' note with ⟨e, hr, hbad⟩ | ⟨ticket'', h', hr⟩
  · rw [hr]
    exact ⟨tickets, k, ticket, ticket', htickets, rfl, hk, h, rfl,
      fun hw => absurd (h.wellFormed hw) hbad⟩
  · rw [hr, SupportToolEnvironment.put_put, Dict.set_set]
    exact .ok htickets hk (h.trans h') _

end Rewriting

theorem setField_of_not_obj {ticket : Json F} (h : ∀ fields, ticket ≠ .obj fields)
    (ticketId : Json F) (key : String) (value : Json F) (env : SupportToolEnvironment F) :
    ∃ e, TicketService.setField ticketId ticket key value env = .error e env := by
  cases ticket with
  | obj fields => exact absurd rfl (h fields)
  | _ => exact ⟨_, rfl⟩

theorem appendNote_of_not_obj {ticket : Json F} (h : ∀ fields, ticket ≠ .obj fields)
    (ticketId note : Json F) (env : SupportToolEnvironment F) :
    ∃ e, TicketService.appendNote ticketId ticket note env = .error e env := by
  cases ticket with
  | obj fields => exact absurd rfl (h fields)
  | _ => exact ⟨_, rfl⟩

variable [Interpreter] [DecidableEq F] [Floats F]

/-! ## Inversion of the common steps -/

theorem find_cases (self : StateRef F) (c : Collection) (what : String) (id : Json F)
    (env : SupportToolEnvironment F) :
    (∃ e, find self c what id env = .error e env) ∨
    ∃ entities k entity, self = .shared ∧ env.state.get c = .obj entities ∧ id = .str k ∧
      Dict.get? entities k = some entity ∧ find self c what id env = .ok entity env := by
  cases self with
  | value j => exact .inl ⟨_, rfl⟩
  | shared =>
    have hread : readCollection .shared c env = .ok (env.state.get c) env := rfl
    rw [find, bind_of_ok hread]
    cases hc : env.state.get c with
    | obj entities =>
      cases id with
      | str k =>
        cases hk : Dict.get? entities k with
        | none => exact .inl ⟨_, by simp [Json.dictGet, Json.hashable, hk, bind_apply]; rfl⟩
        | some entity =>
          by_cases hn : entity = .null
          · exact .inl ⟨_, by simp [Json.dictGet, Json.hashable, hk, bind_apply, hn]; rfl⟩
          · exact .inr ⟨entities, k, entity, rfl, rfl, rfl, hk, by
              simp [Json.dictGet, Json.hashable, hk, bind_apply, hn]⟩
      | _ => exact .inl ⟨_, by simp [Json.dictGet, Json.hashable, bind_apply]; rfl⟩
    | _ => exact .inl ⟨_, by simp [Json.dictGet, bind_apply]; rfl⟩

theorem requireOwner_cases (order orderId req : Json F) (env : SupportToolEnvironment F) :
    (∃ e, requireOwner order orderId req env = .error e env) ∨
    ∃ fields owner, order = .obj fields ∧ Dict.get? fields "customer_id" = some owner ∧
      owner.pyEq req = true ∧ requireOwner order orderId req env = .ok () env := by
  rw [requireOwner]
  cases h : order.subscript "customer_id" with
  | error e => exact .inl ⟨e, rfl⟩
  | ok owner =>
    obtain ⟨fields, rfl, howner⟩ := Json.subscript_eq_ok.mp h
    cases heq : owner.pyEq req with
    | false => exact .inl ⟨_, by simp [bind_apply, heq]; rfl⟩
    | true => exact .inr ⟨fields, owner, rfl, howner, heq, by simp [bind_apply, heq]⟩

/-! ## The orders -/

/-- An order is `delivered`, at most `days` days ago. -/
def DeliveredWithin (order : Dict String (Json F)) (days : ℤ) : Prop :=
  Dict.get? order "status" = some (.str "delivered") ∧
    ∃ ago, Dict.get? order "delivered_days_ago" = some ago ∧ ago.AtMost days

omit [Interpreter] in
theorem deliveredWithin_eq_true {order : Dict String (Json F)} {days : ℤ} :
    PolicyService.deliveredWithin (.obj order) days = .ok true ↔ DeliveredWithin order days := by
  rw [PolicyService.deliveredWithin, DeliveredWithin]
  cases hs : (Json.obj order).subscript "status" with
  | error e =>
    refine ⟨fun h => absurd h (by simp [bind, Except.bind]), fun h => ?_⟩
    rw [Json.subscript_eq_ok.mpr ⟨order, rfl, h.1⟩] at hs
    exact absurd hs (by simp)
  | ok status =>
    obtain ⟨_, hobj, hget⟩ := Json.subscript_eq_ok.mp hs
    obtain rfl := Json.obj.inj hobj
    by_cases hd : status = .str "delivered"
    · subst hd
      cases ha : (Json.obj order).subscript "delivered_days_ago" with
      | error e =>
        refine ⟨fun h => absurd h (by simp [bind, Except.bind]), fun ⟨_, ago, h, _⟩ => ?_⟩
        rw [Json.subscript_eq_ok.mpr ⟨order, rfl, h⟩] at ha
        exact absurd ha (by simp)
      | ok ago =>
        obtain ⟨_, hobj, hago⟩ := Json.subscript_eq_ok.mp ha
        obtain rfl := Json.obj.inj hobj
        simp [bind, Except.bind, hget, hago, Json.le_int_iff]
    · simp [bind, Except.bind, hget, hd, pure, Except.pure]

/-- **The order a customer asks about**: it is found and it is theirs, or nothing else is done. -/
theorem ownedOrder_cases {α : Type} (self : StateRef F) (orderId req : Json F)
    (rest : Json F → ToolOf F α)
    (env : SupportToolEnvironment F) :
    (∃ e, (find self .orders "Order" orderId >>= fun order =>
      requireOwner order orderId req >>= fun _ => rest order) env = .error e env) ∨
    ∃ orders k order owner, self = .shared ∧ env.state.orders = .obj orders ∧ orderId = .str k ∧
      Dict.get? orders k = some (.obj order) ∧ Dict.get? order "customer_id" = some owner ∧
      owner.pyEq req = true ∧
      (find self .orders "Order" orderId >>= fun order =>
        requireOwner order orderId req >>= fun _ => rest order) env = rest (.obj order) env := by
  rcases find_cases self .orders "Order" orderId env with
    ⟨e, h⟩ | ⟨orders, k, entity, hself, horders, rfl, hk, h⟩
  · exact .inl ⟨e, bind_of_error h _⟩
  rw [bind_of_ok h]
  rcases requireOwner_cases entity (.str k) req env with ⟨e, h⟩ |
      ⟨order, owner, rfl, howner, heq, h⟩
  · exact .inl ⟨e, bind_of_error h _⟩
  · exact .inr ⟨orders, k, order, owner, hself, horders, rfl, hk, howner, heq, bind_of_ok h _⟩

theorem cancelOrder_cases (self : OrderService F) (orderId req : Json F)
    (env : SupportToolEnvironment F) :
    (∃ e, self.cancelOrder orderId req env = .error e env) ∨
    ∃ orders k order owner status, env.state.orders = .obj orders ∧ orderId = .str k ∧
      Dict.get? orders k = some (.obj order) ∧ Dict.get? order "customer_id" = some owner ∧
      owner.pyEq req = true ∧ Dict.get? order "status" = some (.str status) ∧
      status ∈ OrderService.cancellableStatuses ∧
      self.cancelOrder orderId req env =
        .ok (.obj (Dict.set order "status" (.str "cancelled")))
          (env.put .orders
            (.obj (Dict.set orders k (.obj (Dict.set order "status" (.str "cancelled")))))) := by
  rw [OrderService.cancelOrder]
  rcases ownedOrder_cases self.state orderId req _ env with
    ⟨e, h⟩ | ⟨orders, k, order, owner, -, horders, rfl, hk, howner, heq, h⟩
  · exact .inl ⟨e, h⟩
  rw [h]
  cases hstatus : (Json.obj order).subscript "status" with
  | error e => exact .inl ⟨e, rfl⟩
  | ok status =>
  cases hset : status.inSet OrderService.cancellableStatuses with
  | error e => exact .inl ⟨e, by simp [bind_apply, hset]⟩
  | ok cancellable =>
  cases cancellable with
  | false => exact .inl ⟨_, by simp [bind_apply, hset]; rfl⟩
  | true =>
  obtain ⟨_, hobj, hget⟩ := Json.subscript_eq_ok.mp hstatus
  obtain ⟨s, hs, rfl⟩ := Json.inSet_eq_true.mp hset
  obtain rfl := Json.obj.inj hobj
  refine .inr ⟨orders, k, order, owner, s, horders, rfl, hk, howner, heq, hget, hs, ?_⟩
  simp [bind_apply, map_apply, hset, Json.setItem_obj_str, writeBack_apply (c := .orders) horders]

/-- The items of an order, as the source iterates over them. -/
def orderItems (order : Dict String (Json F)) : Except (PyError F) (List (Json F)) :=
  ((Dict.get? order "items").getD (.arr [])).iter

omit [Interpreter] in
/-- An item is found when one before which every item has a `sku` carries it. -/
theorem exists_of_anySku {sku : Json F} :
    ∀ {items : List (Json F)}, OrderService.anySku sku items = .ok true →
      ∃ item ∈ items, ∃ s, item.subscript "sku" = .ok s ∧ s.pyEq sku = true
  | [], h => absurd h (by simp [OrderService.anySku])
  | item :: items, h => by
    rw [OrderService.anySku] at h
    cases hs : item.subscript "sku" with
    | error e => simp [hs, bind, Except.bind] at h
    | ok s =>
      simp only [hs, bind, Except.bind] at h
      split_ifs at h with heq
      · exact ⟨item, by simp, s, hs, heq⟩
      · obtain ⟨item', hmem, h'⟩ := exists_of_anySku h
        exact ⟨item', List.mem_cons_of_mem _ hmem, h'⟩

/-! ## The policy checks -/

theorem checkRefundPolicy_cases (self : PolicyService F) (orderId : Json F)
    (env : SupportToolEnvironment F) :
    (∃ e, self.checkRefundPolicy orderId env = .error e env) ∨
    ∃ orders k order eligible max, env.state.orders = .obj orders ∧ orderId = .str k ∧
      Dict.get? orders k = some order ∧
      PolicyService.deliveredWithin order PolicyService.refundWindowDays = .ok eligible ∧
      (eligible = true → order.subscript "total_cents" = .ok max) ∧
      self.checkRefundPolicy orderId env =
        .ok (.obj [("order_id", orderId), ("eligible", .bool eligible),
          ("max_refund_cents", max), ("reason", PolicyService.policyReason eligible)]) env := by
  rw [PolicyService.checkRefundPolicy]
  rcases find_cases self.state .orders "Order" orderId env with ⟨e, h⟩ |
    ⟨orders, k, order, -, horders, rfl, hk, h⟩
  · exact .inl ⟨e, bind_of_error h _⟩
  rw [bind_of_ok h]
  cases hd : PolicyService.deliveredWithin order PolicyService.refundWindowDays with
  | error e => exact .inl ⟨e, rfl⟩
  | ok eligible =>
  cases eligible with
  | false =>
    exact .inr ⟨orders, k, order, false, .int 0, horders, rfl, hk, hd, by simp, rfl⟩
  | true =>
  cases ht : order.subscript "total_cents" with
  | error e => exact .inl ⟨e, by simp [bind_apply, map_apply]⟩
  | ok total =>
    exact .inr ⟨orders, k, order, true, total, horders, rfl, hk, hd, fun _ => ht, by
      simp [bind_apply, map_apply]⟩

theorem checkReplacementPolicy_cases (self : PolicyService F) (orderId : Json F)
    (env : SupportToolEnvironment F) :
    (∃ e, self.checkReplacementPolicy orderId env = .error e env) ∨
    ∃ orders k order eligible, env.state.orders = .obj orders ∧ orderId = .str k ∧
      Dict.get? orders k = some order ∧
      PolicyService.deliveredWithin order PolicyService.replacementWindowDays = .ok eligible ∧
      self.checkReplacementPolicy orderId env =
        .ok (.obj [("order_id", orderId), ("eligible", .bool eligible),
          ("reason", PolicyService.policyReason eligible)]) env := by
  rw [PolicyService.checkReplacementPolicy]
  rcases find_cases self.state .orders "Order" orderId env with ⟨e, h⟩ |
    ⟨orders, k, order, -, horders, rfl, hk, h⟩
  · exact .inl ⟨e, bind_of_error h _⟩
  rw [bind_of_ok h]
  cases hd : PolicyService.deliveredWithin order PolicyService.replacementWindowDays with
  | error e => exact .inl ⟨e, rfl⟩
  | ok eligible => exact .inr ⟨orders, k, order, eligible, horders, rfl, hk, hd, rfl⟩

/-- The refund policy, asked about an order. -/
theorem callRefundPolicy_cases (ref : PolicyRef F) {env : SupportToolEnvironment F}
    {orders order : Dict String (Json F)} {k : String} (horders : env.state.orders = .obj orders)
    (hk : Dict.get? orders k = some (.obj order)) :
    (∃ e, callPolicy ref "check_refund_policy" (·.checkRefundPolicy (.str k)) env =
      .error e env) ∨
    ∃ eligible max,
      PolicyService.deliveredWithin (.obj order) PolicyService.refundWindowDays = .ok eligible ∧
      (eligible = true → Dict.get? order "total_cents" = some max) ∧
      callPolicy ref "check_refund_policy" (·.checkRefundPolicy (.str k)) env =
        .ok (.obj [("order_id", .str k), ("eligible", .bool eligible),
          ("max_refund_cents", max), ("reason", PolicyService.policyReason eligible)]) env := by
  rcases callPolicy_cases ref "check_refund_policy" (·.checkRefundPolicy (.str k)) env with
    h | hcall
  · exact .inl h
  rcases checkRefundPolicy_cases env.policy (.str k) env with
    ⟨e, hpolicy⟩ | ⟨_, _, _, eligible, max, horders', hid, hk', hd, hmax, hpolicy⟩
  · exact .inl ⟨e, hcall.trans hpolicy⟩
  obtain rfl := Json.str.inj hid
  obtain rfl := Json.obj.inj (horders.symm.trans horders')
  obtain rfl := Option.some.inj (hk.symm.trans hk')
  refine .inr ⟨eligible, max, hd, fun heligible => ?_, hcall.trans hpolicy⟩
  obtain ⟨_, hobj, htotal⟩ := Json.subscript_eq_ok.mp (hmax heligible)
  obtain rfl := Json.obj.inj hobj
  exact htotal

/-- The replacement policy, asked about an order. -/
theorem callReplacementPolicy_cases (ref : PolicyRef F) {env : SupportToolEnvironment F}
    {orders : Dict String (Json F)} {order : Json F} {k : String}
    (horders : env.state.orders = .obj orders) (hk : Dict.get? orders k = some order) :
    (∃ e, callPolicy ref "check_replacement_policy" (·.checkReplacementPolicy (.str k)) env =
      .error e env) ∨
    ∃ eligible,
      PolicyService.deliveredWithin order PolicyService.replacementWindowDays = .ok eligible ∧
      callPolicy ref "check_replacement_policy" (·.checkReplacementPolicy (.str k)) env =
        .ok (.obj [("order_id", .str k), ("eligible", .bool eligible),
          ("reason", PolicyService.policyReason eligible)]) env := by
  rcases callPolicy_cases ref "check_replacement_policy"
      (·.checkReplacementPolicy (.str k)) env with
    h | hcall
  · exact .inl h
  rcases checkReplacementPolicy_cases env.policy (.str k) env with
    ⟨e, hpolicy⟩ | ⟨_, _, _, eligible, horders', hid, hk', hd, hpolicy⟩
  · exact .inl ⟨e, hcall.trans hpolicy⟩
  obtain rfl := Json.str.inj hid
  obtain rfl := Json.obj.inj (horders.symm.trans horders')
  obtain rfl := Option.some.inj (hk.symm.trans hk')
  exact .inr ⟨eligible, hd, hcall.trans hpolicy⟩

/-! ## Refunds and replacements -/

omit [Interpreter] in
/-- A collection an id is looked up in and then assigned to is a dictionary without the id. -/
theorem store_new_cases (env : SupportToolEnvironment F) (c : Collection) (k : String)
    (hnot : (env.state.get c).contains (.str k) = .ok false) (entity : Json F) :
    (∃ e, store c (.str k) entity env = .error e env) ∨
    ∃ entities, env.state.get c = .obj entities ∧ Dict.get? entities k = none ∧
      store c (.str k) entity env =
        .ok () (env.put c (.obj (Dict.set entities k entity))) := by
  rcases store_cases c k entity env with h | ⟨entities, hc, h⟩
  · exact .inl h
  · rw [hc, Json.contains_obj_str, Except.ok.injEq] at hnot
    exact .inr ⟨entities, hc, Dict.has_eq_false_iff.mp hnot, h⟩

/-- The replacement an operation records. -/
def replacementRecord (orderId sku reason : Json F) : Json F :=
  .obj [("order_id", orderId), ("sku", sku), ("reason", reason)]

theorem replaceItem_cases (self : OrderService F) (orderId req sku reason : Json F)
    (env : SupportToolEnvironment F) :
    (∃ e, self.replaceItem orderId req sku reason env = .error e env) ∨
    ∃ orders k order owner items replacements, env.state.orders = .obj orders ∧
      orderId = .str k ∧ Dict.get? orders k = some (.obj order) ∧
      Dict.get? order "customer_id" = some owner ∧ owner.pyEq req = true ∧
      orderItems order = .ok items ∧ OrderService.anySku sku items = .ok true ∧
      DeliveredWithin order PolicyService.replacementWindowDays ∧
      env.state.replacements = .obj replacements ∧ Dict.get? replacements k = none ∧
      self.replaceItem orderId req sku reason env =
        .ok (replacementRecord orderId sku reason)
          (env.put .replacements
            (.obj (Dict.set replacements k (replacementRecord orderId sku reason)))) := by
  rw [OrderService.replaceItem]
  rcases ownedOrder_cases self.state orderId req _ env with
    ⟨e, h⟩ | ⟨orders, k, order, owner, hself, horders, rfl, hk, howner, heq, h⟩
  · exact .inl ⟨e, h⟩
  rw [h, Json.dictGet_obj_str]
  cases hitems : orderItems order with
  | error e => exact .inl ⟨e, by rw [orderItems] at hitems; simp [bind_apply, hitems]⟩
  | ok items =>
  rw [orderItems] at hitems
  cases hany : OrderService.anySku sku items with
  | error e => exact .inl ⟨e, by simp [bind_apply, hitems, hany]⟩
  | ok onOrder =>
  cases onOrder with
  | false => exact .inl ⟨_, by simp [bind_apply, hitems, hany]; rfl⟩
  | true =>
  have hread : readCollection self.state .replacements env =
      .ok env.state.replacements env := by rw [hself]; rfl
  cases hcontains : env.state.replacements.contains (.str k) with
  | error e => exact .inl ⟨e, by simp [bind_apply, hitems, hany, hread, hcontains]⟩
  | ok replaced =>
  cases replaced with
  | true => exact .inl ⟨_, by simp [bind_apply, hitems, hany, hread, hcontains]; rfl⟩
  | false =>
  rcases callReplacementPolicy_cases self.policyService horders hk with
    ⟨e, hcall⟩ | ⟨eligible, hd, hcall⟩
  · exact .inl ⟨e, by simp [bind_apply, hitems, hany, hread, hcontains, hcall]⟩
  cases eligible with
  | false =>
    exact .inl ⟨_, by
      simp [bind_apply, hitems, hany, hread, hcontains, hcall, Json.subscript,
        Dict.get?_cons, Json.truthy]; rfl⟩
  | true =>
  rcases store_new_cases env .replacements k hcontains
    (replacementRecord (.str k) sku reason) with
    ⟨e, hstore⟩ | ⟨replacements, hreplacements, hnew, hstore⟩
  · refine .inl ⟨e, ?_⟩
    rw [replacementRecord] at hstore
    simp [bind_apply, map_apply, hitems, hany, hread, hcontains, hcall, Json.subscript,
        Dict.get?_cons, Json.truthy, hstore]
  · refine .inr ⟨orders, _, order, owner, items, replacements, horders, rfl, hk, howner, heq,
      hitems, hany, deliveredWithin_eq_true.mp hd, hreplacements, hnew, ?_⟩
    rw [replacementRecord] at hstore ⊢
    simp [bind_apply, map_apply, hitems, hany, hread, hcontains, hcall, Json.subscript,
        Dict.get?_cons, Json.truthy, hstore]

/-- The refund an operation records. -/
def refundRecord (orderId amountCents reason : Json F) : Json F :=
  .obj [("order_id", orderId), ("amount_cents", amountCents), ("reason", reason)]

theorem createRefund_cases (self : RefundService F) (orderId req amountCents reason : Json F)
    (env : SupportToolEnvironment F) :
    (∃ e, self.createRefund orderId req amountCents reason env = .error e env) ∨
    ∃ orders k order owner total refunds, env.state.orders = .obj orders ∧ orderId = .str k ∧
      Dict.get? orders k = some (.obj order) ∧ Dict.get? order "customer_id" = some owner ∧
      owner.pyEq req = true ∧ Dict.get? order "total_cents" = some total ∧
      amountCents.gt total = .ok false ∧
      DeliveredWithin order PolicyService.refundWindowDays ∧
      env.state.refunds = .obj refunds ∧ Dict.get? refunds k = none ∧
      self.createRefund orderId req amountCents reason env =
        .ok (refundRecord orderId amountCents reason)
          (env.put .refunds
            (.obj (Dict.set refunds k (refundRecord orderId amountCents reason)))) := by
  rw [RefundService.createRefund]
  rcases ownedOrder_cases self.state orderId req _ env with
    ⟨e, h⟩ | ⟨orders, k, order, owner, hself, horders, rfl, hk, howner, heq, h⟩
  · exact .inl ⟨e, h⟩
  rw [h]
  have hread : readCollection self.state .refunds env = .ok env.state.refunds env := by
    rw [hself]; rfl
  cases hcontains : env.state.refunds.contains (.str k) with
  | error e => exact .inl ⟨e, by simp [bind_apply, hread, hcontains]⟩
  | ok refunded =>
  cases refunded with
  | true => exact .inl ⟨_, by simp [bind_apply, hread, hcontains]; rfl⟩
  | false =>
  rcases callRefundPolicy_cases self.policyService horders hk with
    ⟨e, hcall⟩ | ⟨eligible, max, hd, hmax, hcall⟩
  · exact .inl ⟨e, by simp [bind_apply, hread, hcontains, hcall]⟩
  cases eligible with
  | false =>
    exact .inl ⟨_, by
      simp [bind_apply, hread, hcontains, hcall, Json.subscript, Dict.get?_cons,
        Json.truthy]; rfl⟩
  | true =>
  cases hgt : amountCents.gt max with
  | error e =>
    exact .inl ⟨e, by
      simp [bind_apply, hread, hcontains, hcall, Json.subscript, Dict.get?_cons,
        Json.truthy, hgt]⟩
  | ok exceeds =>
  cases exceeds with
  | true =>
    exact .inl ⟨_, by
      simp [bind_apply, hread, hcontains, hcall, Json.subscript, Dict.get?_cons,
        Json.truthy, hgt]; rfl⟩
  | false =>
  rcases store_new_cases env .refunds k hcontains
    (refundRecord (.str k) amountCents reason) with ⟨e, hstore⟩ | ⟨refunds, hrefunds, hnew, hstore⟩
  · refine .inl ⟨e, ?_⟩
    rw [refundRecord] at hstore
    simp [bind_apply, map_apply, hread, hcontains, hcall, Json.subscript,
      Dict.get?_cons, Json.truthy, hgt, hstore]
  · refine .inr
      ⟨orders, _, order, owner, max, refunds, horders, rfl, hk, howner, heq, hmax rfl, hgt,
      deliveredWithin_eq_true.mp hd, hrefunds, hnew, ?_⟩
    rw [refundRecord] at hstore ⊢
    simp [bind_apply, map_apply, hread, hcontains, hcall, Json.subscript,
      Dict.get?_cons, Json.truthy, hgt, hstore]

/-! ## The ticket operations -/

theorem updateTicket_cases (self : TicketService F) (ticketId status note : Json F)
    (env : SupportToolEnvironment F) :
    (∃ e, self.updateTicket ticketId status note env = .error e env) ∨
    (∃ ticket, self.updateTicket ticketId status note env = .ok ticket env) ∨
    RewritesTicket ticketId env (self.updateTicket ticketId status note env) := by
  rw [TicketService.updateTicket]
  rcases find_cases self.state .tickets "Ticket" ticketId env with ⟨e, h⟩ |
    ⟨tickets, k, entity, -, htickets, rfl, hk, h⟩
  · exact .inl ⟨e, bind_of_error h _⟩
  rw [bind_of_ok h]
  by_cases hobj : ∃ fields, entity = .obj fields
  · obtain ⟨ticket, rfl⟩ := hobj
    by_cases hstatus : status = .null
    · simp only [ne_eq, hstatus, not_true_eq_false, ↓reduceIte, pure_bind]
      by_cases hnote : note = .null
      · simp only [hnote, not_true_eq_false, ↓reduceIte]
        exact .inr (.inl ⟨_, rfl⟩)
      · simp only [hnote, not_false_eq_true, ↓reduceIte]
        rcases appendNote_cases htickets k ticket note with ⟨e, hr, -⟩ | ⟨ticket', ht, hr⟩
        · exact .inl ⟨e, hr⟩
        · rw [hr]
          exact .inr (.inr (.ok htickets hk ht _))
    · simp only [ne_eq, hstatus, not_false_eq_true, ↓reduceIte,
        bind_of_ok (setField_apply htickets k ticket "status" status)]
      by_cases hnote : note = .null
      · simp only [hnote, not_true_eq_false, ↓reduceIte]
        exact .inr (.inr (.ok htickets hk (.setStatus ticket status) _))
      · simp only [hnote, not_false_eq_true, ↓reduceIte]
        exact .inr (.inr (.appendNote htickets hk (.setStatus ticket status) note))
  · have hnot : ∀ fields, entity ≠ .obj fields := fun fields h => hobj ⟨fields, h⟩
    by_cases hstatus : status = .null
    · simp only [ne_eq, hstatus, not_true_eq_false, ↓reduceIte, pure_bind]
      by_cases hnote : note = .null
      · simp only [hnote, not_true_eq_false, ↓reduceIte]
        exact .inr (.inl ⟨_, rfl⟩)
      · simp only [hnote, not_false_eq_true, ↓reduceIte]
        exact .inl (appendNote_of_not_obj hnot _ note env)
    · obtain ⟨e, hr⟩ := setField_of_not_obj hnot (.str k) "status" status env
      rw [if_pos hstatus]
      exact .inl ⟨e, bind_of_error hr _⟩

theorem escalateTicket_cases (self : TicketService F) (ticketId reason : Json F)
    (env : SupportToolEnvironment F) :
    (∃ e, self.escalateTicket ticketId reason env = .error e env) ∨
    RewritesTicket ticketId env (self.escalateTicket ticketId reason env) := by
  rw [TicketService.escalateTicket]
  rcases find_cases self.state .tickets "Ticket" ticketId env with ⟨e, h⟩ |
    ⟨tickets, k, entity, -, htickets, rfl, hk, h⟩
  · exact .inl ⟨e, bind_of_error h _⟩
  rw [bind_of_ok h]
  cases hstatus : entity.subscript "status" with
  | error e => exact .inl ⟨e, rfl⟩
  | ok status =>
  cases hset : status.inSet TicketService.escalatableStatuses with
  | error e => exact .inl ⟨e, by simp [bind_apply, hset]⟩
  | ok escalatable =>
  cases escalatable with
  | false => exact .inl ⟨_, by simp [bind_apply, hset]; rfl⟩
  | true =>
  obtain ⟨ticket, rfl, -⟩ := Json.subscript_eq_ok.mp hstatus
  right
  simp only [lift_ok_bind, hset, Bool.not_true, Bool.false_eq_true, ↓reduceIte,
    bind_of_ok (setField_apply htickets k ticket "status" (.str "escalated")),
    Json.dictGet_obj_str]
  have hescalated := TicketRewrite.setStatus ticket (.str "escalated")
  cases hcount : ((Dict.get? (Dict.set ticket "status" (.str "escalated"))
      "escalation_count").getD (.int 0)).addOne with
  | error e =>
    refine ⟨tickets, k, ticket, _, htickets, rfl, hk, hescalated, rfl, fun hw => ?_⟩
    obtain ⟨n, hn⟩ := (hescalated.wellFormed hw).addOne
    exact absurd (hcount.symm.trans hn) (by simp)
  | ok count =>
    have hput : (env.put .tickets (.obj (Dict.set tickets k
        (.obj (Dict.set ticket "status" (.str "escalated")))))).state.tickets =
        .obj (Dict.set tickets k (.obj (Dict.set ticket "status" (.str "escalated")))) := rfl
    simp only [lift_ok_bind,
      bind_of_ok (setField_apply hput k _ "escalation_count" count),
      SupportToolEnvironment.put_put, Dict.set_set]
    exact .appendNote htickets hk (hescalated.trans (.setCount hcount)) reason

end AgentProof
