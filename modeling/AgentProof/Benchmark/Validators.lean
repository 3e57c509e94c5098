import AgentProof.ToolEnvironment.Services

/-!
# Benchmark/Validators — the operation table the benchmark validates against

`VALID_SERVICE_OPERATIONS` is written down apart from the services; `declared_iff` says that the two
coincide.
-/

namespace AgentProof

/-- `benchmark.validators.VALID_SERVICE_OPERATIONS` -/
def validServiceOperations : List (String × List String) :=
  [("customer", ["get_customer"]),
    ("order", ["get_order", "cancel_order", "replace_item"]),
    ("policy", ["check_refund_policy", "check_replacement_policy"]),
    ("refund", ["create_refund"]),
    ("ticket", ["update_ticket", "escalate_ticket"])]

/-- The table has the pair. -/
def Declared (service operation : String) : Prop :=
  ∃ entry ∈ validServiceOperations, entry.1 = service ∧ operation ∈ entry.2

instance (service operation : String) : Decidable (Declared service operation) :=
  inferInstanceAs (Decidable (∃ entry ∈ validServiceOperations, _))

theorem Operation.declared (op : Operation) : Declared op.service op.name := by
  cases op <;> decide

/-- **The table lists the public operations and nothing else.** -/
theorem declared_iff {service operation : String} :
    Declared service operation ↔ ∃ op : Operation, op.service = service ∧ op.name = operation := by
  refine ⟨fun ⟨entry, hentry, hservice, hoperation⟩ => ?_, ?_⟩
  · have hall : ∀ entry ∈ validServiceOperations, ∀ operation ∈ entry.2,
        ∃ op ∈ Operation.all, op.service = entry.1 ∧ op.name = operation := by decide
    obtain ⟨op, -, h⟩ := hall entry hentry operation hoperation
    exact ⟨op, h.1.trans hservice, h.2⟩
  · rintro ⟨op, rfl, rfl⟩
    exact op.declared

end AgentProof
