import AgentProof.Benchmark.Schema

/-!
# Benchmark/Tasks — a seed task

The task the closed runs of the development are over.
-/

open Machinery

namespace AgentProof

/-- `CUSTOMER_REFUND_WITHIN_POLICY` -/
def customerRefundWithinPolicy : BenchmarkTask where
  taskId := "support_refund_within_30_days_001"
  input := "Customer CUST-001 says order ORD-1001 arrived damaged and asks for a refund. " ++
    "Resolve according to policy and update the ticket."
  initialState :=
    [("customers", .obj [("CUST-001", .obj [("customer_id", .str "CUST-001"),
        ("name", .str "Avery Chen"), ("email", .str "avery@example.test")])]),
      ("orders", .obj [("ORD-1001", .obj [("order_id", .str "ORD-1001"),
        ("customer_id", .str "CUST-001"), ("status", .str "delivered"),
        ("total_cents", .int 4200), ("delivered_days_ago", .int 12),
        ("items", .arr [.obj [("sku", .str "MUG-RED"), ("quantity", .int 1)]])])]),
      ("refunds", .obj []),
      ("tickets", .obj [("TICK-9001", .obj [("ticket_id", .str "TICK-9001"),
        ("customer_id", .str "CUST-001"), ("status", .str "open"), ("notes", .arr [])])])]
  expectedActions :=
    [⟨"customer", "get_customer", [("customer_id", .str "CUST-001")]⟩,
      ⟨"order", "get_order", [("order_id", .str "ORD-1001")]⟩,
      ⟨"policy", "check_refund_policy", [("order_id", .str "ORD-1001")]⟩,
      ⟨"refund", "create_refund", [("order_id", .str "ORD-1001"), ("amount_cents", .int 4200)]⟩,
      ⟨"ticket", "update_ticket",
        [("ticket_id", .str "TICK-9001"), ("status", .str "resolved")]⟩]
  forbiddenActions :=
    [⟨"refund", "create_refund", "Refund amount must not exceed the order total.",
      [("order_id", .str "ORD-1001"), ("amount_cents", .int 4201)]⟩]
  expectedFinalState :=
    [("refunds", .obj [("ORD-1001", .obj [("order_id", .str "ORD-1001"),
        ("amount_cents", .int 4200), ("reason", .str "damaged_item")])]),
      ("tickets", .obj [("TICK-9001", .obj [("status", .str "resolved")])])]
  tags := ["refund", "damaged_item", "within_policy"]
  difficulty := .easy

end AgentProof
