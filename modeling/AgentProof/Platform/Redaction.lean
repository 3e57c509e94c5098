import AgentProof.Python.Errors

/-!
# Platform/Redaction — sensitive fields of a payload

`redactPayload` replaces the value of every key whose lower-cased form is sensitive, at any depth.
It is applied when an event is stored, not when the run is scored.
-/

open Machinery

namespace AgentProof

/-- `REDACTED` -/
def redacted : String := "[REDACTED]"

/-- `SENSITIVE_KEYS` -/
def sensitiveKeys : List String :=
  ["name", "email", "phone", "phone_number", "address", "ssn", "credit_card", "card_number"]

/-- `key.lower()`.  Only ASCII letters matter: no other letter lower-cases to one of a sensitive key
(`K`, the Kelvin sign, would need a `k`). -/
def lower (key : String) : String := String.ofList (key.toList.map Char.toLower)

/-- `key.lower() in SENSITIVE_KEYS` -/
def isSensitive (key : String) : Bool := decide (lower key ∈ sensitiveKeys)

mutual

/-- `_redact_value` -/
def redactValue : Json → Json
  | .obj fields => .obj (redactFields fields)
  | .arr items => .arr (redactItems items)
  | j => j

/-- `_redact_value` on the items of a list. -/
def redactItems : List Json → List Json
  | [] => []
  | j :: js => redactValue j :: redactItems js

/-- `_redact_value` on the fields of an object. -/
def redactFields : List (String × Json) → List (String × Json)
  | [] => []
  | (key, item) :: fields =>
    (key, if isSensitive key then .str redacted else redactValue item) :: redactFields fields

end

/-- `redact_payload` -/
def redactPayload (payload : Dict String Json) : Dict String Json := redactFields payload

/-! ## What is stored as it is -/

mutual

/-- Every key of a value, at any depth, passes a test. -/
def Json.keysAll (p : String → Bool) : Json → Bool
  | .obj fields => Json.keysAllFields p fields
  | .arr items => Json.keysAllItems p items
  | _ => true

/-- `keysAll` of every item. -/
def Json.keysAllItems (p : String → Bool) : List Json → Bool
  | [] => true
  | j :: js => j.keysAll p && Json.keysAllItems p js

/-- Every key passes the test, and `keysAll` of every field. -/
def Json.keysAllFields (p : String → Bool) : List (String × Json) → Bool
  | [] => true
  | (key, j) :: fields => p key && j.keysAll p && Json.keysAllFields p fields

end

/-- No key, at any depth, is sensitive. -/
def Json.insensitive (j : Json) : Bool := j.keysAll fun key => !isSensitive key

mutual

/-- **A value without sensitive keys is stored as it is.** -/
theorem redactValue_eq_self : ∀ {j : Json}, j.insensitive = true → redactValue j = j
  | .obj _, h => congrArg Json.obj (redactFields_eq_self h)
  | .arr _, h => congrArg Json.arr (redactItems_eq_self h)
  | .null, _ | .bool _, _ | .int _, _ | .float _, _ | .str _, _ => rfl

theorem redactItems_eq_self : ∀ {items : List Json},
    Json.keysAllItems (fun key => !isSensitive key) items = true → redactItems items = items
  | [], _ => rfl
  | j :: js, h => by
    rw [Json.keysAllItems, Bool.and_eq_true] at h
    rw [redactItems, redactValue_eq_self h.1, redactItems_eq_self h.2]

theorem redactFields_eq_self : ∀ {fields : List (String × Json)},
    Json.keysAllFields (fun key => !isSensitive key) fields = true → redactFields fields = fields
  | [], _ => rfl
  | (key, j) :: fields, h => by
    rw [Json.keysAllFields, Bool.and_eq_true, Bool.and_eq_true] at h
    obtain ⟨⟨hkey, hj⟩, hfields⟩ := h
    have hkey : isSensitive key = false := by simpa using hkey
    rw [redactFields, redactFields_eq_self hfields, hkey, redactValue_eq_self hj]
    rfl

end

mutual

/-- **Redaction is idempotent.** -/
theorem redactValue_redactValue : ∀ j : Json, redactValue (redactValue j) = redactValue j
  | .obj fields => congrArg Json.obj (redactFields_redactFields fields)
  | .arr items => congrArg Json.arr (redactItems_redactItems items)
  | .null | .bool _ | .int _ | .float _ | .str _ => rfl

theorem redactItems_redactItems : ∀ items : List Json,
    redactItems (redactItems items) = redactItems items
  | [] => rfl
  | j :: js => by
    rw [redactItems, redactItems, redactValue_redactValue j, redactItems_redactItems js]

theorem redactFields_redactFields : ∀ fields : List (String × Json),
    redactFields (redactFields fields) = redactFields fields
  | [] => rfl
  | (key, j) :: fields => by
    rw [redactFields, redactFields, redactFields_redactFields fields]
    by_cases hkey : isSensitive key = true
    · simp [hkey]
    · simp [hkey, redactValue_redactValue j]

end

/-- What is stored under a key: the redacted value, or a mark. -/
theorem get?_redactPayload (payload : Dict String Json) (key : String) :
    Dict.get? (redactPayload payload) key =
      (Dict.get? payload key).map fun j => if isSensitive key then .str redacted else redactValue j := by
  rw [redactPayload]
  induction payload with
  | nil => rfl
  | cons e payload ih =>
    rw [redactFields, Dict.get?_cons, Dict.get?_cons]
    by_cases hkey : e.1 = key
    · simp [hkey]
    · simpa [hkey] using ih

end AgentProof
