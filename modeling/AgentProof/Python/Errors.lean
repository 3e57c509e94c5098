import AgentProof.Python.Json
import Mathlib.Data.List.Infix

/-!
# Python/Errors — the exceptions the platform raises and what raises them

`PyError` lists the exception classes the source tells apart.  An exception CPython raises itself
carries its cause, not its text: the text differs between versions.
-/

open Machinery

namespace AgentProof

/-- Why CPython raises a `TypeError`. -/
inductive TypeErrorCause (F : Type := PyFloat) where
  | unhashable (use : String) (value : Json F)
  | unorderable (operator : String) (left right : Json F)
  | notSubscriptable (value : Json F)
  | noItemAssignment (value : Json F)
  | notIterable (value : Json F)
  | notContainer (value : Json F)
  | notInString (value : Json F)
  | notAddable (value : Json F)
  | notMapping (value : Json F)
  | notIndex (value key : Json F)
  | unexpectedKeyword (function keyword : String)
  | multipleValues (function argument : String)
  | missingArguments (function : String) (names : List String)
  | builtinCall (function : String) (keywords : List String)
  deriving DecidableEq

/-- An exception. -/
inductive PyError (F : Type := PyFloat) where
  /-- `tool_environment.errors.NotFoundError` -/
  | notFound (message : String)
  /-- `tool_environment.errors.PolicyViolationError` -/
  | policyViolation (message : String)
  /-- `runner.tool_proxy.UnknownToolError` -/
  | unknownTool (message : String)
  | typeError (cause : TypeErrorCause F)
  | keyError (key : String)
  | attributeError (typeName name : String)
  | valueError (message : String)
  /-- pydantic's `ValidationError` -/
  | validationError (field : String)
  /-- pydantic's `PydanticSerializationError` -/
  | serializationError (className : String)
  /-- `runner.model_client.TransientModelError` -/
  | transientModelError (message : String)
  /-- fastapi's `HTTPException` -/
  | httpException (statusCode : ℕ) (detail : String)
  /-- `judges.llm.JudgeResponseError` -/
  | judgeResponseError (message : String)
  /-- any other exception: of the database driver, of a model or judge backend -/
  | other (className message : String)
  deriving DecidableEq

/-- `type(error).__name__` -/
def PyError.className {F : Type} : PyError F → String
  | .notFound _ => "NotFoundError"
  | .policyViolation _ => "PolicyViolationError"
  | .unknownTool _ => "UnknownToolError"
  | .typeError _ => "TypeError"
  | .keyError _ => "KeyError"
  | .attributeError _ _ => "AttributeError"
  | .valueError _ => "ValueError"
  | .validationError _ => "ValidationError"
  | .serializationError _ => "PydanticSerializationError"
  | .transientModelError _ => "TransientModelError"
  | .httpException _ _ => "HTTPException"
  | .judgeResponseError _ => "JudgeResponseError"
  | .other className _ => className

/-! ## Operations on values that raise -/

namespace Json

variable {F : Type}

/-- `j.get(key, default)` -/
def dictGet (j key default : Json F) : Except (PyError F) (Json F) :=
  match j with
  | .obj fields =>
    if key.hashable then
      match key with
      | .str k => .ok ((Dict.get? fields k).getD default)
      | _ => .ok default
    else .error (.typeError (.unhashable "dict key" key))
  | _ => .error (.attributeError j.typeName "get")

/-- What `j.setdefault(key, default)` returns.  The source assigns it to the key again. -/
def setdefault (j : Json F) (key : String) (default : Json F) : Except (PyError F) (Json F) :=
  match j with
  | .obj fields => .ok ((Dict.get? fields key).getD default)
  | _ => .error (.attributeError j.typeName "setdefault")

/-- `j[key]`, the key a string literal of the source -/
def subscript (j : Json F) (key : String) : Except (PyError F) (Json F) :=
  match j with
  | .obj fields =>
    match Dict.get? fields key with
    | some v => .ok v
    | none => .error (.keyError key)
  | _ => .error (.typeError (.notSubscriptable j))

/-- `items[n]`: a negative index counts from the end. -/
def itemAt (items : List (Json F)) (n : ℤ) : Except (PyError F) (Json F) :=
  let place := if n < 0 then n + items.length else n
  match if place < 0 then none else items[place.toNat]? with
  | some v => .ok v
  | none => .error (.other "IndexError" "list index out of range")

/-- `j[key]`, where `key in j`: what a dictionary has as a key is a string. -/
def item (j key : Json F) : Except (PyError F) (Json F) :=
  match j, key with
  | .obj _, .str k => j.subscript k
  | .arr items, .int n => itemAt items n
  | .arr items, .bool b => itemAt items (if b then 1 else 0)
  | _, _ => .error (.typeError (.notIndex j key))

/-- The entries that `{**j}` unpacks. -/
def unpack (j : Json F) : Except (PyError F) (Dict String (Json F)) :=
  match j with
  | .obj fields => .ok fields
  | _ => .error (.typeError (.notMapping j))

theorem unpack_eq_ok {j : Json F} {entries : Dict String (Json F)} :
    j.unpack = .ok entries ↔ j = .obj entries := by
  cases j <;> simp [Json.unpack]

theorem item_obj_eq_ok {entries : Dict String (Json F)} {key v : Json F} :
    (Json.obj entries).item key = .ok v ↔ ∃ k, key = .str k ∧ Dict.get? entries k = some v := by
  cases key with
  | str k =>
    rw [Json.item, Json.subscript]
    cases hread : Dict.get? entries k <;> simp [hread]
  | _ => simp [Json.item]

/-- `j[key] = value`.  The source assigns under string keys only. -/
def setItem (j key value : Json F) : Except (PyError F) (Json F) :=
  match j, key with
  | .obj fields, .str k => .ok (.obj (Dict.set fields k value))
  | _, _ => .error (.typeError (.noItemAssignment j))

variable [DecidableEq F] [Floats F]

/-- `key in j` -/
def contains (j key : Json F) : Except (PyError F) Bool :=
  match j with
  | .obj fields =>
    if key.hashable then
      match key with
      | .str k => .ok (Dict.has fields k)
      | _ => .ok false
    else .error (.typeError (.unhashable "dict key" key))
  | .arr items => .ok (items.any fun item => pySame item key)
  | .str s =>
    match key with
    | .str k => .ok (decide (k.toList <:+: s.toList))
    | _ => .error (.typeError (.notInString key))
  | _ => .error (.typeError (.notContainer j))

/-- An entry that is replaced leaves the keys as they are. -/
theorem contains_set {entries : Dict String (Json F)} {k : String} {v : Json F}
    (hk : Dict.get? entries k = some v) (w value : Json F) :
    (obj (Dict.set entries k w)).contains value = (obj entries).contains value := by
  cases value with
  | str k' =>
    by_cases hkk : k = k'
    · subst hkk
      simp [contains, hashable, Dict.has, hk]
    · simp [contains, hashable, Dict.has, Dict.get?_set_of_ne _ hkk]
  | _ => rfl

/-- `j in frozenset(members)` -/
def inSet (j : Json F) (members : List String) : Except (PyError F) Bool :=
  if j.hashable then .ok (members.any fun m => pySame j (.str m))
  else .error (.typeError (.unhashable "set element" j))

/-- `for item in j` -/
def iter (j : Json F) : Except (PyError F) (List (Json F)) :=
  match j with
  | .arr items => .ok items
  | .obj fields => .ok (fields.map fun e => .str e.1)
  | .str s => .ok (s.toList.map fun c => .str c.toString)
  | _ => .error (.typeError (.notIterable j))

/-- `a > b` -/
def gt (a b : Json F) : Except (PyError F) Bool :=
  match lt? b a with
  | some r => .ok r
  | none => .error (.typeError (.unorderable ">" a b))

/-- `a <= b` -/
def le (a b : Json F) : Except (PyError F) Bool :=
  match le? a b with
  | some r => .ok r
  | none => .error (.typeError (.unorderable "<=" a b))

/-- `j.append(item)` -/
def append (j item : Json F) : Except (PyError F) (Json F) :=
  match j with
  | .arr items => .ok (.arr (items ++ [item]))
  | _ => .error (.attributeError j.typeName "append")

/-- `bool(j)` -/
def truthy : Json F → Bool
  | .null => false
  | .bool b => b
  | .int n => n ≠ 0
  | .float x => (Floats.any x).truthy
  | .str s => s ≠ ""
  | .arr items => !items.isEmpty
  | .obj fields => !fields.isEmpty

end Json

end AgentProof
