import AgentProof.ToolEnvironment.State

/-!
# ToolEnvironment/Interpreter — what the model leaves to the Python interpreter

The texts CPython chooses itself, and `round`.  A result over `[Interpreter]` holds of every version
and every platform.
-/

open Machinery

namespace AgentProof

/-- A Python value a call returns: a JSON value; an object with what pydantic's
`model_dump(mode="json")` makes of it, if anything; or the `__dict__` of a service, which stays the
service's own, with what pydantic makes of it by now. -/
inductive PyValue where
  | json (j : Json)
  | object (className : String) (dump : Option Json)
  | attributes (service : String) (reading : Option Json)
  deriving DecidableEq

/-- The interpreter. -/
class Interpreter where
  /-- `repr` of a string: quotes and escapes -/
  reprStr : String → String
  /-- `repr` of a float: the shortest decimal that reads back -/
  reprFloat : PyFloat → String
  /-- `str` of a `TypeError` CPython raises -/
  typeErrorText : TypeErrorCause → String
  /-- `str` of an `AttributeError` CPython raises -/
  attributeErrorText : String → String → String
  /-- `str` of a pydantic `ValidationError` -/
  validationErrorText : String → String
  /-- `round(a - b, 8)` on floats -/
  roundedDifference : PyFloat → PyFloat → PyFloat

variable [Interpreter]

/-- `repr(x)` -/
def AnyFloat.repr : AnyFloat → String
  | .finite x => Interpreter.reprFloat x
  | .inf negative => if negative then "-inf" else "inf"
  | .nan _ => "nan"

namespace Json

variable {F : Type} [Floats F]

mutual

/-- `repr(j)` -/
def repr : Json F → String
  | .null => "None"
  | .bool b => if b then "True" else "False"
  | .int n => toString n
  | .float x => (Floats.any x).repr
  | .str s => Interpreter.reprStr s
  | .arr items => "[" ++ ", ".intercalate (reprItems items) ++ "]"
  | .obj fields => "\x7b" ++ ", ".intercalate (reprFields fields) ++ "\x7d"

/-- `repr` of every item. -/
def reprItems : List (Json F) → List String
  | [] => []
  | j :: js => repr j :: reprItems js

/-- `repr` of every field. -/
def reprFields : List (String × Json F) → List String
  | [] => []
  | (k, j) :: fs => (Interpreter.reprStr k ++ ": " ++ repr j) :: reprFields fs

end

/-- `f"{j}"` -/
def format : Json F → String
  | .str s => s
  | j => j.repr

omit [Interpreter] in
/-- `j + 1` -/
def addOne : Json F → Except (PyError F) (Json F)
  | .bool b => .ok (.int ((if b then 1 else 0) + 1))
  | .int n => .ok (.int (n + 1))
  | .float x => .ok (.float (Floats.addInt x 1))
  | j => .error (.typeError (.notAddable j))

end Json

/-- `str(error)` -/
def PyError.text : PyError → String
  | .notFound message | .policyViolation message | .unknownTool message | .valueError message
  | .transientModelError message | .judgeResponseError message | .other _ message => message
  | .typeError cause => Interpreter.typeErrorText cause
  | .keyError key => Interpreter.reprStr key
  | .attributeError typeName name => Interpreter.attributeErrorText typeName name
  | .validationError field => Interpreter.validationErrorText field
  | .serializationError className => s!"Unable to serialize unknown type: <class '{className}'>"
  | .httpException statusCode detail => s!"{statusCode}: {detail}"

/-! ## A concrete interpreter

CPython 3.12 on what the closed statements of the development evaluate: strings without quotes or
escapes, and integral floats. -/

/-- The text of a `TypeError`. -/
def cpythonTypeErrorText : TypeErrorCause → String
  | .unhashable _ value => s!"unhashable type: '{value.typeName}'"
  | .unorderable operator left right =>
    s!"'{operator}' not supported between instances of '{left.typeName}' and '{right.typeName}'"
  | .notSubscriptable value => s!"'{value.typeName}' object is not subscriptable"
  | .noItemAssignment value => s!"'{value.typeName}' object does not support item assignment"
  | .notIterable value => s!"'{value.typeName}' object is not iterable"
  | .notContainer value => s!"argument of type '{value.typeName}' is not iterable"
  | .notInString value => s!"'in <string>' requires string as left operand, not {value.typeName}"
  | .notAddable value => s!"unsupported operand type(s) for +: '{value.typeName}' and 'int'"
  | .notMapping value => s!"'{value.typeName}' object is not a mapping"
  | .notIndex value _ => s!"{value.typeName} indices must be integers"
  | .unexpectedKeyword function keyword =>
    s!"{function}() got an unexpected keyword argument '{keyword}'"
  | .multipleValues function argument =>
    s!"{function}() got multiple values for argument '{argument}'"
  | .missingArguments function names =>
    let first := names.headD ""
    s!"{function}() missing {names.length} required positional argument: '{first}'"
  | .builtinCall function _ => s!"{function}() takes no keyword arguments"

/-- An interpreter to evaluate with. -/
abbrev cpython : Interpreter where
  reprStr s := "'" ++ s ++ "'"
  reprFloat
    | .negZero => "-0.0"
    | .fin q => s!"{q.num}.0"
  typeErrorText := cpythonTypeErrorText
  attributeErrorText typeName name := s!"'{typeName}' object has no attribute '{name}'"
  validationErrorText field := s!"1 validation error for {field}"
  roundedDifference a b := .fin (a.value - b.value)

end AgentProof
