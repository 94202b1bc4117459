import Steward.Lint.Rule

/-!
# Validation of parsed JSON

The value of `JSON.parse(…)` and of `await response.json()` has to go to a schema: a call of one of
its parsing methods stands at most four levels above it, in the same function.

* `isValidated`: whether a value goes to a schema.
-/

namespace Steward.Lint

/-- The methods by which a schema checks a value. -/
def schemaMethods : List String := ["parse", "safeParse", "parseAsync", "safeParseAsync"]

/-- How many levels above a value its schema may stand. -/
def validationDepth : Nat := 4

/-- Whether a call is `JSON.parse(…)`. -/
def isJsonParse (call : Node) : Bool := (call.child? "callee").any (·.isMemberOf "JSON" "parse")

/-- Whether a function is a method of a schema. -/
def isSchemaMethod (callee : Node) : Bool :=
  callee.member?.any schemaMethods.contains && !callee.hasIdentifier "object" "JSON"

/-- Whether a node is a call of a schema's method. -/
def isSchemaCall (n : Node) : Bool :=
  n.type = "CallExpression" && (n.child? "callee").any isSchemaMethod

/-- Whether a node is a function. -/
def isFunction (n : Node) : Bool :=
  n.type = "FunctionDeclaration" || n.type = "FunctionExpression" ||
    n.type = "ArrowFunctionExpression"

/-- Whether a child of a node is what the node calls. -/
def isCallee (child n : Node) : Bool := (n.child? "callee").any (·.same child)

/-- Whether the first call of a schema among the ancestors, nearest first, comes before any function
and has the node not in what it calls. -/
def isValidatedBy (child : Node) : List Node → Bool
  | [] => false
  | n :: rest =>
    if isFunction n then false
    else if isSchemaCall n && !isCallee child n then true
    else isValidatedBy n rest

/-- Whether the value of the visited node goes to a schema. -/
def isValidated (v : Visit) : Bool := isValidatedBy v.node (v.ancestors.take validationDepth)

/-- What an awaited call `response.json()` calls. -/
def awaitedJson? (n : Node) : Option Node := do
  let call ← n.child? "argument"
  let callee ← call.child? "callee"
  if call.type = "CallExpression" ∧ callee.member? = some "json" ∧
      (call.childList "arguments").isEmpty then
    return callee
  else none

/-- The name in a message for what an awaited call is made on. -/
def receiverOf (file : File) (callee : Node) : String :=
  ((callee.child? "object").bind (·.source? file.source)).getD "response"

/-- Reports every parsed value that does not go to a schema. -/
def preferZodValidation : Rule where
  about :=
    { name := "prefer-zod-validation", kind := .problem
      description := "Require Zod validation of JSON.parse and response.json results"
      messages := [("unvalidatedJson",
        "Result of \x7b\x7bsource\x7d\x7d is used without schema validation; " ++
          "pass it through a Zod schema's parse or safeParse.")] }
  handlers file :=
    [("CallExpression", fun _ v =>
        if isJsonParse v.node && !isValidated v then
          .atNode v.node "unvalidatedJson" [("source", "JSON.parse()")]
        else .nothing),
      ("AwaitExpression", fun _ v =>
        match awaitedJson? v.node with
        | none => .nothing
        | some callee =>
          if isValidated v then .nothing
          else .atNode v.node "unvalidatedJson" [("source", receiverOf file callee ++ ".json()")])]

end Steward.Lint
